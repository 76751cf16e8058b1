import AuditFlow.Foundation.JsonText

/-!
# Writing JSON

`Json.dumps` writes a value as `json.dumps` does: strings in ASCII, every other character escaped,
characters beyond the first plane as surrogate pairs; on one line, or with every element and member
on a line of its own, indented by its depth (`Style`). The values that are written (`Plain`) have no
numbers, and their strings are those of Lean.

A written text is one of the texts that `Encodes` allows, so that **it is read back as the value
that was written** (`loads_dumps`), in either style; hence different values have different texts
(`dumps_injective`).
-/

namespace Foundation.Json

/-! ### Values -/

/-- A value without numbers. -/
inductive Plain
  | null
  | bool (b : Bool)
  | str (s : String)
  | arr (elems : List Plain)
  | obj (members : List (String × Plain))

namespace Plain

mutual

/-- The decoded value. -/
def toJson : Plain → Json
  | null => .null
  | bool b => .bool b
  | str s => .str s
  | arr elems => .arr (toJsons elems)
  | obj members => .obj (toMembers members)

def toJsons : List Plain → List Json
  | [] => []
  | v :: vs => toJson v :: toJsons vs

def toMembers : List (String × Plain) → List (Str × Json)
  | [] => []
  | (k, v) :: ms => ((k : Str), toJson v) :: toMembers ms

end

mutual

/-- How deep the value is nested. -/
def depth : Plain → ℕ
  | null | bool _ | str _ => 1
  | arr elems => depths elems + 1
  | obj members => depthMembers members + 1

def depths : List Plain → ℕ
  | [] => 0
  | v :: vs => max (depth v) (depths vs)

def depthMembers : List (String × Plain) → ℕ
  | [] => 0
  | (_, v) :: ms => max (depth v) (depthMembers ms)

end

end Plain

/-! ### Texts -/

/-- `'{0:04x}'.format(n)`. -/
def writeHex4 (n : ℕ) : List Char :=
  [hexChar (n / 4096 % 16), hexChar (n / 256 % 16), hexChar (n / 16 % 16), hexChar (n % 16)]

/-- A character between the quotes. -/
def writeChar (c : Char) : List Char :=
  if c = '\\' then ['\\', '\\']
  else if c = '"' then ['\\', '"']
  else if c.toNat = 8 then ['\\', 'b']
  else if c.toNat = 9 then ['\\', 't']
  else if c.toNat = 10 then ['\\', 'n']
  else if c.toNat = 12 then ['\\', 'f']
  else if c.toNat = 13 then ['\\', 'r']
  else if 32 ≤ c.toNat ∧ c.toNat ≤ 126 then [c]
  else if c.toNat < 0x10000 then '\\' :: 'u' :: writeHex4 c.toNat
  else
    '\\' :: 'u' :: writeHex4 (0xd800 + (c.toNat - 0x10000) / 0x400) ++
      '\\' :: 'u' :: writeHex4 (0xdc00 + (c.toNat - 0x10000) % 0x400)

/-- The characters between the quotes. -/
def writeChars (cs : List Char) : List Char := cs.flatMap writeChar

/-- `json.dumps(s)` for a string. -/
def writeString (s : String) : List Char := '"' :: (writeChars s.toList ++ ['"'])

/-- On one line, or indented by so many blanks for each level. -/
structure Style where
  indent : Option ℕ := none

/-- What stands before the first element at a level, and after the last one. -/
def Style.gap (style : Style) (level : ℕ) : List Char :=
  match style.indent with
  | none => []
  | some width => '\n' :: List.replicate (width * level) ' '

/-- What stands after the comma. -/
def Style.afterComma (style : Style) (level : ℕ) : List Char :=
  match style.indent with
  | none => [' ']
  | some _ => style.gap level

mutual

/-- The text of a value at a level. -/
def write (style : Style) (level : ℕ) : Plain → List Char
  | .null => "null".toList
  | .bool true => "true".toList
  | .bool false => "false".toList
  | .str s => writeString s
  | .arr [] => ['[', ']']
  | .arr (v :: vs) =>
    '[' :: (style.gap (level + 1) ++ (write style (level + 1) v ++
      (writeElements style (level + 1) vs ++ style.gap level) ++ [']']))
  | .obj [] => ['{', '}']
  | .obj ((k, v) :: ms) =>
    '{' :: (style.gap (level + 1) ++ (writeString k ++ ':' :: ' ' :: write style (level + 1) v ++
      (writeMembers style (level + 1) ms ++ style.gap level) ++ ['}']))

/-- The elements behind the first one. -/
def writeElements (style : Style) (level : ℕ) : List Plain → List Char
  | [] => []
  | v :: vs =>
    ',' :: (style.afterComma level ++ (write style level v ++ writeElements style level vs))

/-- The members behind the first one. -/
def writeMembers (style : Style) (level : ℕ) : List (String × Plain) → List Char
  | [] => []
  | (k, v) :: ms =>
    ',' :: (style.afterComma level ++ (writeString k ++ ':' :: ' ' :: write style level v ++
      writeMembers style level ms))

end

/-- `json.dumps(v)`, or with an indent. -/
def dumps (v : Plain) (style : Style := {}) : List Char := write style 0 v

/-! ### Strings -/

/-- **A character** is read back from what is written for it. -/
theorem encodesChars_writeChar (c : Char) {ps : List Point} {t : List Char}
    (h : EncodesChars ps t) : EncodesChars (.char c :: ps) (writeChar c ++ t) := by
  have hmax : c.toNat < 0x110000 := by
    have hc := c.valid
    simp only [UInt32.isValidChar, Nat.isValidChar, Char.toNat] at hc ⊢
    omega
  have hescape : ∀ (e : Char) (n : ℕ), simpleEscape e = some n → c.toNat = n →
      EncodesChars (.char c :: ps) (['\\', e] ++ t) := fun e n he hn => .escape (by rw [he, hn]) h
  rw [writeChar]
  split_ifs with hbackslash hquote h8 h9 h10 h12 h13 hprintable hplane
  · exact hescape '\\' 92 (by decide) (by rw [hbackslash]; decide)
  · exact hescape '"' 34 (by decide) (by rw [hquote]; decide)
  · exact hescape 'b' 8 (by decide) h8
  · exact hescape 't' 9 (by decide) h9
  · exact hescape 'n' 10 (by decide) h10
  · exact hescape 'f' 12 (by decide) h12
  · exact hescape 'r' 13 (by decide) h13
  · exact .plain hprintable.1 hquote hbackslash h
  · exact .hex (hex4_hexChar hplane) h
  · -- the two halves of the code point beyond the first plane
    refine .pair (hex4_hexChar ?_) (hex4_hexChar ?_) ?_ ?_ ?_ h
    all_goals omega

theorem encodesChars_writeChars (cs : List Char) :
    EncodesChars (cs.map .char) (writeChars cs) := by
  induction cs with
  | nil => exact .nil
  | cons c cs ih => exact encodesChars_writeChar c ih

/-! ### White space -/

theorem blank_gap (style : Style) (level : ℕ) : Blank (style.gap level) := by
  rw [Style.gap]
  split
  · exact blank_nil
  · intro c hc
    rcases List.mem_cons.mp hc with rfl | hc
    · rfl
    · rw [List.eq_of_mem_replicate hc]
      rfl

theorem blank_afterComma (style : Style) (level : ℕ) : Blank (style.afterComma level) := by
  rw [Style.afterComma]
  split
  · intro c hc
    rw [List.mem_singleton.mp hc]
    rfl
  · exact blank_gap style level

private theorem blank_space : Blank [' '] := by
  intro c hc
  rw [List.mem_singleton.mp hc]
  rfl

/-! ### Values -/

/-- A text that is nested at most `m` deep is nested at most `n` deep. -/
private theorem encodes_of_le {m n : ℕ} {p : Phrase} {t : List Char} (h : Encodes m p t)
    (hle : m ≤ n) : Encodes n p t := by
  obtain ⟨k, rfl⟩ := Nat.exists_eq_add_of_le hle
  exact h.mono k

/-- The last member of an object. -/
private theorem encodes_lastMember {n : ℕ} {v : Json} {t w : List Char} (k : String)
    (h : Encodes n (.value v) t) (hw : Blank w) :
    Encodes n (.members [((k : Str), v)]) (writeString k ++ ':' :: ' ' :: t ++ w) := by
  have hkey : EncodesChars (k : Str).points (writeChars k.toList) :=
    encodesChars_writeChars k.toList
  have hmember := Encodes.lastMember hkey blank_nil blank_space h hw
  simpa [writeString] using hmember

/-- A member before others. -/
private theorem encodes_member {n : ℕ} {v : Json} {t w u : List Char} (k : String)
    {ms : List (Str × Json)} (h : Encodes n (.value v) t) (hw : Blank w)
    (hu : Encodes n (.members ms) u) :
    Encodes n (.members (((k : Str), v) :: ms))
      (writeString k ++ ':' :: ' ' :: t ++ (',' :: (w ++ u))) := by
  have hkey : EncodesChars (k : Str).points (writeChars k.toList) :=
    encodesChars_writeChars k.toList
  have hmember := Encodes.member hkey blank_nil blank_space h blank_nil hw hu
  simpa [writeString] using hmember

mutual

/-- **A value that is written** is one of the texts for it. -/
theorem encodes_write (style : Style) (level : ℕ) :
    ∀ v : Plain, Encodes v.depth (.value v.toJson) (write style level v)
  | .null => .null
  | .bool true => .true
  | .bool false => .false
  | .str s => by
    have hstring : EncodesChars (s : Str).points (writeChars s.toList) :=
      encodesChars_writeChars s.toList
    exact .str hstring
  | .arr [] => .emptyArr blank_nil
  | .arr (v :: vs) => by
    have hfirst := encodes_of_le (encodes_write style (level + 1) v)
      (Nat.le_max_left v.depth (Plain.depths vs))
    have harr := Encodes.arr (blank_gap style (level + 1))
      (encodes_writeElements style (level + 1) (blank_gap style level) hfirst vs
        (Nat.le_max_right v.depth (Plain.depths vs)))
    simpa [write, Plain.toJson, Plain.toJsons, Plain.depth, Plain.depths] using harr
  | .obj [] => .emptyObj blank_nil
  | .obj ((k, v) :: ms) => by
    have hfirst := encodes_of_le (encodes_write style (level + 1) v)
      (Nat.le_max_left v.depth (Plain.depthMembers ms))
    have hobj := Encodes.obj (blank_gap style (level + 1))
      (encodes_writeMembers style (level + 1) (blank_gap style level) k hfirst ms
        (Nat.le_max_right v.depth (Plain.depthMembers ms)))
    simpa [write, Plain.toJson, Plain.toMembers, Plain.depth, Plain.depthMembers] using hobj

/-- The elements behind a first one. -/
theorem encodes_writeElements (style : Style) (level : ℕ) {n : ℕ} {w : List Char} (hw : Blank w)
    {first : Json} {t : List Char} (h : Encodes n (.value first) t) :
    ∀ vs : List Plain, Plain.depths vs ≤ n →
      Encodes n (.elements (first :: Plain.toJsons vs)) (t ++ (writeElements style level vs ++ w))
  | [], _ => .lastElement h hw
  | v :: vs, hle => by
    have hv := encodes_of_le (encodes_write style level v) (Nat.le_trans (Nat.le_max_left _ _) hle)
    have hrest := encodes_writeElements style level hw hv vs
      (Nat.le_trans (Nat.le_max_right _ _) hle)
    have helements := Encodes.element h blank_nil (blank_afterComma style level) hrest
    simpa [writeElements, Plain.toJsons] using helements

/-- The members behind a first one. -/
theorem encodes_writeMembers (style : Style) (level : ℕ) {n : ℕ} {w : List Char} (hw : Blank w)
    (k : String) {first : Json} {t : List Char} (h : Encodes n (.value first) t) :
    ∀ ms : List (String × Plain), Plain.depthMembers ms ≤ n →
      Encodes n (.members (((k : Str), first) :: Plain.toMembers ms))
        (writeString k ++ ':' :: ' ' :: t ++ (writeMembers style level ms ++ w))
  | [], _ => encodes_lastMember k h hw
  | (k', v) :: ms, hle => by
    have hv := encodes_of_le (encodes_write style level v) (Nat.le_trans (Nat.le_max_left _ _) hle)
    have hrest := encodes_writeMembers style level hw k' hv ms
      (Nat.le_trans (Nat.le_max_right _ _) hle)
    have hmembers := encodes_member k h (blank_afterComma style level) hrest
    simpa [writeMembers, Plain.toMembers] using hmembers

end

/-- **What is written is read back**, if the interpreter can nest that deep. -/
theorem loads_dumps {v : Plain} {limit : ℕ} (hdepth : v.depth ≤ limit) (style : Style) :
    loads limit (dumps v style) = .ok v.toJson :=
  loads_of_encodes (encodes_write style 0 v) hdepth

mutual

/-- A value is determined by what it decodes to. -/
theorem Plain.toJson_inj : ∀ {v v' : Plain}, v.toJson = v'.toJson → v = v'
  | .null, .null, _ => rfl
  | .bool _, .bool _, h => by rw [Json.bool.inj h]
  | .str _, .str _, h => by rw [Str.ofString_injective (Json.str.inj h)]
  | .arr _, .arr _, h => by rw [Plain.toJsons_inj (Json.arr.inj h)]
  | .obj _, .obj _, h => by rw [Plain.toMembers_inj (Json.obj.inj h)]

theorem Plain.toJsons_inj : ∀ {vs vs' : List Plain}, toJsons vs = toJsons vs' → vs = vs'
  | [], [], _ => rfl
  | _ :: _, _ :: _, h => by
    rw [Plain.toJson_inj (List.cons.inj h).1, Plain.toJsons_inj (List.cons.inj h).2]

theorem Plain.toMembers_inj : ∀ {ms ms' : List (String × Plain)},
    toMembers ms = toMembers ms' → ms = ms'
  | [], [], _ => rfl
  | (_, _) :: _, (_, _) :: _, h => by
    obtain ⟨hhead, htail⟩ := List.cons.inj h
    rw [Str.ofString_injective (Prod.mk.inj hhead).1, Plain.toJson_inj (Prod.mk.inj hhead).2,
      Plain.toMembers_inj htail]

end

/-- **Different values have different texts**, whatever the styles. -/
theorem dumps_injective {v v' : Plain} {style style' : Style}
    (h : dumps v style = dumps v' style') : v = v' := by
  have hread := loads_dumps (Nat.le_max_left v.depth v'.depth) style
  rw [h, loads_dumps (Nat.le_max_right v.depth v'.depth) style'] at hread
  exact (Plain.toJson_inj (Except.ok.inj hread)).symm

end Foundation.Json
