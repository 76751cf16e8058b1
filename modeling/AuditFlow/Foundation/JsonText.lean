import AuditFlow.Foundation.Json

/-!
# JSON texts and what they decode to

`Encodes n p t` says that the text `t` is a way to write the JSON phrase `p`, nested at most `n`
deep: **any** white space between the tokens, and any of the escapes for each character of a string,
surrogate pairs included. Numbers are left out.

`Json.loads` decodes every such text to the value it encodes (`loads_of_encodes`): the decoder may
stop early only at the end of the value, so the proof follows the grammar, with what comes behind a
phrase left open.
-/

namespace Foundation.Json

/-! ### White space -/

/-- The four JSON white-space characters. -/
def isWs (c : Char) : Bool := c == ' ' || c == '\t' || c == '\n' || c == '\r'

/-- A text of white space only. -/
def Blank (w : List Char) : Prop := ∀ c ∈ w, isWs c = true

theorem blank_nil : Blank [] := fun _ h => absurd h List.not_mem_nil

theorem skipWs_blank {w : List Char} (hw : Blank w) (s : List Char) :
    skipWs (w ++ s) = skipWs s := by
  induction w with
  | nil => rfl
  | cons c w ih =>
    obtain ⟨hc, hrest⟩ := List.forall_mem_cons.mp hw
    have hskip : skipWs (c :: (w ++ s)) = if isWs c then skipWs (w ++ s) else c :: (w ++ s) :=
      List.dropWhile_cons
    rw [List.cons_append, hskip, if_pos hc, ih hrest]

theorem skipWs_cons {c : Char} (hc : isWs c = false) (s : List Char) :
    skipWs (c :: s) = c :: s := by
  have hskip : skipWs (c :: s) = if isWs c then skipWs s else c :: s := List.dropWhile_cons
  rw [hskip, hc]
  rfl

/-! ### Strings -/

/-- The text between the quotes stands for the code points. -/
inductive EncodesChars : List Point → List Char → Prop
  | nil : EncodesChars [] []
  /-- A character as it is. -/
  | plain {c : Char} {ps : List Point} {t : List Char} (hcontrol : 32 ≤ c.toNat)
      (hquote : c ≠ '"') (hbackslash : c ≠ '\\') (h : EncodesChars ps t) :
      EncodesChars (.char c :: ps) (c :: t)
  /-- A one-letter escape. -/
  | escape {e c : Char} {ps : List Point} {t : List Char} (he : simpleEscape e = some c.toNat)
      (h : EncodesChars ps t) : EncodesChars (.char c :: ps) ('\\' :: e :: t)
  /-- Four hexadecimal digits. -/
  | hex {x y z w c : Char} {ps : List Point} {t : List Char}
      (hx : hex4 x y z w = some c.toNat) (h : EncodesChars ps t) :
      EncodesChars (.char c :: ps) ('\\' :: 'u' :: x :: y :: z :: w :: t)
  /-- A surrogate, which must not be joined with the next code point. -/
  | surrogate {x y z w : Char} {k : Fin 2048} {ps : List Point} {t : List Char}
      (hx : hex4 x y z w = some (0xd800 + k.val))
      (hapart : ∀ p ∈ ps.head?, (Point.surrogate k).Apart p) (h : EncodesChars ps t) :
      EncodesChars (.surrogate k :: ps) ('\\' :: 'u' :: x :: y :: z :: w :: t)
  /-- A surrogate pair. -/
  | pair {x y z w x' y' z' w' c : Char} {ps : List Point} {t : List Char} {u v : ℕ}
      (hu : hex4 x y z w = some u) (hv : hex4 x' y' z' w' = some v)
      (hhigh : 0xd800 ≤ u ∧ u ≤ 0xdbff) (hlow : 0xdc00 ≤ v ∧ v ≤ 0xdfff)
      (hc : c.toNat = 0x10000 + ((u - 0xd800) * 0x400 + (v - 0xdc00))) (h : EncodesChars ps t) :
      EncodesChars (.char c :: ps)
        ('\\' :: 'u' :: x :: y :: z :: w :: '\\' :: 'u' :: x' :: y' :: z' :: w' :: t)

/-- A unit that does not make a pair with the next one is joined with nothing. -/
private theorem joinUnits_cons {u : ℕ} {us : List ℕ}
    (h : ∀ v ∈ us.head?, ¬(0xd800 ≤ u ∧ u ≤ 0xdbff ∧ 0xdc00 ≤ v ∧ v ≤ 0xdfff)) :
    joinUnits (u :: us) = Point.ofUnit u :: joinUnits us := by
  cases us with
  | nil => rfl
  | cons v us => rw [joinUnits, if_neg (h v rfl)]

/-- A character that is no surrogate is joined with nothing. -/
theorem joinUnits_char (c : Char) (us : List ℕ) :
    joinUnits (c.toNat :: us) = .char c :: joinUnits us := by
  have hvalid : ¬(0xd800 ≤ c.toNat ∧ c.toNat ≤ 0xdfff) := by
    have hc := c.valid
    simp only [UInt32.isValidChar, Nat.isValidChar, Char.toNat] at hc ⊢
    omega
  have hunit : Point.ofUnit c.toNat = .char c := by
    rw [Point.ofUnit, if_neg hvalid, Char.ofNat_toNat]
  rw [joinUnits_cons fun v _ => by omega, hunit]

/-- A surrogate is joined with nothing if no other half stands behind it. -/
theorem joinUnits_surrogate {k : Fin 2048} {us : List ℕ}
    (hapart : ∀ p ∈ (joinUnits us).head?, (Point.surrogate k).Apart p) :
    joinUnits ((0xd800 + k.val) :: us) = .surrogate k :: joinUnits us := by
  have hunit : Point.ofUnit (0xd800 + k.val) = .surrogate k := by
    have hplace : Fin.ofNat 2048 (0xd800 + k.val - 0xd800) = k := by
      ext
      rw [Fin.val_ofNat]
      omega
    rw [Point.ofUnit, if_pos (by omega), hplace]
  rw [joinUnits_cons, hunit]
  intro v hv hpair
  obtain ⟨us', rfl⟩ := List.head?_eq_some_iff.mp hv
  -- a low surrogate stays one, for it is the first half of no pair
  have hjoin : joinUnits (v :: us') = Point.ofUnit v :: joinUnits us' :=
    joinUnits_cons fun v' _ => by omega
  refine hapart (Point.ofUnit v) (by rw [hjoin]; rfl) ⟨?_, ?_⟩
  · rw [Point.isHigh, decide_eq_true_eq]
    omega
  · rw [Point.ofUnit, if_pos (by omega), Point.isLow, decide_eq_true_eq, Fin.val_ofNat]
    omega

/-- Four digits, and what follows them. -/
theorem scanUnits_hex {x y z w : Char} {u : ℕ} (hx : hex4 x y z w = some u) (start : ℕ)
    {s : List Char} (hs : s ≠ []) : scanUnits start ('\\' :: 'u' :: x :: y :: z :: w :: s) =
      (scanUnits start s).map fun r => (u :: r.1, r.2) := by
  simp only [scanUnits, hx, if_neg hs]

theorem simpleEscape_u : simpleEscape 'u' = none := by decide

/-- **A string is scanned** to code units that are joined to its code points. -/
theorem scanUnits_of_encodes {ps : List Point} {t : List Char} (h : EncodesChars ps t)
    (start : ℕ) (rest : List Char) :
    ∃ us, scanUnits start (t ++ '"' :: rest) = .ok (us, rest) ∧ joinUnits us = ps := by
  induction h with
  | nil => exact ⟨[], rfl, rfl⟩
  | @plain c ps t hcontrol hquote hbackslash _ ih =>
    obtain ⟨us, hscan, hjoin⟩ := ih
    refine ⟨c.toNat :: us, ?_, by rw [joinUnits_char, hjoin]⟩
    rw [List.cons_append, scanUnits, if_neg (by omega), hscan]
    · rfl
    all_goals simp [hquote, hbackslash]
  | @escape e c ps t he _ ih =>
    obtain ⟨us, hscan, hjoin⟩ := ih
    refine ⟨c.toNat :: us, ?_, by rw [joinUnits_char, hjoin]⟩
    have hu : e ≠ 'u' := by
      rintro rfl
      rw [simpleEscape_u] at he
      cases he
    rw [List.cons_append, List.cons_append, scanUnits, if_neg hu, he]
    · simp only [hscan]
      rfl
    all_goals simp [hu]
  | @hex x y z w c ps t hx _ ih =>
    obtain ⟨us, hscan, hjoin⟩ := ih
    refine ⟨c.toNat :: us, ?_, by rw [joinUnits_char, hjoin]⟩
    simp only [List.cons_append]
    rw [scanUnits_hex hx start (by simp), hscan]
    rfl
  | @surrogate x y z w k ps t hx hapart _ ih =>
    obtain ⟨us, hscan, hjoin⟩ := ih
    refine ⟨(0xd800 + k.val) :: us, ?_, ?_⟩
    · simp only [List.cons_append]
      rw [scanUnits_hex hx start (by simp), hscan]
      rfl
    · rw [joinUnits_surrogate (by rw [hjoin]; exact hapart), hjoin]
  | @pair x y z w x' y' z' w' c ps t u v hu hv hhigh hlow hc _ ih =>
    obtain ⟨us, hscan, hjoin⟩ := ih
    refine ⟨u :: v :: us, ?_, ?_⟩
    · simp only [List.cons_append]
      rw [scanUnits_hex hu start (by simp), scanUnits_hex hv start (by simp), hscan]
      rfl
    · rw [joinUnits, if_pos ⟨hhigh.1, hhigh.2, hlow⟩, hjoin, ← hc, Char.ofNat_toNat]

theorem scanString_of_encodes {s : Str} {t : List Char} (h : EncodesChars s.points t)
    (rest : List Char) : scanString (t ++ '"' :: rest) = .ok (s, rest) := by
  obtain ⟨us, hscan, hjoin⟩ := scanUnits_of_encodes h ((t ++ '"' :: rest).length + 1) rest
  have hstring : (⟨joinUnits us, isChain_joinUnits us⟩ : Str) = s := Str.ext hjoin
  rw [scanString, hscan, ← hstring]
  rfl

/-! ### Values -/

/-- What a text can be read as: a value, the elements of a non-empty array, or the members of a
non-empty object. -/
inductive Phrase
  | value (v : Json)
  | elements (vs : List Json)
  | members (ms : List (Str × Json))

/-- The text is a way to write the phrase, nested at most `n` deep. -/
inductive Encodes : ℕ → Phrase → List Char → Prop
  | null {n : ℕ} : Encodes (n + 1) (.value .null) "null".toList
  | true {n : ℕ} : Encodes (n + 1) (.value (.bool true)) "true".toList
  | false {n : ℕ} : Encodes (n + 1) (.value (.bool false)) "false".toList
  | str {n : ℕ} {s : Str} {t : List Char} (h : EncodesChars s.points t) :
      Encodes (n + 1) (.value (.str s)) ('"' :: (t ++ ['"']))
  | emptyArr {n : ℕ} {w : List Char} (hw : Blank w) :
      Encodes (n + 1) (.value (.arr [])) ('[' :: (w ++ [']']))
  | arr {n : ℕ} {w t : List Char} {vs : List Json} (hw : Blank w) (h : Encodes n (.elements vs) t) :
      Encodes (n + 1) (.value (.arr vs)) ('[' :: (w ++ (t ++ [']'])))
  | emptyObj {n : ℕ} {w : List Char} (hw : Blank w) :
      Encodes (n + 1) (.value (.obj [])) ('{' :: (w ++ ['}']))
  | obj {n : ℕ} {w t : List Char} {ms : List (Str × Json)} (hw : Blank w)
      (h : Encodes n (.members ms) t) :
      Encodes (n + 1) (.value (.obj ms)) ('{' :: (w ++ (t ++ ['}'])))
  | lastElement {n : ℕ} {v : Json} {t w : List Char} (h : Encodes n (.value v) t) (hw : Blank w) :
      Encodes n (.elements [v]) (t ++ w)
  | element {n : ℕ} {v : Json} {vs : List Json} {t w w' u : List Char}
      (h : Encodes n (.value v) t) (hw : Blank w) (hw' : Blank w')
      (hrest : Encodes n (.elements vs) u) :
      Encodes n (.elements (v :: vs)) (t ++ (w ++ ',' :: (w' ++ u)))
  | lastMember {n : ℕ} {k : Str} {kt w₁ w₂ t w₃ : List Char} {v : Json}
      (hk : EncodesChars k.points kt) (hw₁ : Blank w₁) (hw₂ : Blank w₂)
      (h : Encodes n (.value v) t) (hw₃ : Blank w₃) :
      Encodes n (.members [(k, v)])
        ('"' :: (kt ++ '"' :: (w₁ ++ ':' :: (w₂ ++ (t ++ w₃)))))
  | member {n : ℕ} {k : Str} {kt w₁ w₂ t w₃ w₄ u : List Char} {v : Json}
      {ms : List (Str × Json)} (hk : EncodesChars k.points kt) (hw₁ : Blank w₁)
      (hw₂ : Blank w₂) (h : Encodes n (.value v) t) (hw₃ : Blank w₃) (hw₄ : Blank w₄)
      (hrest : Encodes n (.members ms) u) :
      Encodes n (.members ((k, v) :: ms))
        ('"' :: (kt ++ '"' :: (w₁ ++ ':' :: (w₂ ++ (t ++ (w₃ ++ ',' :: (w₄ ++ u)))))))

/-- A text begins with no white space, closes nothing and is no byte order mark. -/
theorem exists_cons_of_encodes {n : ℕ} {p : Phrase} {t : List Char} (h : Encodes n p t) :
    ∃ c s, t = c :: s ∧ isWs c = false ∧ c ≠ ']' ∧ c ≠ '\ufeff' := by
  induction h with
  | null | true | false | str | emptyArr | arr | emptyObj | obj | lastMember | member =>
    exact ⟨_, _, rfl, by decide, by decide, by decide⟩
  | lastElement _ _ ih =>
    obtain ⟨c, s, rfl, hc⟩ := ih
    exact ⟨c, _, rfl, hc⟩
  | element _ _ _ _ ih _ =>
    obtain ⟨c, s, rfl, hc⟩ := ih
    exact ⟨c, _, rfl, hc⟩

/-- White space before a text is skipped, and nothing of the text. -/
theorem skipWs_of_encodes {n : ℕ} {p : Phrase} {w t : List Char} (hw : Blank w)
    (h : Encodes n p t) (rest : List Char) : skipWs (w ++ (t ++ rest)) = t ++ rest := by
  obtain ⟨c, s, rfl, hc, -⟩ := exists_cons_of_encodes h
  rw [skipWs_blank hw, List.cons_append, skipWs_cons hc]

/-- What the scanners make of a phrase, whatever comes behind it. -/
def Phrase.Scanned (n : ℕ) : Phrase → List Char → Prop
  | .value v, t => ∀ rest, Json.value n (t ++ rest) = .ok (v, rest)
  | .elements vs, t => ∀ fuel rest, t.length < fuel →
      scanElements (Json.value n) fuel (t ++ ']' :: rest) = .ok (vs, rest)
  | .members ms, t => ∃ s, t = '"' :: s ∧ ∀ fuel rest, t.length < fuel →
      scanMembers (Json.value n) fuel (s ++ '}' :: rest) = .ok (ms, rest)

/-! ### One phrase of each kind -/

private theorem dropLiteral_append (lit : String) (rest : List Char) :
    dropLiteral lit (lit.toList ++ rest) = some rest := by
  have hprefix : lit.toList.isPrefixOf (lit.toList ++ rest) = true :=
    List.isPrefixOf_iff_prefix.mpr (List.prefix_append _ _)
  have hlength : lit.length = lit.toList.length := String.length_toList.symm
  rw [dropLiteral, hprefix, if_pos rfl, hlength, List.drop_left]

private theorem value_null (n : ℕ) (rest : List Char) :
    Json.value (n + 1) ("null".toList ++ rest) = .ok (.null, rest) := by
  have hatom : Json.value (n + 1) ("null".toList ++ rest) = scanAtom ("null".toList ++ rest) := rfl
  rw [hatom, scanAtom, dropLiteral_append]

private theorem value_bool (n : ℕ) (rest : List Char) :
    Json.value (n + 1) ("true".toList ++ rest) = .ok (.bool true, rest) ∧
      Json.value (n + 1) ("false".toList ++ rest) = .ok (.bool false, rest) := by
  have htrue : Json.value (n + 1) ("true".toList ++ rest) = scanAtom ("true".toList ++ rest) := rfl
  have hfalse : Json.value (n + 1) ("false".toList ++ rest) =
      scanAtom ("false".toList ++ rest) := rfl
  have hnull : dropLiteral "null" ("true".toList ++ rest) = none := rfl
  have hnull' : dropLiteral "null" ("false".toList ++ rest) = none := rfl
  have htrue' : dropLiteral "true" ("false".toList ++ rest) = none := rfl
  constructor
  · rw [htrue, scanAtom, hnull, dropLiteral_append]
  · rw [hfalse, scanAtom, hnull', htrue', dropLiteral_append]

private theorem value_str (n : ℕ) (s : List Char) :
    Json.value (n + 1) ('"' :: s) = (scanString s).map fun r => (.str r.1, r.2) := rfl

private theorem value_emptyArr {n : ℕ} {s rest : List Char} (hskip : skipWs s = ']' :: rest) :
    Json.value (n + 1) ('[' :: s) = .ok (.arr [], rest) := by
  rw [Json.value, hskip]
  rfl

private theorem value_arr {n : ℕ} {c : Char} {s rest : List Char} (hskip : skipWs s = c :: rest)
    (hclose : c ≠ ']') :
    Json.value (n + 1) ('[' :: s) =
      (scanElements (Json.value n) ((c :: rest).length + 1) (c :: rest)).map
        fun r => (.arr r.1, r.2) := by
  rw [Json.value, hskip]
  split
  · rename_i heq
    exact absurd (List.cons.inj heq).1 hclose
  · rfl

private theorem value_emptyObj {n : ℕ} {s rest : List Char} (hskip : skipWs s = '}' :: rest) :
    Json.value (n + 1) ('{' :: s) = .ok (.obj [], rest) := by
  rw [Json.value, hskip]
  rfl

private theorem value_obj {n : ℕ} {s rest : List Char} (hskip : skipWs s = '"' :: rest) :
    Json.value (n + 1) ('{' :: s) =
      (scanMembers (Json.value n) (rest.length + 1) rest).map fun r => (.obj r.1, r.2) := by
  rw [Json.value, hskip]
  rfl

/-- After an element: the end of the array, or a comma and more of them. -/
private theorem scanElements_last {item : Scan Json} {fuel : ℕ} {s s' rest : List Char} {v : Json}
    (hitem : item s = .ok (v, s')) (hskip : skipWs s' = ']' :: rest) :
    scanElements item (fuel + 1) s = .ok ([v], rest) := by
  simp only [scanElements, hitem, bind, Except.bind, hskip]
  rfl

private theorem scanElements_more {item : Scan Json} {fuel : ℕ} {s s' s'' rest : List Char}
    {v : Json} {vs : List Json} (hitem : item s = .ok (v, s')) (hskip : skipWs s' = ',' :: s'')
    (hmore : scanElements item fuel (skipWs s'') = .ok (vs, rest)) :
    scanElements item (fuel + 1) s = .ok (v :: vs, rest) := by
  simp only [scanElements, hitem, bind, Except.bind, hskip, hmore]
  rfl

/-- A member up to its value, and after it the end of the object, or a comma and more of them. -/
private theorem scanMembers_last {item : Scan Json} {fuel : ℕ} {s s₁ s₂ s₃ rest : List Char}
    {k : Str} {v : Json} (hkey : scanString s = .ok (k, s₁))
    (hcolon : skipWs s₁ = ':' :: s₂) (hitem : item (skipWs s₂) = .ok (v, s₃))
    (hskip : skipWs s₃ = '}' :: rest) :
    scanMembers item (fuel + 1) s = .ok ([(k, v)], rest) := by
  simp only [scanMembers, hkey, bind, Except.bind, hcolon, hitem, hskip]
  rfl

private theorem scanMembers_more {item : Scan Json} {fuel : ℕ} {s s₁ s₂ s₃ s₄ s₅ rest : List Char}
    {k : Str} {v : Json} {ms : List (Str × Json)}
    (hkey : scanString s = .ok (k, s₁)) (hcolon : skipWs s₁ = ':' :: s₂)
    (hitem : item (skipWs s₂) = .ok (v, s₃)) (hskip : skipWs s₃ = ',' :: s₄)
    (hquote : skipWs s₄ = '"' :: s₅) (hmore : scanMembers item fuel s₅ = .ok (ms, rest)) :
    scanMembers item (fuel + 1) s = .ok ((k, v) :: ms, rest) := by
  simp only [scanMembers, hkey, bind, Except.bind, hcolon, hitem, hskip, hquote, hmore]
  rfl

/-! ### All phrases -/

/-- **What is written is scanned**, and nothing of what comes behind it. -/
theorem scanned_of_encodes {n : ℕ} {p : Phrase} {t : List Char} (h : Encodes n p t) :
    p.Scanned n t := by
  have hcomma : isWs ',' = false := by decide
  have hcolon : isWs ':' = false := by decide
  have hquote : isWs '"' = false := by decide
  have hbracket : isWs ']' = false := by decide
  have hbrace : isWs '}' = false := by decide
  induction h with
  | null => exact value_null _
  | true => exact fun rest => (value_bool _ rest).1
  | false => exact fun rest => (value_bool _ rest).2
  | @str n s t ht =>
    intro rest
    rw [List.cons_append, List.append_assoc, value_str, List.singleton_append,
      scanString_of_encodes ht]
    rfl
  | @emptyArr n w hw =>
    intro rest
    rw [List.cons_append, List.append_assoc, List.singleton_append]
    exact value_emptyArr (by rw [skipWs_blank hw, skipWs_cons hbracket])
  | @arr n w t vs hw ht ih =>
    intro rest
    obtain ⟨c, s, hcons, -, hclose, -⟩ := exists_cons_of_encodes ht
    have hskip : skipWs (w ++ (t ++ ']' :: rest)) = c :: (s ++ ']' :: rest) := by
      rw [skipWs_of_encodes hw ht, hcons, List.cons_append]
    have hscan := ih ((t ++ ']' :: rest).length + 1) rest (by
      rw [List.length_append]
      omega)
    rw [hcons, List.cons_append] at hscan
    rw [List.cons_append, List.append_assoc, List.append_assoc, List.singleton_append,
      value_arr hskip hclose, hscan]
    rfl
  | @emptyObj n w hw =>
    intro rest
    rw [List.cons_append, List.append_assoc, List.singleton_append]
    exact value_emptyObj (by rw [skipWs_blank hw, skipWs_cons hbrace])
  | @obj n w t ms hw ht ih =>
    intro rest
    obtain ⟨s, rfl, hscan⟩ := ih
    have hskip : skipWs (w ++ ('"' :: s ++ '}' :: rest)) = '"' :: (s ++ '}' :: rest) :=
      skipWs_of_encodes hw ht ('}' :: rest)
    have hfuel : ('"' :: s).length < (s ++ '}' :: rest).length + 1 := by
      rw [List.length_append, List.length_cons, List.length_cons]
      omega
    rw [List.cons_append, List.append_assoc, List.append_assoc, List.singleton_append,
      value_obj hskip, hscan _ _ hfuel]
    rfl
  | @lastElement n v t w ht hw ih =>
    intro fuel rest hfuel
    obtain ⟨fuel, rfl⟩ := Nat.exists_eq_succ_of_ne_zero (Nat.ne_zero_of_lt hfuel)
    rw [List.append_assoc]
    exact scanElements_last (ih _) (by rw [skipWs_blank hw, skipWs_cons hbracket])
  | @element n v vs t w w' u ht hw hw' hu ih ihrest =>
    intro fuel rest hfuel
    obtain ⟨fuel, rfl⟩ := Nat.exists_eq_succ_of_ne_zero (Nat.ne_zero_of_lt hfuel)
    have hlength : u.length < fuel := by
      simp only [List.length_append, List.length_cons] at hfuel
      omega
    rw [List.append_assoc, List.append_assoc, List.cons_append, List.append_assoc]
    refine scanElements_more (ih _) (by rw [skipWs_blank hw, skipWs_cons hcomma]) ?_
    rw [skipWs_of_encodes hw' hu]
    exact ihrest fuel rest hlength
  | @lastMember n k kt w₁ w₂ t w₃ v hk hw₁ hw₂ ht hw₃ ih =>
    refine ⟨_, rfl, fun fuel rest hfuel => ?_⟩
    obtain ⟨fuel, rfl⟩ := Nat.exists_eq_succ_of_ne_zero (Nat.ne_zero_of_lt hfuel)
    simp only [List.append_assoc, List.cons_append]
    have hvalue : Json.value n (skipWs (w₂ ++ (t ++ (w₃ ++ '}' :: rest)))) =
        .ok (v, w₃ ++ '}' :: rest) := by
      rw [skipWs_of_encodes hw₂ ht]
      exact ih _
    exact scanMembers_last (scanString_of_encodes hk _)
      (by rw [skipWs_blank hw₁, skipWs_cons hcolon]) hvalue
      (by rw [skipWs_blank hw₃, skipWs_cons hbrace])
  | @member n k kt w₁ w₂ t w₃ w₄ u v ms hk hw₁ hw₂ ht hw₃ hw₄ hu ih ihrest =>
    obtain ⟨s, rfl, hscan⟩ := ihrest
    refine ⟨_, rfl, fun fuel rest hfuel => ?_⟩
    obtain ⟨fuel, rfl⟩ := Nat.exists_eq_succ_of_ne_zero (Nat.ne_zero_of_lt hfuel)
    have hlength : ('"' :: s).length < fuel := by
      simp only [List.length_append, List.length_cons] at hfuel ⊢
      omega
    simp only [List.append_assoc, List.cons_append]
    have hvalue : Json.value n
        (skipWs (w₂ ++ (t ++ (w₃ ++ ',' :: (w₄ ++ '"' :: (s ++ '}' :: rest)))))) =
        .ok (v, w₃ ++ ',' :: (w₄ ++ '"' :: (s ++ '}' :: rest))) := by
      rw [skipWs_of_encodes hw₂ ht]
      exact ih _
    exact scanMembers_more (scanString_of_encodes hk _)
      (by rw [skipWs_blank hw₁, skipWs_cons hcolon]) hvalue
      (by rw [skipWs_blank hw₃, skipWs_cons hcomma]) (by rw [skipWs_blank hw₄, skipWs_cons hquote])
      (hscan fuel rest hlength)

/-- A text that is nested at most `n` deep is nested at most `n + k` deep. -/
theorem Encodes.mono {n : ℕ} {p : Phrase} {t : List Char} (h : Encodes n p t) (k : ℕ) :
    Encodes (n + k) p t := by
  have hsucc (n : ℕ) : n + 1 + k = n + k + 1 := Nat.add_right_comm n 1 k
  induction h with
  | null => exact hsucc _ ▸ .null
  | true => exact hsucc _ ▸ .true
  | false => exact hsucc _ ▸ .false
  | str h => exact hsucc _ ▸ .str h
  | emptyArr hw => exact hsucc _ ▸ .emptyArr hw
  | arr hw _ ih => exact hsucc _ ▸ .arr hw ih
  | emptyObj hw => exact hsucc _ ▸ .emptyObj hw
  | obj hw _ ih => exact hsucc _ ▸ .obj hw ih
  | lastElement _ hw ih => exact .lastElement ih hw
  | element _ hw hw' _ ih ihrest => exact .element ih hw hw' ihrest
  | lastMember hk hw₁ hw₂ _ hw₃ ih => exact .lastMember hk hw₁ hw₂ ih hw₃
  | member hk hw₁ hw₂ _ hw₃ hw₄ _ ih ihrest => exact .member hk hw₁ hw₂ ih hw₃ hw₄ ihrest

/-- **A text decodes to the value it encodes**, if the interpreter can nest that deep. -/
theorem loads_of_encodes {n limit : ℕ} {v : Json} {t : List Char}
    (h : Encodes n (.value v) t) (hdepth : n ≤ limit) : loads limit t = .ok v := by
  obtain ⟨k, rfl⟩ := Nat.exists_eq_add_of_le hdepth
  have hvalue : Json.value (n + k) t = .ok (v, []) := by
    have hscan := scanned_of_encodes (h.mono k) []
    rwa [List.append_nil] at hscan
  obtain ⟨c, s, hcons, hc, -, hmark⟩ := exists_cons_of_encodes h
  have hskip : skipWs t = t := by
    rw [hcons, skipWs_cons hc]
  have hbom : t.head? ≠ some '\ufeff' := by
    rw [hcons]
    exact fun heq => hmark (Option.some.inj heq)
  rw [loads, if_neg hbom, hskip, hvalue]
  rfl

/-! ### Everything can be written -/

/-- The digit of a number below 16. -/
def hexChar (d : ℕ) : Char := "0123456789abcdef".toList.getD d '0'

private theorem hexDigit_hexChar : ∀ d < 16, hexDigit (hexChar d) = some d := by decide

/-- Four digits are read back. -/
theorem hex4_hexChar {n : ℕ} (h : n < 0x10000) :
    hex4 (hexChar (n / 4096 % 16)) (hexChar (n / 256 % 16)) (hexChar (n / 16 % 16))
      (hexChar (n % 16)) = some n := by
  have hdigit : ∀ m, hexDigit (hexChar (m % 16)) = some (m % 16) :=
    fun m => hexDigit_hexChar _ (Nat.mod_lt m (by omega))
  simp only [hex4, hdigit, bind, Option.bind, pure, Option.some.injEq]
  omega

/-- Every string can be written. -/
theorem exists_encodesChars (s : Str) : ∃ t, EncodesChars s.points t := by
  obtain ⟨points, hapart⟩ := s
  induction points with
  | nil => exact ⟨[], .nil⟩
  | cons p ps ih =>
    obtain ⟨hhead, hrest⟩ := List.isChain_cons.mp hapart
    obtain ⟨t, ht⟩ := ih hrest
    cases p with
    | surrogate k => exact ⟨_, .surrogate (hex4_hexChar (by omega)) hhead ht⟩
    | char c =>
      by_cases hquote : c = '"'
      · exact ⟨_, .escape (e := '"') (by rw [hquote]; decide) ht⟩
      · by_cases hbackslash : c = '\\'
        · exact ⟨_, .escape (e := '\\') (by rw [hbackslash]; decide) ht⟩
        · by_cases hcontrol : 32 ≤ c.toNat
          · exact ⟨_, .plain hcontrol hquote hbackslash ht⟩
          · exact ⟨_, .hex (hex4_hexChar (by omega)) ht⟩

theorem exists_text_str (n : ℕ) (s : Str) : ∃ t, Encodes (n + 1) (.value (.str s)) t := by
  obtain ⟨t, ht⟩ := exists_encodesChars s
  exact ⟨_, .str ht⟩

private theorem exists_text_elements {n : ℕ} (v : Json) (vs : List Json)
    (h : ∀ v' ∈ v :: vs, ∃ t, Encodes n (.value v') t) :
    ∃ t, Encodes n (.elements (v :: vs)) t := by
  induction vs generalizing v with
  | nil =>
    obtain ⟨t, ht⟩ := h v List.mem_cons_self
    exact ⟨_, .lastElement ht blank_nil⟩
  | cons w vs ih =>
    obtain ⟨t, ht⟩ := h v List.mem_cons_self
    obtain ⟨u, hu⟩ := ih w fun v' hv' => h v' (List.mem_cons_of_mem v hv')
    exact ⟨_, .element ht blank_nil blank_nil hu⟩

/-- An array of values that can be written can be written. -/
theorem exists_text_arr {n : ℕ} {vs : List Json} (h : ∀ v ∈ vs, ∃ t, Encodes n (.value v) t) :
    ∃ t, Encodes (n + 1) (.value (.arr vs)) t := by
  cases vs with
  | nil => exact ⟨_, .emptyArr blank_nil⟩
  | cons v vs =>
    obtain ⟨t, ht⟩ := exists_text_elements v vs h
    exact ⟨_, .arr blank_nil ht⟩

/-- The object with these members. -/
def object (ms : List (String × Json)) : Json := .obj (ms.map fun m => ((m.1 : Str), m.2))

private theorem exists_text_members {n : ℕ} (k : String) (v : Json) (ms : List (String × Json))
    (h : ∀ m ∈ (k, v) :: ms, ∃ t, Encodes n (.value m.2) t) :
    ∃ t, Encodes n (.members (((k, v) :: ms).map fun m => ((m.1 : Str), m.2))) t := by
  obtain ⟨kt, hk⟩ := exists_encodesChars k
  obtain ⟨t, ht⟩ := h (k, v) List.mem_cons_self
  induction ms generalizing k v kt t with
  | nil => exact ⟨_, .lastMember hk blank_nil blank_nil ht blank_nil⟩
  | cons m ms ih =>
    have hlater : ∀ m' ∈ m :: ms, ∃ t, Encodes n (.value m'.2) t := fun m' hm' =>
      h m' (List.mem_cons_of_mem _ hm')
    obtain ⟨kt', hk'⟩ := exists_encodesChars m.1
    obtain ⟨t', ht'⟩ := hlater m List.mem_cons_self
    obtain ⟨u, hu⟩ := ih m.1 m.2 hlater kt' hk' t' ht'
    exact ⟨_, .member hk blank_nil blank_nil ht blank_nil blank_nil hu⟩

/-- An object of values that can be written can be written. -/
theorem exists_text_obj {n : ℕ} {ms : List (String × Json)}
    (h : ∀ m ∈ ms, ∃ t, Encodes n (.value m.2) t) :
    ∃ t, Encodes (n + 1) (.value (object ms)) t := by
  cases ms with
  | nil => exact ⟨_, .emptyObj blank_nil⟩
  | cons m ms =>
    obtain ⟨t, ht⟩ := exists_text_members m.1 m.2 ms h
    exact ⟨_, .obj blank_nil ht⟩

/-- The text of an object stands between braces. -/
theorem braces_of_encodes {n : ℕ} {ms : List (String × Json)} {t : List Char}
    (h : Encodes n (.value (object ms)) t) : t.head? = some '{' ∧ t.getLast? = some '}' := by
  rw [object] at h
  generalize ms.map (fun m => ((m.1 : Str), m.2)) = ms' at h
  cases h with
  | emptyObj hw =>
    refine ⟨rfl, ?_⟩
    rw [← List.cons_append, List.getLast?_concat]
  | obj hw h =>
    refine ⟨rfl, ?_⟩
    rw [← List.append_assoc, ← List.cons_append, List.getLast?_concat]

end Foundation.Json
