import AuditFlow.Foundation.Str
import Mathlib.Tactic.Common

/-!
# JSON decoding

`Json.loads` decodes a JSON text the way the scanner of `json.loads` does: a recursive descent
over the characters, with the decoder's own error messages and positions. Decoding can fail in
three ways that a caller can tell apart (`LoadError`): a decode error, nesting deeper than the
interpreter's recursion limit, and an integer literal longer than the interpreter converts.

Numbers keep their literal: nothing here computes with them. An escape can stand for a surrogate; a
high one that the escape of a low one follows is joined with it, and any other is **kept in the
string** (`Str`).

Nesting is the structural argument of `value` (it *is* the recursion limit). The loops over
elements and members take the length of the remaining text as fuel: each round consumes a comma,
so the fuel outlasts the text.
-/

namespace Foundation

/-- A decoded JSON value. -/
inductive Json
  | null
  | bool (b : Bool)
  | num (literal : String)
  | str (s : Str)
  | arr (elems : List Json)
  | obj (members : List (Str × Json))

namespace Json

/-- Why a text does not decode. -/
inductive LoadError
  /-- A decode error with its message; `rest` characters were left where it was detected. -/
  | decode (msg : String) (rest : ℕ)
  /-- Nested deeper than the recursion limit. -/
  | recursion
  /-- An integer literal longer than the interpreter converts. -/
  | intDigits
  deriving DecidableEq

/-- A scanner: consumes a prefix of the text. -/
abbrev Scan (α : Type) := List Char → Except LoadError (α × List Char)

/-- Digits an integer literal may have before conversion refuses it. -/
def maxIntDigits : ℕ := 4300

/-- Skip the four JSON white-space characters. -/
def skipWs (s : List Char) : List Char :=
  s.dropWhile fun c => c == ' ' || c == '\t' || c == '\n' || c == '\r'

/-! ### Strings -/

/-- The value of a hexadecimal digit. -/
def hexDigit (c : Char) : Option ℕ :=
  if '0' ≤ c ∧ c ≤ '9' then some (c.toNat - '0'.toNat)
  else if 'a' ≤ c ∧ c ≤ 'f' then some (c.toNat - 'a'.toNat + 10)
  else if 'A' ≤ c ∧ c ≤ 'F' then some (c.toNat - 'A'.toNat + 10)
  else none

/-- The four digits after a `\u`. -/
def hex4 (a b c d : Char) : Option ℕ := do
  let a ← hexDigit a
  let b ← hexDigit b
  let c ← hexDigit c
  let d ← hexDigit d
  return ((a * 16 + b) * 16 + c) * 16 + d

/-- The character a one-letter escape stands for. -/
def simpleEscape (c : Char) : Option ℕ :=
  if c = '"' then some 34 else if c = '\\' then some 92 else if c = '/' then some 47
  else if c = 'b' then some 8 else if c = 'f' then some 12 else if c = 'n' then some 10
  else if c = 'r' then some 13 else if c = 't' then some 9 else none

/-- The code units up to the closing quote; `start` characters were left at the opening one. -/
def scanUnits (start : ℕ) : List Char → Except LoadError (List ℕ × List Char)
  | [] => .error (.decode "Unterminated string starting at" start)
  | '"' :: s => .ok ([], s)
  | ['\\'] => .error (.decode "Unterminated string starting at" start)
  | '\\' :: 'u' :: a :: b :: c :: d :: s =>
    match hex4 a b c d with
    | none => .error (.decode "Invalid \\uXXXX escape" (s.length + 5))
    | some u =>
      -- the digits may not end the text
      if s = [] then .error (.decode "Invalid \\uXXXX escape" 5)
      else (scanUnits start s).map fun r => (u :: r.1, r.2)
  | '\\' :: c :: s =>
    if c = 'u' then .error (.decode "Invalid \\uXXXX escape" (s.length + 1))
    else match simpleEscape c with
      | none => .error (.decode "Invalid \\escape" (s.length + 2))
      | some u => (scanUnits start s).map fun r => (u :: r.1, r.2)
  | c :: s =>
    if c.toNat < 32 then .error (.decode "Invalid control character at" (s.length + 1))
    else (scanUnits start s).map fun r => (c.toNat :: r.1, r.2)

/-- The code point of a code unit that is not joined with another one. -/
def Point.ofUnit (u : ℕ) : Point :=
  if 0xd800 ≤ u ∧ u ≤ 0xdfff then .surrogate (Fin.ofNat 2048 (u - 0xd800)) else .char (Char.ofNat u)

/-- Join surrogate pairs. -/
def joinUnits : List ℕ → List Point
  | [] => []
  | [u] => [Point.ofUnit u]
  | u :: v :: us =>
    if 0xd800 ≤ u ∧ u ≤ 0xdbff ∧ 0xdc00 ≤ v ∧ v ≤ 0xdfff then
      .char (Char.ofNat (0x10000 + ((u - 0xd800) * 0x400 + (v - 0xdc00)))) :: joinUnits us
    else Point.ofUnit u :: joinUnits (v :: us)

/-- Where the joined units begin with a low surrogate, the units do. -/
theorem low_of_head_joinUnits {u : ℕ} {us : List ℕ} {p : Point}
    (hp : p ∈ (joinUnits (u :: us)).head?) (hlow : p.isLow = true) :
    0xdc00 ≤ u ∧ u ≤ 0xdfff := by
  have hunit (h : (Point.ofUnit u).isLow = true) : 0xdc00 ≤ u ∧ u ≤ 0xdfff := by
    rw [Point.ofUnit] at h
    split_ifs at h with hsurrogate
    · rw [Point.isLow, decide_eq_true_eq, Fin.val_ofNat] at h
      omega
    · cases h
  cases us with
  | nil =>
    obtain rfl := Option.some.inj hp
    exact hunit hlow
  | cons v us =>
    rw [joinUnits] at hp
    split_ifs at hp
    · obtain rfl := Option.some.inj hp
      cases hlow
    · obtain rfl := Option.some.inj hp
      exact hunit hlow

/-- **What is joined** has no pair left. -/
theorem isChain_joinUnits (us : List ℕ) : (joinUnits us).IsChain Point.Apart := by
  fun_induction joinUnits us with
  | case1 => exact .nil
  | case2 => exact .singleton _
  | case3 u v us _ ih => exact List.isChain_cons.mpr ⟨fun q _ => Point.apart_char _ q, ih⟩
  | case4 u v us hpair ih =>
    refine List.isChain_cons.mpr ⟨fun q hq => ?_, ih⟩
    rintro ⟨hhigh, hlow⟩
    have hv := low_of_head_joinUnits hq hlow
    rw [Point.ofUnit] at hhigh
    split_ifs at hhigh with hsurrogate
    · rw [Point.isHigh, decide_eq_true_eq, Fin.val_ofNat] at hhigh
      omega
    · cases hhigh

/-- A string, after its opening quote. -/
def scanString : Scan Str := fun s =>
  (scanUnits (s.length + 1) s).map fun r => (⟨joinUnits r.1, isChain_joinUnits r.1⟩, r.2)

/-! ### Numbers and literals -/

/-- The longest run of ASCII digits, and what follows. -/
def scanDigits (s : List Char) : List Char × List Char := s.span Char.isDigit

/-- `(\.[0-9]+)?` -/
def scanFraction (s : List Char) : List Char × List Char :=
  match s with
  | '.' :: s' =>
    match scanDigits s' with
    | ([], _) => ([], s)
    | (ds, s'') => ('.' :: ds, s'')
  | _ => ([], s)

/-- `([eE][-+]?[0-9]+)?` -/
def scanExponent (s : List Char) : List Char × List Char :=
  match s with
  | e :: s' =>
    if e = 'e' ∨ e = 'E' then
      let (sign, s'') := match s' with
        | '+' :: t => (['+'], t)
        | '-' :: t => (['-'], t)
        | t => ([], t)
      match scanDigits s'' with
      | ([], _) => ([], s)
      | (ds, s''') => (e :: sign ++ ds, s''')
    else ([], s)
  | [] => ([], s)

/-- `-?(0|[1-9][0-9]*)`: sign, digits and what follows. -/
def scanInteger (s : List Char) : Option (List Char × List Char × List Char) :=
  let (sign, s') := match s with
    | '-' :: t => (['-'], t)
    | t => ([], t)
  match s' with
  | '0' :: t => some (sign, ['0'], t)
  | c :: _ => if c.isDigit then some (sign, scanDigits s') else none
  | [] => none

/-- A number, if the text starts with one. -/
def scanNumber (s : List Char) : Option (Except LoadError (Json × List Char)) :=
  (scanInteger s).map fun (sign, ds, s₁) =>
    let (frac, s₂) := scanFraction s₁
    let (expo, s₃) := scanExponent s₂
    if frac = [] ∧ expo = [] ∧ maxIntDigits < ds.length then .error .intDigits
    else .ok (.num (String.ofList (sign ++ ds ++ frac ++ expo)), s₃)

/-- The text after `lit`, if it starts with it. -/
def dropLiteral (lit : String) (s : List Char) : Option (List Char) :=
  if lit.toList.isPrefixOf s then some (s.drop lit.length) else none

/-- A constant or a number, tried in the decoder's order. -/
def scanAtom : Scan Json := fun s =>
  match dropLiteral "null" s, dropLiteral "true" s, dropLiteral "false" s, scanNumber s,
    dropLiteral "NaN" s, dropLiteral "Infinity" s, dropLiteral "-Infinity" s with
  | some r, _, _, _, _, _, _ => .ok (.null, r)
  | _, some r, _, _, _, _, _ => .ok (.bool true, r)
  | _, _, some r, _, _, _, _ => .ok (.bool false, r)
  | _, _, _, some r, _, _, _ => r
  | _, _, _, _, some r, _, _ => .ok (.num "NaN", r)
  | _, _, _, _, _, some r, _ => .ok (.num "Infinity", r)
  | _, _, _, _, _, _, some r => .ok (.num "-Infinity", r)
  | _, _, _, _, _, _, _ => .error (.decode "Expecting value" s.length)

/-! ### Containers -/

/-- The elements of a non-empty array, from the first element on. -/
def scanElements (item : Scan Json) : ℕ → Scan (List Json)
  | 0, s => .error (.decode "Expecting value" s.length)
  | fuel + 1, s => do
    let (v, s) ← item s
    match skipWs s with
    | ']' :: s => return ([v], s)
    | ',' :: s =>
      let (vs, s) ← scanElements item fuel (skipWs s)
      return (v :: vs, s)
    | s => .error (.decode "Expecting ',' delimiter" s.length)

/-- The members of a non-empty object, from after the first opening quote on. -/
def scanMembers (item : Scan Json) : ℕ → Scan (List (Str × Json))
  | 0, s => .error (.decode "Expecting value" s.length)
  | fuel + 1, s => do
    let (k, s) ← scanString s
    match skipWs s with
    | ':' :: s =>
      let (v, s) ← item (skipWs s)
      match skipWs s with
      | '}' :: s => return ([(k, v)], s)
      | ',' :: s =>
        match skipWs s with
        | '"' :: s =>
          let (kvs, s) ← scanMembers item fuel s
          return ((k, v) :: kvs, s)
        | s => .error (.decode "Expecting property name enclosed in double quotes" s.length)
      | s => .error (.decode "Expecting ',' delimiter" s.length)
    | s => .error (.decode "Expecting ':' delimiter" s.length)

/-- One value, nested at most `depth` deep. -/
def value : (depth : ℕ) → Scan Json
  | 0, _ => .error .recursion
  | depth + 1, s =>
    match s with
    | '"' :: s => (scanString s).map fun r => (.str r.1, r.2)
    | '{' :: s =>
      match skipWs s with
      | '}' :: s => .ok (.obj [], s)
      | '"' :: s => (scanMembers (value depth) (s.length + 1) s).map fun r => (.obj r.1, r.2)
      | s => .error (.decode "Expecting property name enclosed in double quotes" s.length)
    | '[' :: s =>
      match skipWs s with
      | ']' :: s => .ok (.arr [], s)
      | s => (scanElements (value depth) (s.length + 1) s).map fun r => (.arr r.1, r.2)
    | s => scanAtom s

/-- `json.loads(s)` under a recursion limit. -/
def loads (limit : ℕ) (s : List Char) : Except LoadError Json :=
  if s.head? = some '\ufeff' then
    .error (.decode "Unexpected UTF-8 BOM (decode using utf-8-sig)" s.length)
  else do
    let (v, rest) ← value limit (skipWs s)
    match skipWs rest with
    | [] => return v
    | rest => .error (.decode "Extra data" rest.length)

/-- The member under `k` of a decoded object: the last of several wins. -/
def member (members : List (Str × Json)) (k : String) : Option Json :=
  (members.reverse.find? fun m => decide (m.1 = (k : Str))).map Prod.snd

end Json

end Foundation
