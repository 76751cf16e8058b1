import AuditFlow.Foundation.Dict
import Mathlib.Data.List.Chain

/-!
# Strings with surrogates

A string that is decoded from a JSON text is a list of code points, and an escape can put any code
point into it, **unpaired surrogates included**. A low surrogate right behind a high one is joined
with it, and so these never stand side by side. A Lean string has no surrogates at all; it is one of
these strings.

The keys of a dictionary are Lean strings here, and a `Str` with a surrogate is never one of them
(`Dict.lookup`). Where a string goes into a text that leaves the process, `Str.shown` has the
replacement character for each surrogate.
-/

namespace Foundation

/-- A code point: a character, or a surrogate by its place among them. -/
inductive Point
  | char (c : Char)
  | surrogate (k : Fin 2048)
  deriving DecidableEq, Repr

namespace Point

/-- The surrogates that come first in a pair. -/
def isHigh : Point → Bool
  | char _ => false
  | surrogate k => decide (k.val < 1024)

/-- The surrogates that come second. -/
def isLow : Point → Bool
  | char _ => false
  | surrogate k => decide (1024 ≤ k.val)

/-- Two code points that are no pair. -/
def Apart (p q : Point) : Prop := ¬(p.isHigh = true ∧ q.isLow = true)

instance : DecidableRel Apart := fun _ _ => inferInstanceAs (Decidable ¬(_ ∧ _))

/-- The character of a code point. -/
def char? : Point → Option Char
  | char c => some c
  | surrogate _ => none

/-- The character that stands for a code point in a text. -/
def shown : Point → Char
  | char c => c
  | surrogate _ => '\ufffd'

theorem apart_char (c : Char) (q : Point) : (char c).Apart q := fun h => nomatch h.1

end Point

/-- A decoded string. -/
structure Str where
  points : List Point
  apart : points.IsChain Point.Apart
  deriving DecidableEq, Repr

namespace Str

@[ext] theorem ext {s t : Str} (h : s.points = t.points) : s = t := by
  obtain ⟨points, _⟩ := s
  obtain rfl : points = t.points := h
  rfl

/-- Characters are no surrogates. -/
theorem isChain_map_char (cs : List Char) : (cs.map Point.char).IsChain Point.Apart := by
  induction cs with
  | nil => exact .nil
  | cons c cs ih => exact List.isChain_cons.mpr ⟨fun q _ => Point.apart_char c q, ih⟩

/-- A string without surrogates. -/
def ofString (s : String) : Str := ⟨s.toList.map .char, isChain_map_char s.toList⟩

instance : Coe String Str := ⟨ofString⟩

@[simp] theorem points_ofString (s : String) :
    (ofString s).points = s.toList.map Point.char := rfl

/-- The string, if it has no surrogates. -/
def text? (s : Str) : Option String := (s.points.mapM Point.char?).map String.ofList

/-- The string with the replacement character for each surrogate. -/
def shown (s : Str) : String := String.ofList (s.points.map Point.shown)

private theorem mapM_char?_map (cs : List Char) :
    (cs.map Point.char).mapM Point.char? = some cs := by
  induction cs with
  | nil => rfl
  | cons c cs ih =>
    rw [List.map_cons, List.mapM_cons, ih]
    rfl

private theorem eq_map_of_mapM_char? {points : List Point} {cs : List Char}
    (h : points.mapM Point.char? = some cs) : points = cs.map .char := by
  induction points generalizing cs with
  | nil =>
    obtain rfl := Option.some.inj h
    rfl
  | cons p points ih =>
    rw [List.mapM_cons] at h
    obtain ⟨c, hc, hrest⟩ := Option.bind_eq_some_iff.mp h
    obtain ⟨cs', hcs', hcons⟩ := Option.bind_eq_some_iff.mp hrest
    obtain rfl := Option.some.inj hcons
    cases p with
    | char c' =>
      obtain rfl := Option.some.inj hc
      rw [List.map_cons, ih hcs']
    | surrogate => cases hc

/-- **The strings without surrogates** are the Lean strings. -/
theorem text?_eq_some_iff {s : Str} {t : String} : s.text? = some t ↔ s = t := by
  rw [text?, Option.map_eq_some_iff]
  constructor
  · rintro ⟨cs, hcs, rfl⟩
    ext1
    rw [points_ofString, String.toList_ofList]
    exact eq_map_of_mapM_char? hcs
  · rintro rfl
    exact ⟨t.toList, mapM_char?_map t.toList, String.ofList_toList⟩

@[simp] theorem text?_ofString (s : String) : (ofString s).text? = some s :=
  text?_eq_some_iff.mpr rfl

@[simp] theorem shown_ofString (s : String) : (ofString s).shown = s := by
  have hpoints : (s.toList.map Point.char).map Point.shown = s.toList := by
    rw [List.map_map]
    exact List.map_id _
  rw [shown, points_ofString, hpoints, String.ofList_toList]

theorem ofString_injective : Function.Injective ofString := by
  intro a b h
  have htext := congrArg text? h
  rw [text?_ofString, text?_ofString] at htext
  exact Option.some.inj htext

@[simp] theorem ofString_inj {a b : String} : ofString a = ofString b ↔ a = b :=
  ofString_injective.eq_iff

end Str

/-- What a dictionary has under a string. -/
def Dict.lookup {V : Type} (d : Dict String V) (k : Str) : Option V := k.text?.bind d.get?

@[simp] theorem Dict.lookup_ofString {V : Type} (d : Dict String V) (k : String) :
    d.lookup k = d.get? k := by
  rw [lookup, Str.text?_ofString, Option.bind_some]

theorem Dict.lookup_eq_some_iff {V : Type} {d : Dict String V} {k : Str} {v : V} :
    d.lookup k = some v ↔ ∃ k' : String, k = k' ∧ d.get? k' = some v := by
  rw [lookup, Option.bind_eq_some_iff]
  exact exists_congr fun k' => by rw [Str.text?_eq_some_iff]

end Foundation
