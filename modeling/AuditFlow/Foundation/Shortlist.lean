import Mathlib.Data.List.Infix
import Mathlib.Order.Lattice

/-!
# Shortlists

The first `k` entries of a ranking that meet a condition. A ranking that was itself cut before the
entries were selected still gives a **prefix** of the shortlist (`shortlist_take_isPrefix`); nothing
is lost exactly if the cut left as many eligible entries as the shortlist has
(`shortlist_take_eq_iff`).
-/

namespace Foundation

section

variable {α β : Type} {p : α → Bool} {k n : ℕ} {l : List α}

/-- The first `k` entries that satisfy `p`. -/
def shortlist (p : α → Bool) (k : ℕ) (l : List α) : List α := (l.filter p).take k

theorem length_shortlist : (shortlist p k l).length = min k (l.countP p) := by
  rw [shortlist, List.length_take, ← List.countP_eq_length_filter]

theorem shortlist_sublist : (shortlist p k l).Sublist l :=
  (List.take_sublist k _).trans List.filter_sublist

theorem of_mem_shortlist {a : α} (h : a ∈ shortlist p k l) : p a = true :=
  (List.mem_filter.mp (List.mem_of_mem_take h)).2

theorem shortlist_map (f : β → α) (l : List β) :
    shortlist p k (l.map f) = (shortlist (p ∘ f) k l).map f := by
  rw [shortlist, List.filter_map, ← List.map_take, shortlist]

theorem shortlist_eq_nil_iff (hk : k ≠ 0) : shortlist p k l = [] ↔ ∀ a ∈ l, ¬p a = true := by
  rw [shortlist, List.take_eq_nil_iff, List.filter_eq_nil_iff]
  exact or_iff_right hk

/-- A cut before the selection leaves a prefix of the shortlist. -/
theorem shortlist_take_isPrefix : shortlist p k (l.take n) <+: shortlist p k l :=
  List.IsPrefix.take (List.IsPrefix.filter p (List.take_prefix n l)) k

/-- **A cut before the selection loses nothing** exactly if it leaves enough to select from. -/
theorem shortlist_take_eq_iff :
    shortlist p k (l.take n) = shortlist p k l ↔ min k (l.countP p) ≤ (l.take n).countP p := by
  have hcut : (l.take n).countP p ≤ l.countP p := (List.take_sublist n l).countP_le
  constructor
  · intro h
    have hlength := congrArg List.length h
    rw [length_shortlist, length_shortlist] at hlength
    omega
  · intro h
    refine shortlist_take_isPrefix.eq_of_length ?_
    rw [length_shortlist, length_shortlist]
    omega

end

end Foundation
