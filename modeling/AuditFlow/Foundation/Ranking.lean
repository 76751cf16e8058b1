import Mathlib.Data.List.Sort

/-!
# Ranking by a key

`rank key` sorts **highest key first**, ties in their original order. What a ranking says does not
depend on how it sorts: its first element is one of highest key, an element comes before every
element of lower key, and the sequence of keys depends on the elements alone, not on their order.
-/

namespace Foundation

variable {α β : Type} [LinearOrder β] {key : α → β} {xs ys : List α} {a b : α}

/-- The elements, highest key first. -/
def rank (key : α → β) (xs : List α) : List α := xs.insertionSort fun a b => key b ≤ key a

private theorem rank_pairwise (key : α → β) (xs : List α) :
    (rank key xs).Pairwise fun a b => key b ≤ key a := by
  have htotal : Std.Total fun a b : α => key b ≤ key a := ⟨fun a b => le_total (key b) (key a)⟩
  have htrans : IsTrans α fun a b => key b ≤ key a := ⟨fun _ _ _ hab hbc => hbc.trans hab⟩
  exact List.pairwise_insertionSort _ xs

theorem rank_perm (key : α → β) (xs : List α) : (rank key xs).Perm xs :=
  List.perm_insertionSort _ xs

theorem mem_rank : a ∈ rank key xs ↔ a ∈ xs := List.mem_insertionSort _

/-- **The first element has the highest key.** -/
theorem key_le_of_rank_eq_cons {rest : List α} (h : rank key xs = a :: rest) (hb : b ∈ xs) :
    key b ≤ key a := by
  have hsorted := rank_pairwise key xs
  rw [h] at hsorted
  have hmem : b ∈ rank key xs := mem_rank.mpr hb
  rw [h] at hmem
  rcases List.mem_cons.mp hmem with rfl | hrest
  · exact le_rfl
  · exact List.rel_of_pairwise_cons hsorted hrest

/-- **An element comes before every element of lower key.** -/
theorem pair_sublist_rank (key : α → β) (ha : a ∈ xs) (hb : b ∈ xs) (hlower : key b < key a) :
    [a, b].Sublist (rank key xs) := by
  obtain ⟨before, after, hsplit⟩ := List.append_of_mem (mem_rank.mpr ha : a ∈ rank key xs)
  have hsorted := rank_pairwise key xs
  have hmem : b ∈ rank key xs := mem_rank.mpr hb
  rw [hsplit] at hsorted hmem ⊢
  rcases List.mem_append.mp hmem with hbefore | hrest
  · -- what stands before is not lower
    have hle := (List.pairwise_append.mp hsorted).2.2 b hbefore a List.mem_cons_self
    exact absurd hlower (not_lt.mpr hle)
  · rcases List.mem_cons.mp hrest with rfl | hafter
    · exact absurd hlower (lt_irrefl _)
    · refine List.Sublist.trans ?_ (List.sublist_append_right before (a :: after))
      exact (List.singleton_sublist.mpr hafter).cons_cons a

/-- **The sequence of keys does not depend on the order.** -/
theorem map_rank_of_perm (key : α → β) (h : xs.Perm ys) :
    (rank key xs).map key = (rank key ys).map key := by
  have hperm : ((rank key xs).map key).Perm ((rank key ys).map key) :=
    (((rank_perm key xs).trans h).trans (rank_perm key ys).symm).map key
  have hsorted (zs : List α) : ((rank key zs).map key).Pairwise (· ≥ ·) :=
    List.pairwise_map.mpr (rank_pairwise key zs)
  exact hperm.eq_of_pairwise' (hsorted xs) (hsorted ys)

/-- An element that is alone in having the highest key is the first in every order. -/
theorem rank_eq_cons_of_perm (h : xs.Perm ys) {rest : List α} (hxs : rank key xs = a :: rest)
    (hunique : ∀ b ∈ xs, key b = key a → b = a) : ∃ rest', rank key ys = a :: rest' := by
  have hkeys := map_rank_of_perm key h
  rw [hxs, List.map_cons] at hkeys
  cases hys : rank key ys with
  | nil =>
    rw [hys] at hkeys
    cases hkeys
  | cons b rest' =>
    rw [hys, List.map_cons] at hkeys
    have hkey : key a = key b := (List.cons.inj hkeys).1
    have hb : b ∈ xs := h.mem_iff.mpr (mem_rank.mp (hys ▸ List.mem_cons_self))
    rw [hunique b hb hkey.symm]
    exact ⟨rest', rfl⟩

end Foundation
