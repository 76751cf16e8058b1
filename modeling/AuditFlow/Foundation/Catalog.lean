import Mathlib.Data.Finset.Lattice.Basic
import Mathlib.Data.Finset.SDiff
import Mathlib.Logic.Function.Basic

/-!
# Catalogs and incremental updates

A catalog says which keys each owner has: `D → Finset K`, where an `owner` function reads the owner
off a key, so that no two owners share one. Replacing the keys of an owner from scratch and the
**incremental update** that removes what is no longer there and adds what is new are the same:
`add_remove_diff`.
-/

namespace Foundation

variable {K D : Type}

/-- The keys of each owner. -/
structure Catalog (owner : K → D) where
  keys : D → Finset K
  owned : ∀ {d k}, k ∈ keys d → owner k = d

namespace Catalog

/-- Nobody has anything. -/
def empty (owner : K → D) : Catalog owner := ⟨fun _ => ∅, fun h => absurd h (Finset.notMem_empty _)⟩

variable {owner : K → D}

/-- Keys of one owner are not among those of another. -/
theorem notMem_of_ne (c : Catalog owner) {d d' : D} (hne : d' ≠ d) {k : K} (hk : k ∈ c.keys d) :
    k ∉ c.keys d' :=
  fun hk' => hne ((c.owned hk').symm.trans (c.owned hk))

variable [DecidableEq K]

/-- Take keys away from everybody. -/
def remove (keys : D → Finset K) (ks : Finset K) : D → Finset K := fun d => keys d \ ks

/-- Taking keys of `d` away does not change what others have. -/
theorem remove_of_ne (c : Catalog owner) {d d' : D} (hne : d' ≠ d) {ks : Finset K}
    (hks : ks ⊆ c.keys d) : remove c.keys ks d' = c.keys d' := by
  ext k
  rw [remove, Finset.mem_sdiff]
  refine and_iff_left_of_imp fun hk hmem => ?_
  exact c.notMem_of_ne hne (hks hmem) hk

variable [DecidableEq D]

/-- Give keys to `d`. -/
def add (keys : D → Finset K) (d : D) (ks : Finset K) : D → Finset K :=
  Function.update keys d (keys d ∪ ks)

/-- **The incremental update is the rebuild.** -/
theorem add_remove_diff (c : Catalog owner) (d : D) (new : Finset K) :
    add (remove c.keys (c.keys d \ new)) d (new \ c.keys d) = Function.update c.keys d new := by
  funext d'
  rcases eq_or_ne d' d with rfl | hne
  · rw [add, Function.update_self, Function.update_self, remove]
    ext k
    simp only [Finset.mem_union, Finset.mem_sdiff]
    tauto
  · rw [add, Function.update_of_ne hne, Function.update_of_ne hne]
    exact c.remove_of_ne hne Finset.sdiff_subset

/-- Removing all keys of `d` is replacing them by none. -/
theorem remove_all (c : Catalog owner) (d : D) :
    remove c.keys (c.keys d) = Function.update c.keys d ∅ := by
  funext d'
  rcases eq_or_ne d' d with rfl | hne
  · rw [remove, Function.update_self, Finset.sdiff_self]
  · rw [Function.update_of_ne hne]
    exact c.remove_of_ne hne (Finset.Subset.refl _)

end Catalog

end Foundation
