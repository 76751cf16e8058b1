import Mathlib.Algebra.BigOperators.Group.Finset.Piecewise
import Mathlib.Data.Fintype.Basic

/-!
# Counting processes

How many of finitely many processes are in a place. When one process moves, a count changes by what
this process adds to it before and after (`census_update`): this is what the accounts of a shared
resource rest on.
-/

namespace Foundation

variable {ι S : Type} [Fintype ι]

/-- How many processes are in the place. -/
def census (place : S → Bool) (f : ι → S) : ℕ :=
  (Finset.univ.filter fun i => place (f i) = true).card

variable {place : S → Bool} {f : ι → S}

/-- One summand changes. -/
theorem sum_update_add {κ : Type} [DecidableEq κ] {s : Finset κ} {k : κ} (hk : k ∈ s) (g : κ → ℕ)
    (a : ℕ) : ∑ j ∈ s, Function.update g k a j + g k = ∑ j ∈ s, g j + a := by
  rw [Finset.sum_update_of_mem hk, Finset.sdiff_singleton_eq_erase, ← Finset.add_sum_erase s g hk]
  omega

/-- As a sum of what the processes add. -/
private theorem census_eq_sum : census place f = ∑ i, (place (f i)).toNat := by
  rw [census, Finset.card_filter]
  refine Finset.sum_congr rfl fun i _ => ?_
  cases place (f i) with
  | false => rfl
  | true => rfl

/-- **One process moves.** -/
theorem census_update [DecidableEq ι] (place : S → Bool) (f : ι → S) (i : ι) (a : S) :
    census place (Function.update f i a) + (place (f i)).toNat =
      census place f + (place a).toNat := by
  have hadds : (fun j => (place (Function.update f i a j)).toNat) =
      Function.update (fun j => (place (f j)).toNat) i (place a).toNat := by
    funext j
    rcases eq_or_ne j i with rfl | hne
    · rw [Function.update_self, Function.update_self]
    · rw [Function.update_of_ne hne, Function.update_of_ne hne]
  rw [census_eq_sum, census_eq_sum, hadds]
  exact sum_update_add (Finset.mem_univ i) _ _

/-- A move between places that count the same. -/
theorem census_update_of_eq [DecidableEq ι] (place : S → Bool) {i : ι} {a : S}
    (h : place a = place (f i)) :
    census place (Function.update f i a) = census place f := by
  have hmove := census_update place f i a
  rw [h] at hmove
  omega

theorem census_eq_zero (h : ∀ i, place (f i) = false) : census place f = 0 := by
  rw [census_eq_sum]
  exact Finset.sum_eq_zero fun i _ => by rw [h i]; rfl

end Foundation
