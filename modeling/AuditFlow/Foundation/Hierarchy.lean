import Mathlib.Logic.Relation
import Mathlib.Tactic.Common

/-!
# Roles that inherit from roles

A hierarchy is a list of links: by `(a, b)` the role `a` inherits from the role `b`, and `Inherits`
is what follows by any number of links. **One link more** adds the paths that take it once
(`inherits_cons_iff`), and so the relation is decided by recursion on the links. `Inherits.rank_le`
bounds a hierarchy by ranks.
-/

namespace Foundation

variable {R : Type} {links : List (R × R)} {a b c d : R}

/-- The role inherits from the other one, or is the same. -/
def Inherits (links : List (R × R)) : R → R → Prop :=
  Relation.ReflTransGen fun a b => (a, b) ∈ links

theorem inherits_nil_iff : Inherits ([] : List (R × R)) a b ↔ a = b := by
  constructor
  · intro h
    rcases h.cases_head with heq | ⟨c, hlink, -⟩
    · exact heq
    · cases hlink
  · rintro rfl
    exact Relation.ReflTransGen.refl

/-- More links take nothing away. -/
private theorem Inherits.cons (h : Inherits links a b) : Inherits ((c, d) :: links) a b :=
  Relation.ReflTransGen.mono (fun _ _ hlink => List.mem_cons_of_mem _ hlink) a b h

/-- **A further link** is taken once, if at all: a path that takes it again has been at its end
before. -/
theorem inherits_cons_iff : Inherits ((c, d) :: links) a b ↔
    Inherits links a b ∨ Inherits links a c ∧ Inherits links d b := by
  constructor
  · intro h
    induction h using Relation.ReflTransGen.head_induction_on with
    | refl => exact Or.inl Relation.ReflTransGen.refl
    | head hlink _ ih =>
      rcases List.mem_cons.mp hlink with heq | hold
      · obtain ⟨rfl, rfl⟩ := Prod.mk.inj heq
        rcases ih with hrest | ⟨-, hrest⟩
        · exact Or.inr ⟨Relation.ReflTransGen.refl, hrest⟩
        · exact Or.inr ⟨Relation.ReflTransGen.refl, hrest⟩
      · rcases ih with hrest | ⟨hfirst, hrest⟩
        · exact Or.inl (hrest.head hold)
        · exact Or.inr ⟨hfirst.head hold, hrest⟩
  · rintro (h | ⟨hfirst, hrest⟩)
    · exact h.cons
    · exact hfirst.cons.trans (hrest.cons.head List.mem_cons_self)

instance Inherits.decidable [DecidableEq R] :
    (links : List (R × R)) → (a b : R) → Decidable (Inherits links a b)
  | [], _, _ => decidable_of_iff _ inherits_nil_iff.symm
  | (c, d) :: links, a, b =>
    have := Inherits.decidable links a b
    have := Inherits.decidable links a c
    have := Inherits.decidable links d b
    decidable_of_iff _ inherits_cons_iff.symm

/-- **Inheriting goes down**: if each link goes from a rank to a lower one, a role inherits from
lower ranks only. -/
theorem Inherits.rank_le {rank : R → Option ℕ} (h : Inherits links a b)
    (hlinks : ∀ l ∈ links, ∃ i j, rank l.1 = some i ∧ rank l.2 = some j ∧ j ≤ i) :
    a = b ∨ ∃ i j, rank a = some i ∧ rank b = some j ∧ j ≤ i := by
  induction h using Relation.ReflTransGen.head_induction_on with
  | refl => exact Or.inl rfl
  | head hlink _ ih =>
    obtain ⟨i, j, hi, hj, hle⟩ := hlinks _ hlink
    rcases ih with rfl | ⟨j', k, hj', hk, hle'⟩
    · exact Or.inr ⟨i, j, hi, hj, hle⟩
    · obtain rfl : j = j' := Option.some.inj (hj.symm.trans hj')
      exact Or.inr ⟨i, k, hi, hk, Nat.le_trans hle' hle⟩

end Foundation
