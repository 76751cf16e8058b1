import Mathlib.Tactic.Common

/-!
# Bounded retry loops

The loop `for attempt in range(n): …` whose body either returns a value, fails in a way that the
loop swallows (remembering the failure), or fails in a way that escapes. `retryLoop f n k last`
runs attempts `k, …, k + n - 1` of `f`.

Its three outcomes are characterized by the sequence of attempts alone: it returns the **first**
value, provided only swallowed failures come before it (`retryLoop_eq_done_iff`); it escapes with
the first escaping failure under the same proviso (`retryLoop_eq_abort_iff`); otherwise every
attempt was swallowed (`retryLoop_exhausted_iff`).
-/

namespace Foundation

/-- What one attempt does: return, fail and be retried, or fail and escape the loop. -/
inductive Attempt (ε α : Type)
  | done (a : α)
  | retry (e : ε)
  | abort (e : ε)

/-- How the loop ends: with a value, with an escaping failure, or with all attempts used up and
the last swallowed failure (none if there was no attempt). -/
inductive Retried (ε α : Type)
  | done (a : α)
  | abort (e : ε)
  | exhausted (last : Option ε)

variable {ε α : Type}

/-- An attempt whose failure the loop swallows. -/
def Attempt.Swallowed : Attempt ε α → Prop
  | .retry _ => True
  | _ => False

/-- `n` attempts starting at number `k`; `last` is the failure swallowed most recently. -/
def retryLoop (f : ℕ → Attempt ε α) : (n k : ℕ) → (last : Option ε) → Retried ε α
  | 0, _, last => .exhausted last
  | n + 1, k, _ =>
    match f k with
    | .done a => .done a
    | .abort e => .abort e
    | .retry e => retryLoop f n (k + 1) (some e)

variable {f : ℕ → Attempt ε α}

/-- Shifting a bounded search for the first non-swallowed attempt by one. -/
private theorem exists_first_succ_iff {n k : ℕ} {P : ℕ → Prop} (hk : (f k).Swallowed)
    (hP : ¬P k) :
    (∃ j < n + 1, P (k + j) ∧ ∀ i < j, (f (k + i)).Swallowed) ↔
      ∃ j < n, P (k + 1 + j) ∧ ∀ i < j, (f (k + 1 + i)).Swallowed := by
  constructor
  · rintro ⟨j, hj, hPj, hsw⟩
    cases j with
    | zero => exact absurd hPj hP
    | succ j =>
      refine ⟨j, by omega, by rwa [show k + 1 + j = k + (j + 1) by omega], fun i hi => ?_⟩
      rw [show k + 1 + i = k + (i + 1) by omega]
      exact hsw (i + 1) (by omega)
  · rintro ⟨j, hj, hPj, hsw⟩
    refine ⟨j + 1, by omega, by rwa [show k + (j + 1) = k + 1 + j by omega], fun i hi => ?_⟩
    cases i with
    | zero => exact hk
    | succ i =>
      rw [show k + (i + 1) = k + 1 + i by omega]
      exact hsw i (by omega)

/-- A search that stops at its first candidate. -/
private theorem exists_first_head_iff {n k : ℕ} {P : ℕ → Prop} (hk : ¬(f k).Swallowed) :
    (∃ j < n + 1, P (k + j) ∧ ∀ i < j, (f (k + i)).Swallowed) ↔ P k := by
  constructor
  · rintro ⟨j, -, hPj, hsw⟩
    cases j with
    | zero => exact hPj
    | succ j => exact absurd (hsw 0 (by omega)) hk
  · exact fun hP => ⟨0, by omega, hP, fun i hi => absurd hi (by omega)⟩

/-- **The loop returns `a`** exactly when some attempt does and all before it were swallowed. -/
theorem retryLoop_eq_done_iff {n k : ℕ} {last : Option ε} {a : α} :
    retryLoop f n k last = .done a ↔
      ∃ j < n, f (k + j) = .done a ∧ ∀ i < j, (f (k + i)).Swallowed := by
  induction n generalizing k last with
  | zero => simp [retryLoop]
  | succ n ih =>
    cases hk : f k with
    | done b =>
      rw [exists_first_head_iff (P := fun m => f m = .done a) (by simp [hk, Attempt.Swallowed])]
      simp [retryLoop, hk]
    | abort e =>
      rw [exists_first_head_iff (P := fun m => f m = .done a) (by simp [hk, Attempt.Swallowed])]
      simp [retryLoop, hk]
    | retry e =>
      rw [exists_first_succ_iff (P := fun m => f m = .done a) (by simp [hk, Attempt.Swallowed])
        (by simp [hk]), ← @ih _ (some e)]
      simp [retryLoop, hk]

/-- **The loop escapes with `e`** exactly when some attempt does and all before it were
swallowed. -/
theorem retryLoop_eq_abort_iff {n k : ℕ} {last : Option ε} {e : ε} :
    retryLoop f n k last = .abort e ↔
      ∃ j < n, f (k + j) = .abort e ∧ ∀ i < j, (f (k + i)).Swallowed := by
  induction n generalizing k last with
  | zero => simp [retryLoop]
  | succ n ih =>
    cases hk : f k with
    | done b =>
      rw [exists_first_head_iff (P := fun m => f m = .abort e) (by simp [hk, Attempt.Swallowed])]
      simp [retryLoop, hk]
    | abort e' =>
      rw [exists_first_head_iff (P := fun m => f m = .abort e) (by simp [hk, Attempt.Swallowed])]
      simp [retryLoop, hk]
    | retry e' =>
      rw [exists_first_succ_iff (P := fun m => f m = .abort e) (by simp [hk, Attempt.Swallowed])
        (by simp [hk]), ← @ih _ (some e')]
      simp [retryLoop, hk]

/-- **The loop runs out** exactly when every attempt was swallowed. -/
theorem retryLoop_exhausted_iff {n k : ℕ} {last : Option ε} :
    (∃ l, retryLoop f n k last = .exhausted l) ↔ ∀ i < n, (f (k + i)).Swallowed := by
  induction n generalizing k last with
  | zero => simp [retryLoop]
  | succ n ih =>
    have hhead : (∀ i < n + 1, (f (k + i)).Swallowed) ↔
        (f k).Swallowed ∧ ∀ i < n, (f (k + 1 + i)).Swallowed := by
      constructor
      · refine fun h => ⟨h 0 (by omega), fun i hi => ?_⟩
        rw [show k + 1 + i = k + (i + 1) by omega]
        exact h (i + 1) (by omega)
      · rintro ⟨h0, hs⟩ i hi
        cases i with
        | zero => exact h0
        | succ i =>
          rw [show k + (i + 1) = k + 1 + i by omega]
          exact hs i (by omega)
    rw [hhead]
    cases hk : f k with
    | done b => simp [retryLoop, hk, Attempt.Swallowed]
    | abort e => simp [retryLoop, hk, Attempt.Swallowed]
    | retry e =>
      rw [← @ih _ (some e)]
      simp [retryLoop, hk, Attempt.Swallowed]

end Foundation
