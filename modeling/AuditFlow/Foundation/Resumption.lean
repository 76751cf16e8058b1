import AuditFlow.Foundation.Exc

/-!
# Programs that others may interrupt

A computation of `Exc` runs from its first state to its last. A `Resumption ε σ α` is the same
program taken apart into **operations**: it is done, or it performs one operation on the state, and
what follows depends on the state that the operation found. Between two operations the state may
change under it.

`run` performs all operations without an interruption. The equations `run_perform`, `run_bind`,
`run_inOrder` and `run_mapError` say that a program that is put together from parts runs as the
computations do that are put together in the same way. `Performs R p` bounds by `R` what **each
operation** of `p` does, whatever has happened before it; this is what survives an interruption, and
`Performs.moves` is the uninterrupted case.
-/

namespace Foundation

/-- A program over a state `σ`, operation by operation. -/
inductive Resumption (ε σ α : Type) : Type
  /-- Nothing is left to do. -/
  | done (r : Except ε α)
  /-- An operation has an effect; what follows depends on the state it has found. -/
  | op (effect : σ → σ) (next : σ → Resumption ε σ α)

namespace Resumption

variable {ε σ α β : Type}

/-- Run without an interruption. -/
def run : Resumption ε σ α → Exc ε σ α
  | done r => fun s => (r, s)
  | op effect next => fun s => run (next s) (effect s)

/-- A computation as one operation, and what follows on its value. -/
def perform (x : Exc ε σ β) (next : β → Resumption ε σ α) : Resumption ε σ α :=
  op (fun s => (x s).2) fun s =>
    match (x s).1 with
    | .ok b => next b
    | .error e => done (.error e)

/-- One program after the other. -/
protected def bind : Resumption ε σ α → (α → Resumption ε σ β) → Resumption ε σ β
  | done (.ok a), f => f a
  | done (.error e), _ => done (.error e)
  | op effect next, f => op effect fun s => (next s).bind f

/-- Rewrite what a program raises. -/
def mapError (f : ε → ε) : Resumption ε σ α → Resumption ε σ α
  | done (.ok a) => done (.ok a)
  | done (.error e) => done (.error (f e))
  | op effect next => op effect fun s => (next s).mapError f

/-- Operations in order, up to the first raise. -/
def inOrder : List (Exc ε σ Unit) → Resumption ε σ Unit
  | [] => done (.ok ())
  | x :: xs => perform x fun _ => inOrder xs

/-! ### Uninterrupted runs -/

@[simp] theorem run_done (r : Except ε α) (s : σ) : (done r).run s = (r, s) := rfl

theorem run_perform (x : Exc ε σ β) (next : β → Resumption ε σ α) :
    (perform x next).run = x >>= fun b => (next b).run := by
  funext s
  rw [Exc.bind_apply, perform, run]
  dsimp only
  rcases hx : x s with ⟨e | b, s'⟩
  · rfl
  · rfl

theorem run_bind (p : Resumption ε σ α) (f : α → Resumption ε σ β) :
    (p.bind f).run = p.run >>= fun a => (f a).run := by
  funext s
  induction p generalizing s with
  | done r =>
    cases r with
    | ok a => rfl
    | error e => rfl
  | op effect next ih => exact ih s (effect s)

theorem run_mapError (f : ε → ε) (p : Resumption ε σ α) :
    (p.mapError f).run = Exc.handle p.run fun e => Exc.raise (f e) := by
  funext s
  induction p generalizing s with
  | done r =>
    cases r with
    | ok a => rfl
    | error e => rfl
  | op effect next ih => exact ih s (effect s)

theorem run_inOrder (xs : List (Exc ε σ Unit)) : (inOrder xs).run = Exc.inOrder xs := by
  induction xs with
  | nil => rfl
  | cons x xs ih => rw [inOrder, run_perform, ih, Exc.inOrder]

/-! ### What the operations do -/

/-- Every operation that the program may come to moves the state along `R`. -/
def Performs (R : σ → σ → Prop) : Resumption ε σ α → Prop
  | done _ => True
  | op effect next => (∀ s, R s (effect s)) ∧ ∀ s, (next s).Performs R

variable {R : σ → σ → Prop} {p : Resumption ε σ α}

theorem performs_done (r : Except ε α) : (done r : Resumption ε σ α).Performs R := trivial

/-- A weaker bound. -/
theorem Performs.mono {R' : σ → σ → Prop} (hp : p.Performs R)
    (h : ∀ s s', R s s' → R' s s') : p.Performs R' := by
  induction p with
  | done r => exact performs_done r
  | op effect next ih => exact ⟨fun s => h s _ (hp.1 s), fun s => ih s (hp.2 s)⟩

theorem performs_perform {x : Exc ε σ β} {next : β → Resumption ε σ α} (hx : Exc.Moves R x)
    (hnext : ∀ b s s', x s = (.ok b, s') → (next b).Performs R) : (perform x next).Performs R := by
  refine ⟨hx, fun s => ?_⟩
  dsimp only
  rcases hxs : x s with ⟨e | b, s'⟩
  · exact performs_done _
  · exact hnext b s s' hxs

theorem Performs.bind {f : α → Resumption ε σ β} (hp : p.Performs R)
    (hf : ∀ a, (f a).Performs R) : (p.bind f).Performs R := by
  induction p with
  | done r =>
    cases r with
    | ok a => exact hf a
    | error e => exact performs_done _
  | op effect next ih => exact ⟨hp.1, fun s => ih s (hp.2 s)⟩

theorem Performs.mapError (f : ε → ε) (hp : p.Performs R) : (p.mapError f).Performs R := by
  induction p with
  | done r =>
    cases r with
    | ok a => exact performs_done _
    | error e => exact performs_done _
  | op effect next ih => exact ⟨hp.1, fun s => ih s (hp.2 s)⟩

theorem performs_inOrder {xs : List (Exc ε σ Unit)} (h : ∀ x ∈ xs, Exc.Moves R x) :
    (inOrder xs).Performs R := by
  induction xs with
  | nil => exact performs_done _
  | cons x xs ih =>
    refine performs_perform (h x List.mem_cons_self) fun _ _ _ _ => ?_
    exact ih fun y hy => h y (List.mem_cons_of_mem x hy)

/-- **Without an interruption**, a program moves the state as its operations do. -/
theorem Performs.moves [IsPreorder σ R] (hp : p.Performs R) : Exc.Moves R p.run := by
  intro s
  induction p generalizing s with
  | done r => exact Std.Refl.refl s
  | op effect next ih => exact IsTrans.trans _ _ _ (hp.1 s) (ih s (hp.2 s) (effect s))

end Resumption

end Foundation
