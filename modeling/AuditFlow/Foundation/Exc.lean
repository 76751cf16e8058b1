import Mathlib.Data.List.Forall2
import Mathlib.Order.Defs.Unbundled
import Mathlib.Tactic.Common

/-!
# Stateful computations that may raise

`Exc ε σ α` is a computation over a mutable state `σ` that either returns an `α` or raises an
`ε`. Unlike `StateT σ (Except ε)`, the state reached so far **survives** an exception: a mutation
made before the raise stays visible to the handler and to the caller, as it does in a language
with mutable objects and `try`/`except`.

The equations `bind_of_ok`, `bind_of_error` run a program forwards from known parts; the
characterizations `bind_eq_ok_iff`, `bind_eq_error_iff` take a finished run apart. `Moves R`
bounds what a program can do to the state, on both kinds of exit, by a preorder `R`.
-/

namespace Foundation

/-- A computation over a mutable state that may raise; the state is kept on a raise. -/
def Exc (ε σ α : Type) : Type := σ → Except ε α × σ

namespace Exc

variable {ε σ α β : Type}

/-- Return a value without touching the state. -/
protected def pure (a : α) : Exc ε σ α := fun s => (.ok a, s)

/-- Run `x`, then `f` on its value; a raise in `x` skips `f`. -/
protected def bind (x : Exc ε σ α) (f : α → Exc ε σ β) : Exc ε σ β := fun s =>
  match x s with
  | (.ok a, s') => f a s'
  | (.error e, s') => (.error e, s')

instance : Monad (Exc ε σ) where
  pure := Exc.pure
  bind := Exc.bind

/-- Raise `e`. -/
def raise (e : ε) : Exc ε σ α := fun s => (.error e, s)

/-- Read the state. -/
def get : Exc ε σ σ := fun s => (.ok s, s)

/-- Mutate the state. -/
def modify (f : σ → σ) : Exc ε σ Unit := fun s => (.ok (), f s)

/-- Read a part of the state. -/
def reads (f : σ → α) : Exc ε σ α := fun s => (.ok (f s), s)

/-- Mutate the state, unless that is refused. -/
def modifyExcept (f : σ → Except ε σ) : Exc ε σ Unit := fun s =>
  match f s with
  | .ok s' => (.ok (), s')
  | .error e => (.error e, s)

/-- Lift an outcome that does not depend on the state. -/
def ofExcept (r : Except ε α) : Exc ε σ α := fun s => (r, s)

/-- `try x except e: h e`: the handler runs in the state that `x` left behind. -/
def handle (x : Exc ε σ α) (h : ε → Exc ε σ α) : Exc ε σ α := fun s =>
  match x s with
  | (.ok a, s') => (.ok a, s')
  | (.error e, s') => h e s'

@[simp] theorem pure_apply (a : α) (s : σ) : (pure a : Exc ε σ α) s = (.ok a, s) := rfl

@[simp] theorem raise_apply (e : ε) (s : σ) : (raise e : Exc ε σ α) s = (.error e, s) := rfl

@[simp] theorem get_apply (s : σ) : (get : Exc ε σ σ) s = (.ok s, s) := rfl

@[simp] theorem modify_apply (f : σ → σ) (s : σ) :
    (modify f : Exc ε σ Unit) s = (.ok (), f s) := rfl

@[simp] theorem reads_apply (f : σ → α) (s : σ) : (reads f : Exc ε σ α) s = (.ok (f s), s) := rfl

theorem modifyExcept_of_ok {f : σ → Except ε σ} {s s' : σ} (h : f s = .ok s') :
    modifyExcept f s = (.ok (), s') := by
  rw [modifyExcept, h]

theorem modifyExcept_of_error {f : σ → Except ε σ} {s : σ} {e : ε} (h : f s = .error e) :
    modifyExcept f s = (.error e, s) := by
  rw [modifyExcept, h]

@[simp] theorem ofExcept_apply (r : Except ε α) (s : σ) :
    (ofExcept r : Exc ε σ α) s = (r, s) := rfl

theorem bind_apply (x : Exc ε σ α) (f : α → Exc ε σ β) (s : σ) :
    (x >>= f) s = match x s with
      | (.ok a, s') => f a s'
      | (.error e, s') => (.error e, s') := rfl

/-- A run from its outcome alone. -/
theorem eq_of_fst {x : Exc ε σ α} {s : σ} {r : Except ε α} (h : (x s).1 = r) :
    x s = (r, (x s).2) := Prod.ext h rfl

/-! ### Running forwards -/

theorem bind_of_ok {x : Exc ε σ α} {f : α → Exc ε σ β} {s s' : σ} {a : α}
    (h : x s = (.ok a, s')) : (x >>= f) s = f a s' := by
  rw [bind_apply, h]

theorem bind_of_error {x : Exc ε σ α} {f : α → Exc ε σ β} {s s' : σ} {e : ε}
    (h : x s = (.error e, s')) : (x >>= f) s = (.error e, s') := by
  rw [bind_apply, h]

theorem handle_of_ok {x : Exc ε σ α} {h : ε → Exc ε σ α} {s s' : σ} {a : α}
    (hx : x s = (.ok a, s')) : handle x h s = (.ok a, s') := by
  rw [handle, hx]

theorem handle_of_error {x : Exc ε σ α} {h : ε → Exc ε σ α} {s s' : σ} {e : ε}
    (hx : x s = (.error e, s')) : handle x h s = h e s' := by
  rw [handle, hx]

/-! ### Taking a run apart -/

theorem pure_eq_ok_iff {s s' : σ} {a b : α} :
    (pure a : Exc ε σ α) s = (.ok b, s') ↔ a = b ∧ s = s' := by
  rw [pure_apply, Prod.mk.injEq, Except.ok.injEq]

/-- A sequence returned exactly when both of its parts did. -/
theorem bind_eq_ok_iff {x : Exc ε σ α} {f : α → Exc ε σ β} {s s'' : σ} {b : β} :
    (x >>= f) s = (.ok b, s'') ↔ ∃ a s', x s = (.ok a, s') ∧ f a s' = (.ok b, s'') := by
  rw [bind_apply]
  rcases hx : x s with ⟨_ | a, s'⟩
  · simp
  · simp

/-- A sequence raised exactly when its first part did, or its second part did after the first
returned. -/
theorem bind_eq_error_iff {x : Exc ε σ α} {f : α → Exc ε σ β} {s s'' : σ} {e : ε} :
    (x >>= f) s = (.error e, s'') ↔
      x s = (.error e, s'') ∨ ∃ a s', x s = (.ok a, s') ∧ f a s' = (.error e, s'') := by
  rw [bind_apply]
  rcases hx : x s with ⟨_ | a, s'⟩
  · simp
  · simp

/-- A handled computation returned exactly when the body did, or the handler did after the body
raised. -/
theorem handle_eq_ok_iff {x : Exc ε σ α} {h : ε → Exc ε σ α} {s s'' : σ} {a : α} :
    handle x h s = (.ok a, s'') ↔
      x s = (.ok a, s'') ∨ ∃ e s', x s = (.error e, s') ∧ h e s' = (.ok a, s'') := by
  rw [handle]
  rcases hx : x s with ⟨_ | a', s'⟩
  · simp
  · simp

/-! ### What a computation raises -/

/-- Run from `s`, the computation raises `e`. -/
def Raises (x : Exc ε σ α) (s : σ) (e : ε) : Prop := ∃ s', x s = (.error e, s')

theorem not_raises_pure {a : α} {s : σ} {e : ε} : ¬Raises (pure a : Exc ε σ α) s e := by
  rintro ⟨s', h⟩
  cases (Prod.mk.inj h).1

theorem Raises.of_bind_left {x : Exc ε σ α} {f : α → Exc ε σ β} {s : σ} {e : ε}
    (h : Raises x s e) : Raises (x >>= f) s e := by
  obtain ⟨s', hx⟩ := h
  exact ⟨s', bind_of_error hx⟩

/-- After a first part that returned, a sequence raises what its second part raises. -/
theorem raises_bind_of_ok {x : Exc ε σ α} {f : α → Exc ε σ β} {s s' : σ} {a : α} {e : ε}
    (h : x s = (.ok a, s')) : Raises (x >>= f) s e ↔ Raises (f a) s' e := by
  simp only [Raises, bind_of_ok h]

/-- A sequence raises what its first part raises, and what its second part raises after the first
returned. -/
theorem raises_bind_iff {x : Exc ε σ α} {f : α → Exc ε σ β} {s : σ} {e : ε} :
    Raises (x >>= f) s e ↔ Raises x s e ∨ ∃ a s', x s = (.ok a, s') ∧ Raises (f a) s' e := by
  simp only [Raises, bind_eq_error_iff]
  constructor
  · rintro ⟨s'', hx | ⟨a, s', hx, hf⟩⟩
    · exact Or.inl ⟨s'', hx⟩
    · exact Or.inr ⟨a, s', hx, s'', hf⟩
  · rintro (⟨s'', hx⟩ | ⟨a, s', hx, s'', hf⟩)
    · exact ⟨s'', Or.inl hx⟩
    · exact ⟨s'', Or.inr ⟨a, s', hx, hf⟩⟩

/-- A sequence whose second part does not raise `e` raises `e` where its first part does. -/
theorem raises_bind_left_iff {x : Exc ε σ α} {f : α → Exc ε σ β} {s : σ} {e : ε}
    (hf : ∀ a s', ¬Raises (f a) s' e) : Raises (x >>= f) s e ↔ Raises x s e := by
  rw [raises_bind_iff]
  refine or_iff_left ?_
  rintro ⟨a, s', -, hraises⟩
  exact hf a s' hraises

/-- A handler that only raises decides what a handled computation raises. -/
theorem raises_handle_raise_iff {x : Exc ε σ α} {f : ε → ε} {s : σ} {e : ε} :
    Raises (handle x fun e => raise (f e)) s e ↔ ∃ e', Raises x s e' ∧ f e' = e := by
  simp only [Raises, handle]
  rcases hx : x s with ⟨e' | a, s'⟩
  · simp
  · simp

/-! ### Sequences of atomic steps -/

/-- Run steps in order, up to the first raise. -/
def inOrder : List (Exc ε σ Unit) → Exc ε σ Unit
  | [] => pure ()
  | x :: xs => x >>= fun _ => inOrder xs

/-- An atomic step: it has the effect `f`, or it raises and leaves the state alone. -/
def Atomic (x : Exc ε σ Unit) (f : σ → σ) : Prop :=
  ∀ s, x s = (.ok (), f s) ∨ ∃ e, x s = (.error e, s)

/-- The state after the first `k` effects. -/
def stage (fs : List (σ → σ)) (s : σ) (k : ℕ) : σ := (fs.take k).foldl (fun s f => f s) s

@[simp] theorem stage_zero (fs : List (σ → σ)) (s : σ) : stage fs s 0 = s := rfl

@[simp] theorem stage_cons_succ (f : σ → σ) (fs : List (σ → σ)) (s : σ) (k : ℕ) :
    stage (f :: fs) s (k + 1) = stage fs (f s) k := rfl

/-- **Frame rule.** What each effect keeps, all stages keep. -/
theorem stage_rel {R : σ → σ → Prop} (hrefl : ∀ s, R s s)
    (htrans : ∀ {s t u}, R s t → R t u → R s u) {fs : List (σ → σ)} (h : ∀ f ∈ fs, ∀ s, R s (f s))
    (s : σ) (k : ℕ) : R s (stage fs s k) := by
  induction fs generalizing s k with
  | nil =>
    rw [stage, List.take_nil]
    exact hrefl s
  | cons f fs ih =>
    cases k with
    | zero => exact hrefl s
    | succ k =>
      rw [stage_cons_succ]
      have hfirst : R s (f s) := h f List.mem_cons_self s
      exact htrans hfirst (ih (fun g hg => h g (List.mem_cons_of_mem f hg)) (f s) k)

/-- **Prefix rule.** A sequence of atomic steps has all of their effects, or some step raises after
exactly the effects of the steps before it. -/
theorem inOrder_cases {xs : List (Exc ε σ Unit)} {fs : List (σ → σ)}
    (h : List.Forall₂ Atomic xs fs) (s : σ) :
    (inOrder xs s = (.ok (), stage fs s fs.length) ∧
        ∀ (k : ℕ) (x : Exc ε σ Unit), xs[k]? = some x → (x (stage fs s k)).1 = .ok ()) ∨
      ∃ (k : ℕ) (x : Exc ε σ Unit) (e : ε), xs[k]? = some x ∧
        x (stage fs s k) = (.error e, stage fs s k) ∧
        (∀ j < k, ∀ y : Exc ε σ Unit, xs[j]? = some y → (y (stage fs s j)).1 = .ok ()) ∧
        inOrder xs s = (.error e, stage fs s k) := by
  induction h generalizing s with
  | nil => exact Or.inl ⟨rfl, fun _ _ h => nomatch h⟩
  | @cons x f xs fs hx _ ih =>
    rcases hx s with hok | ⟨e, herror⟩
    · rcases ih (f s) with ⟨hall, hsteps⟩ | ⟨k, y, e, hy, hraise, hbefore, hrun⟩
      · refine Or.inl ⟨(bind_of_ok hok).trans hall, fun k y hk => ?_⟩
        cases k with
        | zero =>
          obtain rfl := Option.some.inj hk
          rw [stage_zero, hok]
        | succ k => exact hsteps k y hk
      · refine Or.inr ⟨k + 1, y, e, hy, hraise, fun j hj z hz => ?_, (bind_of_ok hok).trans hrun⟩
        cases j with
        | zero =>
          obtain rfl := Option.some.inj hz
          rw [stage_zero, hok]
        | succ j => exact hbefore j (Nat.lt_of_succ_lt_succ hj) z hz
    · exact Or.inr ⟨0, x, e, rfl, herror, fun _ hj => absurd hj (Nat.not_lt_zero _),
        bind_of_error herror⟩

/-- The states after each step, up to and including the first raise. -/
def visits : List (Exc ε σ Unit) → σ → List σ
  | [], _ => []
  | x :: xs, s =>
    match x s with
    | (.ok _, s') => s' :: visits xs s'
    | (.error _, s') => [s']

/-- Every run of `x`, whether it returns or raises, moves the state along `R`. -/
def Moves (R : σ → σ → Prop) (x : Exc ε σ α) : Prop := ∀ s, R s (x s).2

theorem Moves.run {R : σ → σ → Prop} {x : Exc ε σ α} (hx : Moves R x) {s s' : σ} {r : Except ε α}
    (h : x s = (r, s')) : R s s' := by
  have hs := hx s
  rwa [h] at hs

section

variable {R : σ → σ → Prop} [IsPreorder σ R]

theorem moves_pure (a : α) : Moves R (pure a : Exc ε σ α) := fun s => Std.Refl.refl s

/-- An atomic step moves the state as its effect does. -/
theorem Atomic.moves {x : Exc ε σ Unit} {f : σ → σ} (hx : Atomic x f) (hf : ∀ s, R s (f s)) :
    Moves R x := by
  intro s
  rcases hx s with hok | ⟨e, herror⟩
  · rw [hok]
    exact hf s
  · rw [herror]
    exact Std.Refl.refl s

theorem moves_raise (e : ε) : Moves R (raise e : Exc ε σ α) := fun s => Std.Refl.refl s

/-- The second part of a sequence only has to be good where the first one has returned. -/
theorem rel_bind {x : Exc ε σ α} {f : α → Exc ε σ β} {s : σ} (hx : R s (x s).2)
    (hf : ∀ a s', x s = (.ok a, s') → R s' (f a s').2) : R s ((x >>= f) s).2 := by
  rw [bind_apply]
  rcases hxs : x s with ⟨e | a, s'⟩
  · rwa [hxs] at hx
  · rw [hxs] at hx
    exact IsTrans.trans _ _ _ hx (hf a s' hxs)

/-- In a sequence, the second part only has to be good for values that the first can return. -/
theorem Moves.bind_of_ok {x : Exc ε σ α} {f : α → Exc ε σ β} (hx : Moves R x)
    (hf : ∀ a s s', x s = (.ok a, s') → Moves R (f a)) : Moves R (x >>= f) :=
  fun s => rel_bind (hx s) fun a s' hxs => hf a s s' hxs s'

theorem Moves.bind {x : Exc ε σ α} {f : α → Exc ε σ β} (hx : Moves R x)
    (hf : ∀ a, Moves R (f a)) : Moves R (x >>= f) :=
  hx.bind_of_ok fun a _ _ _ => hf a

theorem Moves.handle {x : Exc ε σ α} {h : ε → Exc ε σ α} (hx : Moves R x)
    (hh : ∀ e, Moves R (h e)) : Moves R (handle x h) := by
  intro s
  have hs := hx s
  rw [Exc.handle]
  rcases hxs : x s with ⟨e | a, s'⟩
  · rw [hxs] at hs
    exact IsTrans.trans _ _ _ hs (hh e s')
  · rwa [hxs] at hs

end

end Exc

/-! ### Mapping a fallible function -/

/-- A fallible function succeeds on a list exactly when it succeeds on every element. -/
theorem mapM_eq_ok_iff {ε α β : Type} {f : α → Except ε β} {l : List α} {l' : List β} :
    l.mapM f = .ok l' ↔ List.Forall₂ (fun a b => f a = .ok b) l l' := by
  induction l generalizing l' with
  | nil =>
    rw [List.mapM_nil, List.forall₂_nil_left_iff]
    exact ⟨fun h => (Except.ok.inj h).symm, fun h => h ▸ rfl⟩
  | cons a l ih =>
    rw [List.mapM_cons, List.forall₂_cons_left_iff]
    rcases ha : f a with e | b
    · simp [bind, Except.bind]
    · rcases hl : l.mapM f with e | bs
      · simp [bind, Except.bind, ← ih, hl]
      · simp [bind, Except.bind, ← ih, hl, pure, Except.pure, eq_comm]

/-- A successful map keeps positions. -/
theorem getElem?_of_mapM_eq_ok {ε α β : Type} {f : α → Except ε β} {l : List α} {l' : List β}
    (h : l.mapM f = .ok l') :
    l'.length = l.length ∧
      ∀ (i : ℕ) (a : α) (b : β), l[i]? = some a → l'[i]? = some b → f a = .ok b := by
  have hforall := mapM_eq_ok_iff.mp h
  refine ⟨hforall.length_eq.symm, fun i a b ha hb => ?_⟩
  obtain ⟨hi, rfl⟩ := List.getElem?_eq_some_iff.mp ha
  obtain ⟨hi', rfl⟩ := List.getElem?_eq_some_iff.mp hb
  exact hforall.get hi hi'

end Foundation
