import Mathlib.Logic.Function.Basic
import Mathlib.Tactic.Common

/-!
# Programs over a key store

A store maps keys to values. A client is a `Program` of commands: each command goes to **one key**,
is atomic, and its answer decides how the program goes on. A command may fail to reach the store, or
take effect with its answer lost (`Delivery`); the program sees an error in both cases.

Clients run interleaved, step by step (`Pool`). `Program.Within K` says that whatever the answers
are, a program sends its commands to keys of `K` only. Clients that stay on disjoint keys cannot
tell whether the others are there: **`Pool.agree_run`** compares two interleaved runs in which one
group of clients takes the same steps, with arbitrary other clients around it.
-/

namespace Foundation

/-- What becomes of a command. -/
inductive Delivery (ε : Type)
  | answered
  /-- The store is not reached. -/
  | refused (e : ε)
  /-- The command takes effect, but its answer is lost. -/
  | lost (e : ε)
  deriving DecidableEq

/-- A program of commands, by name; the effect of a command on its key depends on the moment. -/
inductive Program (ν κ V ε α : Type) : Type 1
  | done (a : α)
  | command {β : Type} (name : ν) (key : κ) (effect : ℕ → Option V → Except ε β × Option V)
      (next : Except ε β → Program ν κ V ε α)

/-- The answer to a command, and what it leaves under its key. -/
def Delivery.apply {V ε β : Type} (effect : ℕ → Option V → Except ε β × Option V) (now : ℕ) :
    Delivery ε → Option V → Except ε β × Option V
  | .answered, v => effect now v
  | .refused e, v => (.error e, v)
  | .lost e, v => (.error e, (effect now v).2)

namespace Program

variable {ν κ V ε α β : Type}

/-- Go on with another program. -/
def bind (p : Program ν κ V ε α) (f : α → Program ν κ V ε β) : Program ν κ V ε β :=
  match p with
  | done a => f a
  | command name key effect next => command name key effect fun r => (next r).bind f

/-- The result of a program that has ended. -/
def result : Program ν κ V ε α → Option α
  | done a => some a
  | command .. => none

/-- All commands go to keys of `K`. -/
def Within (K : κ → Prop) : Program ν κ V ε α → Prop
  | done _ => True
  | command _ key _ next => K key ∧ ∀ r, (next r).Within K

theorem Within.mono {K K' : κ → Prop} (himp : ∀ k, K k → K' k) {p : Program ν κ V ε α}
    (h : p.Within K) : p.Within K' := by
  induction p with
  | done a => trivial
  | command name key effect next ih => exact ⟨himp key h.1, fun r => ih r (h.2 r)⟩

theorem Within.bind {K : κ → Prop} {p : Program ν κ V ε α} {f : α → Program ν κ V ε β}
    (h : p.Within K) (hf : ∀ a, (f a).Within K) : (p.bind f).Within K := by
  induction p with
  | done a => exact hf a
  | command name key effect next ih => exact ⟨h.1, fun r => ih r (h.2 r)⟩

variable [DecidableEq κ]

/-- One command. -/
def step (now : ℕ) (delivery : Delivery ε) (p : Program ν κ V ε α) (s : κ → Option V) :
    Program ν κ V ε α × (κ → Option V) :=
  match p with
  | done a => (done a, s)
  | command _ key effect next =>
    let answer := delivery.apply effect now (s key)
    (next answer.1, Function.update s key answer.2)

/-- The whole program alone, each command at its moment and with its delivery. -/
def run (now : ν → ℕ) (delivery : ν → Delivery ε) (p : Program ν κ V ε α) (s : κ → Option V) :
    α × (κ → Option V) :=
  match p with
  | done a => (a, s)
  | command name key effect next =>
    let answer := (delivery name).apply effect (now name) (s key)
    (next answer.1).run now delivery (Function.update s key answer.2)

section

variable {now : ν → ℕ} {delivery : ν → Delivery ε} {s : κ → Option V}

theorem run_bind (p : Program ν κ V ε α) (f : α → Program ν κ V ε β) :
    (p.bind f).run now delivery s =
      (f (p.run now delivery s).1).run now delivery (p.run now delivery s).2 := by
  induction p generalizing s with
  | done a => rfl
  | command name key effect next ih => exact ih _

end

theorem Within.step {K : κ → Prop} {p : Program ν κ V ε α} (h : p.Within K) (now : ℕ)
    (delivery : Delivery ε) (s : κ → Option V) : (p.step now delivery s).1.Within K := by
  cases p with
  | done a => trivial
  | command name key effect next => exact h.2 _

/-- Keys that a program does not use keep their values, step by step. -/
theorem Within.step_of_not {K : κ → Prop} {p : Program ν κ V ε α} (h : p.Within K) {k : κ}
    (hk : ¬K k) (now : ℕ) (delivery : Delivery ε) (s : κ → Option V) :
    (p.step now delivery s).2 k = s k := by
  cases p with
  | done a => rfl
  | command name key effect next =>
    have hne : k ≠ key := by
      rintro rfl
      exact hk h.1
    exact Function.update_of_ne hne _ _

/-- **A program sees its own keys only.** -/
theorem Within.step_congr {K : κ → Prop} {p : Program ν κ V ε α} (h : p.Within K)
    {s s' : κ → Option V} (hs : ∀ k, K k → s k = s' k) (now : ℕ) (delivery : Delivery ε) :
    (p.step now delivery s).1 = (p.step now delivery s').1 ∧
      ∀ k, K k → (p.step now delivery s).2 k = (p.step now delivery s').2 k := by
  cases p with
  | done a => exact ⟨rfl, hs⟩
  | command name key effect next =>
    rw [Program.step, Program.step, hs key h.1]
    refine ⟨rfl, fun k hk => ?_⟩
    dsimp only
    rcases eq_or_ne k key with rfl | hne
    · rw [Function.update_self, Function.update_self]
    · rw [Function.update_of_ne hne, Function.update_of_ne hne]
      exact hs k hk

end Program

/-! ### Interleaved clients -/

/-- Clients and their store. -/
structure Pool (ι ν κ V ε α : Type) : Type 1 where
  program : ι → Program ν κ V ε α
  store : κ → Option V

/-- Which client takes a step, when, and what becomes of its command. -/
structure PoolLabel (ι ε : Type) where
  client : ι
  now : ℕ
  delivery : Delivery ε

namespace Pool

variable {ι ν κ V ε α : Type} [DecidableEq ι] [DecidableEq κ]

/-- One step of one client. -/
def step (p : Pool ι ν κ V ε α) (l : PoolLabel ι ε) : Pool ι ν κ V ε α :=
  let after := (p.program l.client).step l.now l.delivery p.store
  ⟨Function.update p.program l.client after.1, after.2⟩

/-- An interleaved run. -/
def run (p : Pool ι ν κ V ε α) (labels : List (PoolLabel ι ε)) : Pool ι ν κ V ε α :=
  labels.foldl step p

/-- The clients of `U` stay on the keys of `K`, and the others off them. -/
structure Separated (U : ι → Prop) (K : κ → Prop) (p : Pool ι ν κ V ε α) : Prop where
  inside : ∀ i, U i → (p.program i).Within K
  outside : ∀ i, ¬U i → (p.program i).Within fun k => ¬K k

/-- The clients of `U` stand where they stand, and the keys of `K` have the same values. -/
structure Agree (U : ι → Prop) (K : κ → Prop) (p p' : Pool ι ν κ V ε α) : Prop where
  program : ∀ i, U i → p.program i = p'.program i
  store : ∀ k, K k → p.store k = p'.store k

variable {U : ι → Prop} {K : κ → Prop} {p p' : Pool ι ν κ V ε α}

omit [DecidableEq ι] [DecidableEq κ] in
theorem Agree.symm (h : Agree U K p p') : Agree U K p' p :=
  ⟨fun i hi => (h.program i hi).symm, fun k hk => (h.store k hk).symm⟩

omit [DecidableEq ι] [DecidableEq κ] in
theorem Agree.trans {p'' : Pool ι ν κ V ε α} (h : Agree U K p p') (h' : Agree U K p' p'') :
    Agree U K p p'' :=
  ⟨fun i hi => (h.program i hi).trans (h'.program i hi),
    fun k hk => (h.store k hk).trans (h'.store k hk)⟩

theorem step_program_self (p : Pool ι ν κ V ε α) (l : PoolLabel ι ε) :
    (p.step l).program l.client =
      ((p.program l.client).step l.now l.delivery p.store).1 := Function.update_self _ _ _

theorem step_program_of_ne (p : Pool ι ν κ V ε α) {l : PoolLabel ι ε} {i : ι}
    (h : i ≠ l.client) : (p.step l).program i = p.program i := Function.update_of_ne h _ _

theorem Separated.step (h : Separated U K p) (l : PoolLabel ι ε) : Separated U K (p.step l) where
  inside i hi := by
    rcases eq_or_ne i l.client with rfl | hne
    · rw [step_program_self]
      exact (h.inside _ hi).step _ _ _
    · rw [step_program_of_ne p hne]
      exact h.inside i hi
  outside i hi := by
    rcases eq_or_ne i l.client with rfl | hne
    · rw [step_program_self]
      exact (h.outside _ hi).step _ _ _
    · rw [step_program_of_ne p hne]
      exact h.outside i hi

/-- A step outside changes nothing for the group. -/
private theorem agree_step_outside (h : Separated U K p) {l : PoolLabel ι ε} (hl : ¬U l.client) :
    Agree U K (p.step l) p where
  program i hi := by
    have hne : i ≠ l.client := by
      rintro rfl
      exact hl hi
    exact step_program_of_ne p hne
  store k hk := (h.outside l.client hl).step_of_not (not_not.mpr hk) _ _ _

/-- A step inside is the same in both pools. -/
private theorem Agree.step_inside (h : Agree U K p p') (hsep : Separated U K p)
    {l : PoolLabel ι ε} (hl : U l.client) : Agree U K (p.step l) (p'.step l) := by
  obtain ⟨hprogram, hstore⟩ := (hsep.inside l.client hl).step_congr h.store l.now l.delivery
  rw [h.program l.client hl] at hprogram hstore
  constructor
  · intro i hi
    rcases eq_or_ne i l.client with rfl | hne
    · rw [step_program_self, step_program_self, h.program _ hl, hprogram]
    · rw [step_program_of_ne p hne, step_program_of_ne p' hne, h.program i hi]
  · intro k hk
    rw [Pool.step, Pool.step, h.program l.client hl]
    exact hstore k hk

variable [DecidablePred U]

/-- **One run against its own steps**: what the others do can be left out. -/
private theorem agree_run_filter (h : Agree U K p p') (hsep : Separated U K p)
    (labels : List (PoolLabel ι ε)) :
    Agree U K (p.run labels) (p'.run (labels.filter fun l => U l.client)) := by
  induction labels generalizing p p' with
  | nil => exact h
  | cons l labels ih =>
    by_cases hl : U l.client
    · rw [List.filter_cons_of_pos (by simpa using hl)]
      exact ih (h.step_inside hsep hl) (hsep.step l)
    · rw [List.filter_cons_of_neg (by simpa using hl)]
      exact ih ((agree_step_outside hsep hl).trans h) (hsep.step l)

/-- **Separated clients do not influence each other.** Two interleaved runs in which the clients of
`U` take the same steps leave them, and the keys of `K`, alike, whatever the other clients are and
whenever they run. -/
theorem agree_run (h : Agree U K p p') (hsep : Separated U K p) (hsep' : Separated U K p')
    {labels labels' : List (PoolLabel ι ε)}
    (hlabels : labels.filter (fun l => U l.client) = labels'.filter fun l => U l.client) :
    Agree U K (p.run labels) (p'.run labels') := by
  have hleft := agree_run_filter h hsep labels
  rw [hlabels] at hleft
  have hright : Agree U K (p'.run labels') (p'.run (labels'.filter fun l => U l.client)) :=
    agree_run_filter ⟨fun _ _ => rfl, fun _ _ => rfl⟩ hsep' labels'
  exact hleft.trans hright.symm

end Pool

end Foundation
