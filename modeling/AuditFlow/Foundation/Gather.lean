import AuditFlow.Foundation.Transition
import Mathlib.Algebra.Order.BigOperators.Group.Finset
import Mathlib.Data.Fintype.Card

/-!
# Gathering tasks under a semaphore

A `Task` runs until it first needs a permit, and from then on in rounds, each of which ends where it
waits for a reply; `gather` runs a family of tasks at once, at most `permits` of them inside the
semaphore, and returns what each of them returns, or raises what the first one raises. Which task
goes on next is arbitrary: a schedule is a run of `gatherStep`.

**Schedules make no difference.** Every schedule comes to an end (`length_le_of_exec`), none gets
stuck before (`exists_gatherStep`), and what a task ends with is what it would end with alone
(`GatherState.Sound`).
-/

namespace Foundation

/-- A task that returns or raises `ρ`: what it does before it needs a permit, and what it does each
time it goes on from a place `σ`. -/
structure Task (σ ρ : Type) where
  start : ρ ⊕ σ
  goOn : σ → ρ ⊕ σ

namespace Task

variable {σ ρ : Type} (t : Task σ ρ)

/-- From `s` on, the task alone ends with `r`. -/
inductive EndsFrom (r : ρ) : σ → Prop
  | now {s : σ} (h : t.goOn s = .inl r) : EndsFrom r s
  | later {s s' : σ} (h : t.goOn s = .inr s') (hrest : EndsFrom r s') : EndsFrom r s

/-- The task alone ends with `r`. -/
def Ends (r : ρ) : Prop := t.start = .inl r ∨ ∃ s, t.start = .inr s ∧ t.EndsFrom r s

/-- Each round brings the task closer to its end. -/
def Bounded (rounds : σ → ℕ) : Prop := ∀ s s', t.goOn s = .inr s' → rounds s' < rounds s

end Task

/-- Where a task is. -/
inductive TaskState (σ ρ : Type)
  | created
  | waiting (s : σ)
  | running (s : σ)
  | finished (r : ρ)

/-- The task is inside the semaphore. -/
def TaskState.isRunning {σ ρ : Type} : TaskState σ ρ → Bool
  | .running _ => true
  | _ => false

/-- A gather: where its tasks are, and the exception that was raised first. -/
structure GatherState (ι σ ε α : Type) where
  tasks : ι → TaskState σ (Except ε α) := fun _ => .created
  raised : Option ε := none

/-- Which task takes which step. -/
inductive GatherLabel (ι : Type)
  | start (i : ι)
  | acquire (i : ι)
  | goOn (i : ι)
  deriving DecidableEq, Repr

section

variable {ι σ ε α : Type} [DecidableEq ι]

/-- A task comes to a place, or to its end. -/
def GatherState.settle (g : GatherState ι σ ε α) (i : ι)
    (place : σ → TaskState σ (Except ε α)) : Except ε α ⊕ σ → GatherState ι σ ε α
  | .inl (.ok a) => { g with tasks := Function.update g.tasks i (.finished (.ok a)) }
  | .inl (.error e) =>
    { tasks := Function.update g.tasks i (.finished (.error e)), raised := some e }
  | .inr s => { g with tasks := Function.update g.tasks i (place s) }

variable [Fintype ι]

/-- How many tasks are inside the semaphore. -/
def GatherState.inUse (g : GatherState ι σ ε α) : ℕ :=
  (Finset.univ.filter fun i => (g.tasks i).isRunning = true).card

/-- One step of one task. -/
def GatherState.move (task : ι → Task σ (Except ε α)) (permits : ℕ) (g : GatherState ι σ ε α) :
    GatherLabel ι → Option (GatherState ι σ ε α)
  | .start i =>
    match g.tasks i with
    | .created => some (g.settle i .waiting (task i).start)
    | _ => none
  | .acquire i =>
    match g.tasks i with
    | .waiting s =>
      if g.inUse < permits then
        some { g with tasks := Function.update g.tasks i (.running s) }
      else none
    | _ => none
  | .goOn i =>
    match g.tasks i with
    | .running s => some (g.settle i .running ((task i).goOn s))
    | _ => none

/-- One step of a gather, which ends when a task raises. -/
def gatherStep (task : ι → Task σ (Except ε α)) (permits : ℕ) (g : GatherState ι σ ε α)
    (l : GatherLabel ι) : Option (GatherState ι σ ε α) :=
  if g.raised.isSome then none else g.move task permits l

variable {task : ι → Task σ (Except ε α)} {permits : ℕ} {g g' : GatherState ι σ ε α}
  {l : GatherLabel ι}

/-! ### What a step can do -/

/-- A step moves one task of a gather that has not raised yet. -/
inductive GatherMove (task : ι → Task σ (Except ε α)) (g : GatherState ι σ ε α) :
    GatherState ι σ ε α → Prop
  | start {i : ι} (h : g.tasks i = .created) :
      GatherMove task g (g.settle i .waiting (task i).start)
  | acquire {i : ι} {s : σ} (h : g.tasks i = .waiting s) :
      GatherMove task g { g with tasks := Function.update g.tasks i (.running s) }
  | goOn {i : ι} {s : σ} (h : g.tasks i = .running s) :
      GatherMove task g (g.settle i .running ((task i).goOn s))

theorem gatherMove_of_step (h : gatherStep task permits g l = some g') :
    g.raised = none ∧ GatherMove task g g' := by
  rw [gatherStep] at h
  split_ifs at h with hraised
  refine ⟨by simpa using hraised, ?_⟩
  cases l with
  | start i =>
    rw [GatherState.move] at h
    split at h
    · rename_i hi
      obtain rfl := Option.some.inj h
      exact .start hi
    · cases h
  | acquire i =>
    rw [GatherState.move] at h
    split at h
    · rename_i s hi
      split_ifs at h
      obtain rfl := Option.some.inj h
      exact .acquire hi
    · cases h
  | goOn i =>
    rw [GatherState.move] at h
    split at h
    · rename_i s hi
      obtain rfl := Option.some.inj h
      exact .goOn hi
    · cases h

/-- **A gather with permits can go on** until all tasks are finished or one has raised. -/
theorem exists_gatherStep (hpermits : 0 < permits) (hraised : g.raised = none) {i : ι}
    (hi : ∀ r, g.tasks i ≠ .finished r) : ∃ l g', gatherStep task permits g l = some g' := by
  have hmove : ∀ l, gatherStep task permits g l = g.move task permits l := by
    intro l
    rw [gatherStep, hraised]
    rfl
  by_cases hrunning : ∃ j s, g.tasks j = .running s
  · obtain ⟨j, s, hj⟩ := hrunning
    refine ⟨.goOn j, g.settle j .running ((task j).goOn s), ?_⟩
    rw [hmove, GatherState.move, hj]
  · cases hstate : g.tasks i with
    | created =>
      refine ⟨.start i, g.settle i .waiting (task i).start, ?_⟩
      rw [hmove, GatherState.move, hstate]
    | waiting s =>
      -- nobody is inside, so there is a permit
      have hnone : g.inUse = 0 := by
        rw [GatherState.inUse, Finset.card_eq_zero, Finset.filter_eq_empty_iff]
        intro j _ hj
        cases hjs : g.tasks j with
        | running s' => exact hrunning ⟨j, s', hjs⟩
        | created | waiting _ | finished _ =>
          rw [hjs] at hj
          cases hj
      have hfree : g.inUse < permits := by omega
      refine ⟨.acquire i, { g with tasks := Function.update g.tasks i (.running s) }, ?_⟩
      rw [hmove, GatherState.move, hstate]
      exact if_pos hfree
    | running s => exact absurd ⟨i, s, hstate⟩ hrunning
    | finished r => exact absurd hstate (hi r)

/-! ### Every task is on its own way -/

/-- What a task can still end with, alone. -/
def TaskState.CanEnd (t : Task σ (Except ε α)) (r : Except ε α) :
    TaskState σ (Except ε α) → Prop
  | .created => t.Ends r
  | .waiting s | .running s => t.EndsFrom r s
  | .finished r' => r' = r

/-- Each task ends with what it ends with alone, and the exception is that of a task. -/
structure GatherState.Sound (task : ι → Task σ (Except ε α)) (g : GatherState ι σ ε α) : Prop where
  ends : ∀ i r, (g.tasks i).CanEnd (task i) r → (task i).Ends r
  raised : ∀ e, g.raised = some e → ∃ i, (task i).Ends (.error e)
  returned : g.raised = none → ∀ i r, g.tasks i = .finished r → ∃ a, r = .ok a

omit [DecidableEq ι] [Fintype ι] in
theorem gatherSound_start (task : ι → Task σ (Except ε α)) : GatherState.Sound task {} where
  ends _ _ h := h
  raised _ h := nomatch h
  returned _ _ _ h := nomatch h

omit [Fintype ι] in
/-- A task comes to a new place, from which it can only end as it could before. -/
private theorem ends_update (h : g.Sound task) {i : ι} {place : TaskState σ (Except ε α)}
    (hends : ∀ r, place.CanEnd (task i) r → (task i).Ends r) :
    ∀ j r, (Function.update g.tasks i place j).CanEnd (task j) r → (task j).Ends r :=
  (Function.forall_update_iff g.tasks fun j x => ∀ r, x.CanEnd (task j) r → (task j).Ends r).mpr
    ⟨hends, fun j _ => h.ends j⟩

omit [Fintype ι] in
private theorem GatherState.Sound.update (h : g.Sound task) {i : ι}
    {place : TaskState σ (Except ε α)} (hends : ∀ r, place.CanEnd (task i) r → (task i).Ends r)
    (hreturned : ∀ r, place = .finished r → ∃ a, r = .ok a) :
    GatherState.Sound task { g with tasks := Function.update g.tasks i place } where
  ends := ends_update h hends
  raised := h.raised
  returned hraised :=
    (Function.forall_update_iff g.tasks fun _ x => ∀ r, x = .finished r → ∃ a, r = .ok a).mpr
      ⟨hreturned, fun j _ => h.returned hraised j⟩

omit [Fintype ι] in
private theorem GatherState.Sound.settle (h : g.Sound task) {i : ι}
    {place : σ → TaskState σ (Except ε α)} {x : Except ε α ⊕ σ}
    (hend : ∀ r, x = .inl r → (task i).Ends r)
    (hplace : ∀ s, x = .inr s → ∀ r, (place s).CanEnd (task i) r → (task i).Ends r)
    (hopen : ∀ s r, place s ≠ .finished r) : (g.settle i place x).Sound task := by
  rcases x with (e | a) | s
  · have hraises : (task i).Ends (.error e) := hend _ rfl
    refine ⟨ends_update h fun r hr => ?_, fun e' he' => ?_, fun hnone => nomatch hnone⟩
    · obtain rfl : Except.error e = r := hr
      exact hraises
    · obtain rfl := Option.some.inj he'
      exact ⟨i, hraises⟩
  · refine h.update (fun r hr => ?_) fun r hr => ?_
    · obtain rfl : Except.ok a = r := hr
      exact hend _ rfl
    · obtain rfl := TaskState.finished.inj hr
      exact ⟨a, rfl⟩
  · exact h.update (hplace s rfl) fun r hr => absurd hr (hopen s r)

theorem GatherState.Sound.step (h : g.Sound task) (hstep : gatherStep task permits g l = some g') :
    g'.Sound task := by
  obtain ⟨-, hmove⟩ := gatherMove_of_step hstep
  cases hmove with
  | @start i hi =>
    refine h.settle (fun r hr => Or.inl hr) (fun s hs r hr => Or.inr ⟨s, hs, hr⟩) ?_
    exact fun _ _ heq => nomatch heq
  | @acquire i s hi =>
    refine h.update (fun r hr => h.ends i r ?_) fun _ heq => nomatch heq
    rw [hi]
    exact hr
  | @goOn i s hi =>
    have hon : ∀ r, (task i).EndsFrom r s → (task i).Ends r := by
      intro r hr
      refine h.ends i r ?_
      rw [hi]
      exact hr
    refine h.settle (fun r hr => hon r (.now hr)) (fun s' hs r hr => hon r (.later hs hr)) ?_
    exact fun _ _ heq => nomatch heq

/-- **Schedules make no difference** to what a task ends with. -/
theorem gatherSound_of_reach (h : Reach (gatherStep task permits) {} g) : g.Sound task :=
  h.invariant (gatherSound_start task) fun _ _ _ hs _ hstep => hs.step hstep

/-! ### Every schedule ends -/

section

variable (task) (rounds : ι → σ → ℕ)

/-- How many steps a task has ahead of it, at most. -/
def TaskState.ahead (i : ι) : TaskState σ (Except ε α) → ℕ
  | .created => (task i).start.elim (fun _ => 1) fun s => rounds i s + 3
  | .waiting s => rounds i s + 2
  | .running s => rounds i s + 1
  | .finished _ => 0

/-- How many steps all tasks have ahead of them. -/
def GatherState.ahead (g : GatherState ι σ ε α) : ℕ :=
  ∑ i, (g.tasks i).ahead task rounds i

variable {rounds}

private theorem ahead_update {i : ι} {place : TaskState σ (Except ε α)}
    (hless : place.ahead task rounds i < (g.tasks i).ahead task rounds i) (raised : Option ε) :
    GatherState.ahead task rounds ⟨Function.update g.tasks i place, raised⟩ <
      g.ahead task rounds := by
  have hself : (Function.update g.tasks i place i).ahead task rounds i <
      (g.tasks i).ahead task rounds i := by
    rw [Function.update_self]
    exact hless
  refine Finset.sum_lt_sum (fun j _ => ?_) ⟨i, Finset.mem_univ i, hself⟩
  rcases eq_or_ne j i with rfl | hne
  · exact hself.le
  · dsimp only
    rw [Function.update_of_ne hne]

variable {task}

private theorem ahead_settle {i : ι} {place : σ → TaskState σ (Except ε α)} {x : Except ε α ⊕ σ}
    (hpos : 0 < (g.tasks i).ahead task rounds i)
    (hless : ∀ s, x = .inr s →
      (place s).ahead task rounds i < (g.tasks i).ahead task rounds i) :
    (g.settle i place x).ahead task rounds < g.ahead task rounds := by
  have hend : ∀ r : Except ε α,
      (TaskState.finished r).ahead task rounds i < (g.tasks i).ahead task rounds i := fun _ => hpos
  rcases x with (e | a) | s
  · exact ahead_update task (hend (.error e)) _
  · exact ahead_update task (hend (.ok a)) _
  · exact ahead_update task (hless s rfl) _

theorem ahead_lt_of_step (hbounded : ∀ i, (task i).Bounded (rounds i))
    (hstep : gatherStep task permits g l = some g') :
    g'.ahead task rounds < g.ahead task rounds := by
  obtain ⟨-, hmove⟩ := gatherMove_of_step hstep
  cases hmove with
  | @start i hi =>
    refine ahead_settle ?_ fun s hs => ?_
    · rw [hi, TaskState.ahead]
      cases (task i).start with
      | inl r => exact Nat.one_pos
      | inr s => exact Nat.succ_pos _
    · rw [hi, TaskState.ahead, TaskState.ahead, hs, Sum.elim_inr]
      omega
  | @acquire i s hi =>
    refine ahead_update task ?_ g.raised
    rw [hi, TaskState.ahead, TaskState.ahead]
    omega
  | @goOn i s hi =>
    refine ahead_settle ?_ fun s' hs => ?_
    · rw [hi, TaskState.ahead]
      omega
    · have hless := hbounded i s s' hs
      rw [hi, TaskState.ahead, TaskState.ahead]
      omega

/-- **Every schedule ends**: it has no more steps than the tasks have rounds. -/
theorem length_le_of_exec (hbounded : ∀ i, (task i).Bounded (rounds i))
    {ls : List (GatherLabel ι)} (h : exec (gatherStep task permits) g ls = some g') :
    ls.length ≤ g.ahead task rounds := by
  induction ls generalizing g with
  | nil => exact Nat.zero_le _
  | cons l ls ih =>
    rw [exec_cons] at h
    obtain ⟨t, hstep, hrest⟩ := Option.bind_eq_some_iff.mp h
    have hless := ahead_lt_of_step hbounded hstep
    have hle := ih hrest
    rw [List.length_cons]
    omega

end

end

/-! ### The outcome -/

section

variable {σ ε α : Type} {n : ℕ} {task : Fin n → Task σ (Except ε α)} {permits : ℕ}
  {g : GatherState (Fin n) σ ε α}

/-- What a task has returned. -/
def TaskState.value? : TaskState σ (Except ε α) → Option α
  | .finished (.ok a) => some a
  | _ => none

theorem TaskState.value?_eq_some_iff {x : TaskState σ (Except ε α)} {a : α} :
    x.value? = some a ↔ x = .finished (.ok a) := by
  rcases x with - | s | s | (e | b)
  · exact iff_of_false (fun h => nomatch h) fun h => nomatch h
  · exact iff_of_false (fun h => nomatch h) fun h => nomatch h
  · exact iff_of_false (fun h => nomatch h) fun h => nomatch h
  · exact iff_of_false (fun h => nomatch h) fun h => nomatch h
  · simp [TaskState.value?]

/-- What the gather has come to: the exception that was raised first, or what the tasks have
returned, in the order of the tasks. -/
def GatherState.outcome (g : GatherState (Fin n) σ ε α) : Option (Except ε (List α)) :=
  match g.raised with
  | some e => some (.error e)
  | none =>
    if h : ∀ i, (g.tasks i).value?.isSome = true then
      some (.ok (List.ofFn fun i => (g.tasks i).value?.get (h i)))
    else none

/-- **Each outcome is one of the tasks alone**: what one of them raises, or what they return. -/
theorem outcome_eq_some (hsound : g.Sound task) {r : Except ε (List α)}
    (h : g.outcome = some r) :
    (∃ e i, r = .error e ∧ (task i).Ends (.error e)) ∨
      ∃ a : Fin n → α, r = .ok (List.ofFn a) ∧ ∀ i, (task i).Ends (.ok (a i)) := by
  rw [GatherState.outcome] at h
  rcases hraised : g.raised with - | e
  · rw [hraised] at h
    dsimp only at h
    split_ifs at h with hall
    refine Or.inr ⟨_, (Option.some.inj h).symm, fun i => hsound.ends i _ ?_⟩
    have hvalue : (g.tasks i).value? = some ((g.tasks i).value?.get (hall i)) :=
      (Option.some_get (hall i)).symm
    generalize (g.tasks i).value?.get (hall i) = a at hvalue ⊢
    rw [TaskState.value?_eq_some_iff.mp hvalue]
    rfl
  · rw [hraised] at h
    obtain ⟨i, hi⟩ := hsound.raised e hraised
    exact Or.inl ⟨e, i, (Option.some.inj h).symm, hi⟩

/-- **A gather has an outcome exactly when it cannot go on.** -/
theorem outcome_isSome_iff (hpermits : 0 < permits) (hsound : g.Sound task) :
    (∃ r, g.outcome = some r) ↔ ∀ l, gatherStep task permits g l = none := by
  constructor
  · rintro ⟨r, hr⟩ l
    by_contra hstep
    obtain ⟨g', hg'⟩ := Option.ne_none_iff_exists'.mp hstep
    obtain ⟨hraised, hmove⟩ := gatherMove_of_step hg'
    rw [GatherState.outcome, hraised] at hr
    dsimp only at hr
    split_ifs at hr with hall
    -- a task that moves has not returned
    have hfinished : ∀ i, ∃ a, g.tasks i = .finished (.ok a) := by
      intro i
      obtain ⟨a, ha⟩ := Option.isSome_iff_exists.mp (hall i)
      exact ⟨a, TaskState.value?_eq_some_iff.mp ha⟩
    cases hmove with
    | @start i hi =>
      obtain ⟨a, ha⟩ := hfinished i
      cases hi.symm.trans ha
    | @acquire i s hi =>
      obtain ⟨a, ha⟩ := hfinished i
      cases hi.symm.trans ha
    | @goOn i s hi =>
      obtain ⟨a, ha⟩ := hfinished i
      cases hi.symm.trans ha
  · intro hstuck
    rcases hraised : g.raised with - | e
    · have hall : ∀ i, (g.tasks i).value?.isSome = true := by
        intro i
        by_contra hopen
        have hi : ∀ r, g.tasks i ≠ .finished r := by
          intro r hr
          obtain ⟨a, rfl⟩ := hsound.returned hraised i r hr
          rw [hr] at hopen
          exact hopen rfl
        have hgo : ∃ l g', gatherStep task permits g l = some g' :=
          exists_gatherStep hpermits hraised hi
        obtain ⟨l, g', hstep⟩ := hgo
        rw [hstuck l] at hstep
        cases hstep
      refine ⟨.ok (List.ofFn fun i => (g.tasks i).value?.get (hall i)), ?_⟩
      rw [GatherState.outcome, hraised]
      exact dif_pos hall
    · refine ⟨.error e, ?_⟩
      rw [GatherState.outcome, hraised]

end

end Foundation
