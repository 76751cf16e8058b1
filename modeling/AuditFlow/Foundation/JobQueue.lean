import AuditFlow.Foundation.Transition

/-!
# A job queue that retries

Jobs are queued, and a worker runs a job's **transaction** statement by statement, commits it, and
marks the job as finished. The worker may fail at every point in between. A failed job is queued
again while it has retries left, whether or not its transaction has taken effect: the queue does not
know.

So a job is run at least once, and its transaction takes effect **at most once per attempt**
(`count_commits_le`). It takes effect at most once altogether where no attempt is lost between its
commit and its finish (`count_commits_le_one`). What the store holds follows the commits
(`store_invariant`): a failure before the commit leaves nothing behind.
-/

namespace Foundation

namespace JobQueue

/-- A queue of jobs with payloads in `π` whose transactions work on a store `σ`. -/
structure Queue (π σ : Type) where
  /-- How often a failed job is run again. -/
  retries : ℕ
  /-- The statements of the transaction of a job, from its number and its payload. -/
  transaction : ℕ → π → List (σ → σ)

/-- Where a job is. -/
inductive Stage
  | queued
  /-- So many statements of the transaction have been run. -/
  | running (statements : ℕ)
  /-- The transaction has taken effect, and the queue has not been told. -/
  | committed
  | finished
  /-- Given up, for want of retries. -/
  | dead
  deriving DecidableEq

structure Job (π : Type) where
  payload : π
  stage : Stage := .queued
  retriesLeft : ℕ

structure State (π σ : Type) where
  store : σ
  /-- The jobs, by number. -/
  jobs : List (Job π) := []
  /-- Bookkeeping: the jobs whose transactions took effect, in that order. -/
  commits : List ℕ := []

inductive Label (π : Type)
  | enqueue (payload : π)
  /-- A worker takes the job and begins its transaction. -/
  | start (j : ℕ)
  /-- The next statement of the transaction. -/
  | statement (j : ℕ)
  /-- The transaction takes effect. -/
  | commit (j : ℕ)
  /-- The queue marks the job as finished. -/
  | finish (j : ℕ)
  /-- The attempt fails: an exception, a lost connection, or the loss of the worker. -/
  | fail (j : ℕ)

section

variable {π σ : Type} (Q : Queue π σ)

/-- Run the statements of a transaction. -/
def apply (statements : List (σ → σ)) (store : σ) : σ :=
  statements.foldl (fun store f => f store) store

/-- The job after a failed attempt: queued again, or given up. -/
def Job.retried (job : Job π) : Job π :=
  match job.retriesLeft with
  | 0 => { job with stage := .dead }
  | r + 1 => { job with stage := .queued, retriesLeft := r }

/-- The state with another job at the number. -/
def State.put (s : State π σ) (j : ℕ) (job : Job π) : State π σ :=
  { s with jobs := s.jobs.set j job }

/-- One step of the queue, of a worker or of the store. -/
def step (s : State π σ) : Label π → Option (State π σ)
  | .enqueue payload =>
    some { s with jobs := s.jobs ++ [{ payload, retriesLeft := Q.retries }] }
  | .start j =>
    s.jobs[j]?.bind fun job =>
      match job.stage with
      | .queued => some (s.put j { job with stage := .running 0 })
      | _ => none
  | .statement j =>
    s.jobs[j]?.bind fun job =>
      match job.stage with
      | .running k =>
        if k < (Q.transaction j job.payload).length then
          some (s.put j { job with stage := .running (k + 1) })
        else none
      | _ => none
  | .commit j =>
    s.jobs[j]?.bind fun job =>
      match job.stage with
      | .running k =>
        if k = (Q.transaction j job.payload).length then
          some { s.put j { job with stage := .committed } with
            store := apply (Q.transaction j job.payload) s.store
            commits := s.commits ++ [j] }
        else none
      | _ => none
  | .finish j =>
    s.jobs[j]?.bind fun job =>
      match job.stage with
      | .committed => some (s.put j { job with stage := .finished })
      | _ => none
  | .fail j =>
    s.jobs[j]?.bind fun job =>
      match job.stage with
      | .running _ | .committed => some (s.put j job.retried)
      | _ => none

/-- The step loses an attempt of the job after its transaction has taken effect. -/
def LosesCommit (j : ℕ) (s : State π σ) (l : Label π) : Prop :=
  l = .fail j ∧ ∃ job, s.jobs[j]? = some job ∧ job.stage = .committed

/-- What a step can do: queue a new job, move a job on, let a transaction take effect, or fail. -/
inductive Effect (s : State π σ) : Label π → State π σ → Prop
  | enqueue (payload : π) : Effect s (.enqueue payload)
      { s with jobs := s.jobs ++ [{ payload, retriesLeft := Q.retries }] }
  | works {l : Label π} {j k : ℕ} {job : Job π} (hjob : s.jobs[j]? = some job)
      (hstage : job.stage = .queued ∨ ∃ k, job.stage = .running k) :
      Effect s l (s.put j { job with stage := .running k })
  | commit {j : ℕ} {job : Job π} (hjob : s.jobs[j]? = some job)
      (hstage : job.stage = .running (Q.transaction j job.payload).length) :
      Effect s (.commit j)
        { s.put j { job with stage := .committed } with
          store := apply (Q.transaction j job.payload) s.store
          commits := s.commits ++ [j] }
  | finish {j : ℕ} {job : Job π} (hjob : s.jobs[j]? = some job) (hstage : job.stage = .committed) :
      Effect s (.finish j) (s.put j { job with stage := .finished })
  | fail {j : ℕ} {job : Job π} (hjob : s.jobs[j]? = some job)
      (hstage : (∃ k, job.stage = .running k) ∨ job.stage = .committed) :
      Effect s (.fail j) (s.put j job.retried)

variable {Q} {s s' : State π σ} {l : Label π}

/-- Every step has one of these effects. -/
theorem step_effect (h : step Q s l = some s') : Effect Q s l s' := by
  cases l with
  | enqueue payload =>
    obtain rfl := Option.some.inj h
    exact .enqueue payload
  | start j =>
    obtain ⟨job, hjob, h⟩ := Option.bind_eq_some_iff.mp h
    split at h
    · rename_i hstage
      obtain rfl := Option.some.inj h
      exact .works hjob (Or.inl hstage)
    · cases h
  | statement j =>
    obtain ⟨job, hjob, h⟩ := Option.bind_eq_some_iff.mp h
    split at h
    · rename_i k hstage
      split_ifs at h
      obtain rfl := Option.some.inj h
      exact .works hjob (Or.inr ⟨k, hstage⟩)
    · cases h
  | commit j =>
    obtain ⟨job, hjob, h⟩ := Option.bind_eq_some_iff.mp h
    split at h
    · rename_i k hstage
      split_ifs at h with hall
      obtain rfl := Option.some.inj h
      exact .commit hjob (hall ▸ hstage)
    · cases h
  | finish j =>
    obtain ⟨job, hjob, h⟩ := Option.bind_eq_some_iff.mp h
    split at h
    · rename_i hstage
      obtain rfl := Option.some.inj h
      exact .finish hjob hstage
    · cases h
  | fail j =>
    obtain ⟨job, hjob, h⟩ := Option.bind_eq_some_iff.mp h
    split at h
    · rename_i k hstage
      obtain rfl := Option.some.inj h
      exact .fail hjob (Or.inl ⟨k, hstage⟩)
    · rename_i hstage
      obtain rfl := Option.some.inj h
      exact .fail hjob (Or.inr hstage)
    · cases h

/-! ### One job -/

/-- How many more commits the present attempt can make. -/
def Stage.owed : Stage → ℕ
  | .queued | .running _ => 1
  | .committed | .finished | .dead => 0

/-- What a step does to one job and to the number of its commits. -/
inductive JobEffect (Q : Queue π σ) (s : State π σ) (j : ℕ) (l : Label π) (commits' : ℕ) :
    Job π → Prop
  | queued (hnew : s.jobs[j]? = none) (hcommits : commits' = s.commits.count j) {payload : π} :
      JobEffect Q s j l commits' { payload, retriesLeft := Q.retries }
  | kept {job job' : Job π} (hjob : s.jobs[j]? = some job) (hcommits : commits' = s.commits.count j)
      (howed : job'.stage.owed = job.stage.owed) (hretries : job'.retriesLeft = job.retriesLeft) :
      JobEffect Q s j l commits' job'
  | committed {job job' : Job π} (hjob : s.jobs[j]? = some job)
      (hcommits : commits' = s.commits.count j + 1) (howed : job.stage.owed = 1)
      (howed' : job'.stage.owed = 0) (hretries : job'.retriesLeft = job.retriesLeft) :
      JobEffect Q s j l commits' job'
  | failed {job job' : Job π} (hjob : s.jobs[j]? = some job)
      (hcommits : commits' = s.commits.count j) (howed : job.stage.owed = 1 ∨ LosesCommit j s l)
      (howed' : job'.stage.owed ≤ 1)
      (hretries : job'.retriesLeft + job'.stage.owed = job.retriesLeft) :
      JobEffect Q s j l commits' job'

/-- The jobs after one of them is replaced. -/
private theorem getElem?_put {j : ℕ} {job : Job π} (hjob : s.jobs[j]? = some job) (job' : Job π)
    (i : ℕ) : (s.put j job').jobs[i]? = if i = j then some job' else s.jobs[i]? := by
  have hlt : j < s.jobs.length := (List.getElem?_eq_some_iff.mp hjob).1
  rw [State.put, List.getElem?_set]
  split_ifs with h₁ h₂ h₂
  · rfl
  · exact absurd h₁.symm h₂
  · exact absurd h₂.symm h₁
  · rfl

/-- A job that the step leaves alone. -/
private theorem JobEffect.of_same {j : ℕ} {job : Job π} {commits' : ℕ}
    (hjob : s.jobs[j]? = some job) (hcommits : commits' = s.commits.count j) :
    JobEffect Q s j l commits' job :=
  .kept hjob hcommits rfl rfl

/-- **Each job is stepped by its own effect.** -/
theorem Effect.job (h : Effect Q s l s') {i : ℕ} {job' : Job π}
    (hjob' : s'.jobs[i]? = some job') : JobEffect Q s i l (s'.commits.count i) job' := by
  cases h with
  | enqueue payload =>
    dsimp only at hjob'
    rw [List.getElem?_append] at hjob'
    split_ifs at hjob' with hi
    · exact .of_same hjob' rfl
    · obtain ⟨-, rfl⟩ : i - s.jobs.length = 0 ∧
          { payload, retriesLeft := Q.retries : Job π } = job' := by
        simpa [List.getElem?_singleton] using hjob'
      exact .queued (List.getElem?_eq_none (Nat.le_of_not_lt hi)) rfl
  | @works _ j k job hjob hstage =>
    rw [getElem?_put hjob] at hjob'
    split_ifs at hjob' with hi
    · obtain rfl := Option.some.inj hjob'
      subst hi
      refine .kept hjob rfl ?_ rfl
      rcases hstage with hstage | ⟨k', hstage⟩ <;> rw [hstage] <;> rfl
    · exact .of_same hjob' rfl
  | @commit j job hjob hstage =>
    have hjobs := getElem?_put hjob { job with stage := .committed } i
    rw [hjobs] at hjob'
    dsimp only
    rw [List.count_append, List.count_singleton]
    split_ifs at hjob' with hi
    · obtain rfl := Option.some.inj hjob'
      subst hi
      exact .committed hjob (by simp) (by rw [hstage]; rfl) rfl rfl
    · refine .of_same hjob' ?_
      simp [Ne.symm hi]
  | @finish j job hjob hstage =>
    rw [getElem?_put hjob] at hjob'
    split_ifs at hjob' with hi
    · obtain rfl := Option.some.inj hjob'
      subst hi
      exact .kept hjob rfl (by rw [hstage]; rfl) rfl
    · exact .of_same hjob' rfl
  | @fail j job hjob hstage =>
    rw [getElem?_put hjob] at hjob'
    split_ifs at hjob' with hi
    · obtain rfl := Option.some.inj hjob'
      subst hi
      have howed : job.stage.owed = 1 ∨ LosesCommit i s (.fail i) := by
        rcases hstage with ⟨k, hstage⟩ | hstage
        · exact Or.inl (by rw [hstage]; rfl)
        · exact Or.inr ⟨rfl, job, hjob, hstage⟩
      refine .failed hjob rfl howed ?_ ?_
      · rw [Job.retried]
        split
        · exact Nat.zero_le 1
        · exact Nat.le_refl 1
      · rw [Job.retried]
        split
        · rfl
        · rename_i r hsome
          exact hsome.symm
    · exact .of_same hjob' rfl

/-! ### Runs -/

/-- A queue without jobs. -/
def State.start (store : σ) : State π σ := { store }

/-- **The store follows the commits.** What holds without commits, and survives the transaction of a
job together with its commit, holds all along a run. -/
theorem store_invariant {store₀ : σ} {P : σ → List ℕ → Prop} (h₀ : P store₀ [])
    (hcommit : ∀ store commits j payload, P store commits →
      P (apply (Q.transaction j payload) store) (commits ++ [j]))
    (h : Reach (step Q) (State.start store₀) s) : P s.store s.commits := by
  refine ReachWhere.invariant (P := fun s => P s.store s.commits) h h₀ ?_
  intro s l s' ih _ hstep
  cases step_effect hstep with
  | enqueue payload => exact ih
  | works hjob hstage => exact ih
  | commit hjob hstage => exact hcommit _ _ _ _ ih
  | finish hjob hstage => exact ih
  | fail hjob hstage => exact ih

/-- Only numbers of jobs are committed. -/
private theorem lt_of_mem_commits {store₀ : σ} (h : Reach (step Q) (State.start store₀) s) :
    ∀ i ∈ s.commits, i < s.jobs.length := by
  refine ReachWhere.invariant (P := fun s => ∀ i ∈ s.commits, i < s.jobs.length) h ?_ ?_
  · intro i hi
    cases hi
  · intro s l s' ih _ hstep i hi
    have hput (j : ℕ) (job : Job π) : (s.put j job).jobs.length = s.jobs.length :=
      List.length_set
    cases step_effect hstep with
    | enqueue payload =>
      have hlt := ih i hi
      rw [List.length_append]
      omega
    | works hjob hstage | finish hjob hstage | fail hjob hstage =>
      rw [hput]
      exact ih i hi
    | @commit j job hjob hstage =>
      have hlength := hput j { job with stage := .committed }
      rw [hlength]
      rcases List.mem_append.mp hi with hi | hi
      · exact ih i hi
      · rw [List.mem_singleton.mp hi]
        exact (List.getElem?_eq_some_iff.mp hjob).1

private theorem count_commits_of_none {store₀ : σ} (h : Reach (step Q) (State.start store₀) s)
    {i : ℕ} (hi : s.jobs[i]? = none) : s.commits.count i = 0 := by
  refine List.count_eq_zero.mpr fun hmem => ?_
  have hlt := lt_of_mem_commits h i hmem
  have hle := List.getElem?_eq_none_iff.mp hi
  omega

/-- A bound on the commits of every job that has been queued bounds them all. -/
private theorem count_commits_le_of {store₀ : σ} (h : Reach (step Q) (State.start store₀) s)
    {i b : ℕ} (hb : ∀ job, s.jobs[i]? = some job → s.commits.count i ≤ b) :
    s.commits.count i ≤ b := by
  rcases hi : s.jobs[i]? with - | job
  · rw [count_commits_of_none h hi]
    exact Nat.zero_le b
  · exact hb job hi

/-- **One commit per attempt, at most.** -/
theorem count_commits_le {store₀ : σ} (h : Reach (step Q) (State.start store₀) s) (i : ℕ) :
    s.commits.count i ≤ Q.retries + 1 := by
  have hinv : ∀ job, s.jobs[i]? = some job →
      s.commits.count i + job.stage.owed + job.retriesLeft ≤ Q.retries + 1 := by
    induction h with
    | start =>
      intro job hjob
      cases hjob
    | next hreach _ hstep ih =>
      intro job' hjob'
      cases (step_effect hstep).job hjob' with
      | queued hnew hcommits =>
        rw [hcommits, count_commits_of_none hreach hnew]
        simp only [Stage.owed]
        omega
      | kept hjob hcommits howed hretries =>
        have hle := ih _ hjob
        omega
      | committed hjob hcommits howed howed' hretries =>
        have hle := ih _ hjob
        omega
      | failed hjob hcommits howed howed' hretries =>
        have hle := ih _ hjob
        omega
  refine count_commits_le_of h fun job hjob => ?_
  have hle := hinv job hjob
  omega

/-- **One commit altogether**, where no attempt of the job is lost after its commit. -/
theorem count_commits_le_one {store₀ : σ} {i : ℕ}
    (h : ReachWhere (step Q) (fun s l => ¬LosesCommit i s l) (State.start store₀) s) :
    s.commits.count i ≤ 1 := by
  have hinv : ∀ job, s.jobs[i]? = some job → s.commits.count i + job.stage.owed ≤ 1 := by
    induction h with
    | start =>
      intro job hjob
      cases hjob
    | next hreach hkeeps hstep ih =>
      intro job' hjob'
      cases (step_effect hstep).job hjob' with
      | queued hnew hcommits =>
        rw [hcommits, count_commits_of_none hreach.reach hnew]
        exact Nat.le_refl 1
      | kept hjob hcommits howed hretries =>
        have hle := ih _ hjob
        omega
      | committed hjob hcommits howed howed' hretries =>
        have hle := ih _ hjob
        omega
      | failed hjob hcommits howed howed' hretries =>
        -- the attempt failed before its commit, so there is none yet
        have hle := ih _ hjob
        have hpresent := howed.resolve_right hkeeps
        omega
  refine count_commits_le_of h.reach fun job hjob => ?_
  have hle := hinv job hjob
  omega

end

end JobQueue

end Foundation
