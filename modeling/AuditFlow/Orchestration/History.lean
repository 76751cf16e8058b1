import AuditFlow.Foundation.JobQueue
import AuditFlow.Foundation.Dict
import AuditFlow.Schemas

/-!
# The history of a conversation

`orchestration/history_queue.py` and `orchestration/history_worker.py`: `/ask` enqueues a job for
each answered turn, and a worker writes the turn to `conversation_turns` and to `audit_log`, in one
transaction.

The transaction makes the two tables agree in every state of every run: **a turn is in one of them
as often as in the other**. Neither table has a key that would recognize a turn that is there
already, so a job that is run again after its commit writes its turn again; each attempt writes it
at most once (`turn_recorded`, `turn_recorded_twice`).
-/

namespace AuditFlow

open Foundation

/-- The value of the enumeration member. -/
def AskStatus.value : AskStatus → String
  | .answered => "answered"
  | .needClarification => "need_clarification"
  | .lowRelevance => "low_relevance"

/-- `_summarize_claims`: how many claims have each verdict. -/
def summarizeClaims (response : AskResponse) : Option (Dict Verdict ℕ) :=
  if response.claims = [] then none
  else
    let verdicts := response.claims.map VerifiedClaim.verdict
    some (Dict.empty.setAll id (fun v => verdicts.count v) verdicts.dedup)

/-- The keyword arguments of `write_history_and_audit`. -/
structure HistoryJob where
  username : String
  question : String
  responseStatus : String
  topContract : Option String
  claimsSummary : Option (Dict Verdict ℕ)

/-- A row of `conversation_turns` or of `audit_log`; `id` and `created_at` are the database's. -/
structure HistoryRow where
  username : String
  question : String
  responseStatus : String
  documentId : Option String
  claimsSummary : Option (Dict Verdict ℕ)
  /-- Bookkeeping: the number of the job that wrote the row. -/
  job : ℕ

structure HistoryTables where
  conversationTurns : List HistoryRow := []
  auditLog : List HistoryRow := []

/-- `HISTORY_JOB_RETRY`, where RQ has a `Retry`. -/
def historyJobRetry : ℕ := 3

/-- `enqueue_history_write`: a failure of the queue is logged, and the turn is not recorded. -/
def enqueueHistoryWrite (enqueue : Except PyError Unit) (username question : String)
    (response : AskResponse) : List (JobQueue.Label HistoryJob) :=
  match enqueue with
  | .ok () => [.enqueue {
      username, question
      responseStatus := response.status.value
      topContract := response.topContract
      claimsSummary := summarizeClaims response }]
  | .error _ => []

/-- What a job inserts into either table. -/
def HistoryJob.row (args : HistoryJob) (job : ℕ) : HistoryRow :=
  { username := args.username, question := args.question, responseStatus := args.responseStatus,
    documentId := args.topContract, claimsSummary := args.claimsSummary, job }

/-- `write_history_and_audit`: the two statements of its transaction. -/
def writeHistoryAndAudit (job : ℕ) (args : HistoryJob) : List (HistoryTables → HistoryTables) :=
  [fun tables => { tables with
      conversationTurns := tables.conversationTurns ++ [args.row job] },
   fun tables => { tables with auditLog := tables.auditLog ++ [args.row job] }]

/-- The queue of `history_queue.py` with the worker of `history_worker.py`. -/
def historyQueue : JobQueue.Queue HistoryJob HistoryTables where
  retries := historyJobRetry
  transaction := writeHistoryAndAudit

/-- A run of the queue and its workers, from empty tables. -/
abbrev HistoryState : Type := JobQueue.State HistoryJob HistoryTables

/-- How often the turn of a job is among the rows. -/
def occurrences (job : ℕ) (rows : List HistoryRow) : ℕ := (rows.map HistoryRow.job).count job

/-! ### What the tables hold -/

/-- **The tables agree**, row by row, and have one row for each commit. -/
theorem tables_follow_commits {s : HistoryState}
    (h : Reach (JobQueue.step historyQueue) (.start {}) s) :
    s.store.conversationTurns = s.store.auditLog ∧
      s.store.auditLog.map HistoryRow.job = s.commits := by
  refine JobQueue.store_invariant (P := fun tables commits =>
    tables.conversationTurns = tables.auditLog ∧ tables.auditLog.map HistoryRow.job = commits)
    ⟨rfl, rfl⟩ ?_ h
  rintro tables commits job args ⟨hsame, hcommits⟩
  refine ⟨congrArg (· ++ [args.row job]) hsame, ?_⟩
  have hmap : (tables.auditLog ++ [args.row job]).map HistoryRow.job = commits ++ [job] := by
    rw [List.map_append, hcommits]
    rfl
  exact hmap

/-- **Each answered turn is recorded** in one table exactly as often as in the other: never more
often than the job is attempted, and at most once where no attempt is lost between its commit and
its being marked as finished. -/
theorem turn_recorded (job : ℕ) :
    (∀ s : HistoryState, Reach (JobQueue.step historyQueue) (.start {}) s →
      occurrences job s.store.conversationTurns = occurrences job s.store.auditLog ∧
        occurrences job s.store.conversationTurns ≤ historyJobRetry + 1) ∧
    ∀ s : HistoryState,
      ReachWhere (JobQueue.step historyQueue) (fun s l => ¬JobQueue.LosesCommit job s l)
          (.start {}) s →
        occurrences job s.store.conversationTurns ≤ 1 := by
  have hcount {s : HistoryState} (h : Reach (JobQueue.step historyQueue) (.start {}) s) :
      occurrences job s.store.conversationTurns = s.commits.count job := by
    obtain ⟨hsame, hcommits⟩ := tables_follow_commits h
    rw [occurrences, hsame, hcommits]
  constructor
  · intro s h
    constructor
    · rw [(tables_follow_commits h).1]
    · rw [hcount h]
      exact JobQueue.count_commits_le h job
  · intro s h
    rw [hcount h.reach]
    exact JobQueue.count_commits_le_one h

/-! ### A turn that is recorded twice -/

/-- An attempt up to and including its commit. -/
def attemptOf (job : ℕ) : List (JobQueue.Label HistoryJob) :=
  [.start job, .statement job, .statement job, .commit job]

/-- A turn is enqueued and written; the worker is lost before the queue learns of it, and the job is
run again. -/
def lostAcknowledgement : List (JobQueue.Label HistoryJob) :=
  enqueueHistoryWrite (.ok ()) "alice" "Which law governs?" (.lowRelevance (some "A")) ++
    attemptOf 0 ++ [.fail 0] ++ attemptOf 0 ++ [.finish 0]

/-- **A turn can be recorded twice.** -/
theorem turn_recorded_twice :
    ¬∀ s : HistoryState, Reach (JobQueue.step historyQueue) (.start {}) s →
      ∀ job, occurrences job s.store.conversationTurns ≤ 1 ∧
        occurrences job s.store.auditLog ≤ 1 := by
  intro h
  have hrun : ((exec (JobQueue.step historyQueue) (.start {}) lostAcknowledgement).map fun s =>
      occurrences 0 s.store.conversationTurns) = some 2 := by
    decide
  obtain ⟨s, hs, htwice⟩ := Option.map_eq_some_iff.mp hrun
  have honce := (h s (reach_of_exec hs) 0).1
  omega

end AuditFlow
