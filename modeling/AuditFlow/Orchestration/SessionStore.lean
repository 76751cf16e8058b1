import AuditFlow.Foundation.LeasedCell
import AuditFlow.Orchestration.Answers
import Mathlib.Data.List.Permutation

/-!
# Concurrent requests of one user

`orchestration/session_store.py` and the critical section of `ask_endpoint` in `main.py`: acquire
the session lock of the user, get the session, run `Sessions.ask` on it, set it, release the lock. A
request whose `ask` raises sets nothing. The session entry and the lock are Redis keys with an
expiry; moments are milliseconds.

The protocol is the leased read-modify-write of the library. `ask_noLostUpdate`: **no session
update is lost** in a run in which each set happens before the lease of its request has expired or
another request has taken the lock over. The lock alone does not ensure that:
`lost_session_update` is a run in which `ask` outlives `LOCK_TIMEOUT_SECONDS`.
-/

namespace AuditFlow

open Foundation Foundation.LeasedCell

/-- `SESSION_TTL_SECONDS`. -/
def sessionTtlSeconds : ℕ := 3600

/-- `LOCK_TIMEOUT_SECONDS`. -/
def lockTimeoutSeconds : ℕ := 10

/-- `ROLE_TTL_SECONDS`. -/
def roleTtlSeconds : List (String × ℕ) :=
  [("viewer", 600), ("employee", 3600), ("ceo", 3600), ("admin", 3600)]

/-- The entry `session:{username}`. -/
structure StoredSession where
  state : SessionState
  expiresAt : ℕ
  deriving DecidableEq, Repr

/-- `SessionStore.get`: a fresh state when there is no entry, or none any more. -/
def SessionStore.get (entry : Option StoredSession) (now : ℕ) : SessionState :=
  match entry with
  | none => {}
  | some stored => if now < stored.expiresAt then stored.state else {}

/-- `SessionStore.set`, with the time to live of the role. -/
def SessionStore.set (state : SessionState) (role : String) (now : ℕ) : Option StoredSession :=
  let ttl := (roleTtlSeconds.lookup role).getD sessionTtlSeconds
  some { state, expiresAt := now + 1000 * ttl }

/-- One `/ask` request: what it asks, as which role, and how everything outside the repository
behaves while it runs. -/
structure AskRequest where
  question : String
  role : String
  world : World

/-- The state that `pipeline.ask` leaves, if it returns. -/
def AskRequest.run (r : AskRequest) (state : SessionState) : Option SessionState :=
  match ask r.world r.question { session := state } with
  | (.ok _, c) => some c.session
  | (.error _, _) => none

/-- The critical sections of the requests of one user. -/
def askProtocol (requests : ℕ → AskRequest) : Protocol ℕ SessionState (Option StoredSession) where
  timeout := 1000 * lockTimeoutSeconds
  view := SessionStore.get
  body i state := (requests i).run state
  put i state now := SessionStore.set state (requests i).role now

/-- A request sets the session before its lease has expired, or at least before another request
has acquired the lock. -/
def SetsInTime (s : State ℕ SessionState (Option StoredSession)) : Label ℕ → Prop
  | .set i => s.now < s.acquiredAt i + 1000 * lockTimeoutSeconds ∨ s.owner = some i
  | _ => True

instance (s : State ℕ SessionState (Option StoredSession)) (l : Label ℕ) :
    Decidable (SetsInTime s l) :=
  match l with
  | .set _ => inferInstanceAs (Decidable (_ < _ ∨ _ = _))
  | .tick _ | .acquire _ | .giveUp _ | .get _ | .compute _ | .release _ =>
    inferInstanceAs (Decidable True)

section

variable {requests : ℕ → AskRequest} {c₀ : Option StoredSession}
  {s : State ℕ SessionState (Option StoredSession)}

/-- Setting in time is setting as owner. -/
private theorem writesAsOwner_of_setsInTime {s' : State ℕ SessionState (Option StoredSession)}
    {l : Label ℕ} (h : Reach (step (askProtocol requests)) (State.initial c₀) s)
    (hok : SetsInTime s l) (hstep : step (askProtocol requests) s l = some s') :
    WritesAsOwner s l := by
  cases step_effect hstep with
  | @set i t v hcomputed =>
    have hholding : (s.phase i).Holding := by
      rw [hcomputed]
      trivial
    rcases hok with hunexpired | howner
    · exact owner_of_unexpired h hholding hunexpired
    · exact howner
  | tick | acquire | giveUp | get | compute | fail | release => exact trivial

/-- **No session update is lost** as long as each request sets the session before its lease has
expired or another request has acquired the lock: then the session stored is what the requests
whose set took effect make of the initial one, one after another. -/
theorem ask_noLostUpdate
    (h : ReachWhere (step (askProtocol requests)) SetsInTime (State.initial c₀) s) :
    NoLostUpdate (askProtocol requests) c₀ s := by
  have howner : ReachWhere (step (askProtocol requests)) WritesAsOwner (State.initial c₀) s := by
    induction h with
    | start => exact .start
    | next h hok hstep ih =>
      exact ih.next (writesAsOwner_of_setsInTime h.reach hok hstep) hstep
  exact noLostUpdate_of_reachWhere howner

end

/-! ### Concrete runs -/

/-- Request `0` is asked back, every other request is declined in favour of contract `A`. -/
def sampleRequests (i : ℕ) : AskRequest :=
  if i = 0 then
    { question := "Which law governs?", role := "employee"
      world := sampleWorld [0, 0, 0, 1, 1] "A::1" }
  else
    { question := "What is the notice period?", role := "employee"
      world := sampleWorld [1/5, 1/5, 1/5, 0, 0] "A::1" }

/-- One request after the other. -/
def promptRun : List (Label ℕ) :=
  [.acquire 0, .get 0, .compute 0, .tick 9999, .set 0, .release 0,
   .acquire 1, .get 1, .compute 1, .set 1, .release 1]

/-- `ask_noLostUpdate` at two requests that set in time. -/
theorem ask_noLostUpdate_prompt :
    ∃ s, execWhere (step (askProtocol sampleRequests)) SetsInTime (State.initial none) promptRun =
        some s ∧ NoLostUpdate (askProtocol sampleRequests) none s := by
  have hrun : (execWhere (step (askProtocol sampleRequests)) SetsInTime (State.initial none)
      promptRun).isSome = true := by decide +kernel
  obtain ⟨s, hs⟩ := Option.isSome_iff_exists.mp hrun
  exact ⟨s, hs, ask_noLostUpdate (ReachWhere.start.exec hs)⟩

/-- `ask` of request `0` takes ten seconds; request `1` takes the lock over and sets the session
before request `0` does. -/
def slowRun : List (Label ℕ) :=
  [.acquire 0, .get 0, .compute 0, .tick 10000,
   .acquire 1, .get 1, .compute 1, .set 1, .release 1, .set 0]

/-- **A session update is lost**: request `0` overwrites what request `1` has set. -/
theorem lost_session_update :
    ∃ s, exec (step (askProtocol sampleRequests)) (State.initial none) slowRun = some s ∧
      ¬NoLostUpdate (askProtocol sampleRequests) none s := by
  have hrun : (exec (step (askProtocol sampleRequests)) (State.initial none) slowRun).map
      (fun s => (s.cell, s.log)) =
        some (some { state := { pendingQuestion := some "Which law governs?"
                                pendingCandidates := ["B", "A"] }
                     expiresAt := 3610000 },
              [⟨1, 10000, 10000⟩, ⟨0, 0, 10000⟩]) := by decide +kernel
  obtain ⟨s, hs, hfinal⟩ := Option.map_eq_some_iff.mp hrun
  obtain ⟨hcell, hlog⟩ := Prod.mk.inj hfinal
  refine ⟨s, hs, ?_⟩
  rintro ⟨order, horder, hserial⟩
  rw [hlog] at horder
  rw [hcell] at hserial
  rcases List.perm_pair.mp horder with rfl | rfl
  · exact absurd hserial (by decide +kernel)
  · exact absurd hserial (by decide +kernel)

end AuditFlow
