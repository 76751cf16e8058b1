import AuditFlow.Foundation.KeyStore
import AuditFlow.Orchestration.SessionStore

/-!
# The endpoint

`ask_endpoint` of `main.py`, command by command: the lock of the user is acquired, the session is
read, `Sessions.ask` runs on it, the session is written, the lock is released, and the turn is
pushed onto the user's list of recent turns. All of this goes to keys of one Redis database. Any
command may fail to reach Redis, or take effect with its answer lost.

A request that fails is answered with an error, and the user is told to try again. **That does not
mean that nothing has happened**: behind the write of the session, the lost answer to it, the
release of an expired lock and the list of recent turns can still fail. `failed_ask_iff` says that
these are the only ways in which a failed request leaves another session behind; `turn_committed`
is one of them.
-/

namespace AuditFlow

open Foundation

/-! ### Keys and values -/

/-- `RECENT_TURNS_LIMIT`. -/
def recentTurnsLimit : ℕ := 5

/-- `session:{username}`. -/
def sessionKey (username : String) : String := "session:" ++ username

/-- `session-lock:{username}`. -/
def lockKey (username : String) : String := "session-lock:" ++ username

/-- `recent:{username}`. -/
def recentKey (username : String) : String := "recent:" ++ username

/-- An entry of the list of recent turns. -/
structure RecentTurn where
  question : String
  status : AskStatus
  documentId : Option String
  deriving DecidableEq, Repr

/-- What is stored under a key; moments are milliseconds. -/
inductive RedisEntry
  | session (stored : StoredSession)
  | lock (token : String) (expiresAt : ℕ)
  | turns (turns : List RecentTurn) (expiresAt : ℕ)
  | counter (n : ℕ)
  deriving DecidableEq, Repr

/-- A key does not outlive its time to live. -/
def RedisEntry.live (now : ℕ) : RedisEntry → Bool
  | session stored => decide (now < stored.expiresAt)
  | lock _ expiresAt | turns _ expiresAt => decide (now < expiresAt)
  | counter _ => true

/-- What a command finds under its key. -/
def found (now : ℕ) (entry : Option RedisEntry) : Option RedisEntry := entry.filter (·.live now)

/-! ### Exceptions -/

/-- `except (RedisConnectionError, TimeoutError)`. -/
def ErrorClass.isUnavailable : ErrorClass → Bool
  | .redisConnectionError _ | .timeoutError => true
  | _ => false

/-- A command on a key that holds another type. -/
def wrongType : PyError where
  cls := .external "redis.exceptions.ResponseError"
  message := "WRONGTYPE Operation against a key holding the wrong kind of value"

/-- The lock is released when it has expired, or another request has acquired it. -/
def lockNotOwned : PyError where
  cls := .external "redis.exceptions.LockNotOwnedError"
  message := "Cannot release a lock that's no longer owned"

/-- An error response. -/
structure HttpError where
  status : ℕ
  error : Option String := none
  message : String
  detail : List (String × String) := []
  deriving DecidableEq, Repr

/-- `http_status` and the name of an `AuditFlowError`. -/
def ErrorClass.auditFlow : ErrorClass → Option (ℕ × String)
  | .retrievalError => some (502, "RetrievalError")
  | .generationError => some (502, "GenerationError")
  | .verificationError => some (502, "VerificationError")
  | .ingestionError => some (502, "IngestionError")
  | .authenticationError => some (401, "AuthenticationError")
  | _ => none

/-- The response to an exception: the endpoint's own handler first, then those of
`register_exception_handlers`. -/
def httpErrorOf (e : PyError) : HttpError :=
  if e.cls.isUnavailable then
    { status := 503, message := "Session service temporarily unavailable, please retry" }
  else
    match e.cls.auditFlow with
    | some (status, name) =>
      { status, error := some name, message := e.message, detail := e.detail }
    | none => { status := 500, error := some "InternalError", message := "Something went wrong." }

/-! ### Commands -/

/-- The commands of a request. -/
inductive RedisOp
  | acquire
  | get
  | set
  | release
  | pushRecentTurn
  | bumpIndexVersion
  | getIndexVersion
  deriving DecidableEq, Repr

/-- `SET … NX PX`: the lock is taken if its key is free. -/
def acquireLock (token : String) (now : ℕ) (entry : Option RedisEntry) :
    Except PyError Bool × Option RedisEntry :=
  match found now entry with
  | some _ => (.ok false, entry)
  | none => (.ok true, some (.lock token (now + 1000 * lockTimeoutSeconds)))

/-- The script that deletes a lock if it still has the token. -/
def releaseLock (token : String) (now : ℕ) (entry : Option RedisEntry) :
    Except PyError Unit × Option RedisEntry :=
  match found now entry with
  | some (.lock holder _) =>
    if holder = token then (.ok (), none) else (.error lockNotOwned, entry)
  | some (.turns _ _) => (.error wrongType, entry)
  | _ => (.error lockNotOwned, entry)

/-- `GET` of the session; a fresh state when there is none. -/
def getSession (now : ℕ) (entry : Option RedisEntry) :
    Except PyError SessionState × Option RedisEntry :=
  match found now entry with
  | some (.session stored) => (.ok (SessionStore.get (some stored) now), entry)
  | some _ => (.error wrongType, entry)
  | none => (.ok (SessionStore.get none now), entry)

/-- `SET` of the session. -/
def setSession (state : SessionState) (role : String) (now : ℕ) (_ : Option RedisEntry) :
    Except PyError Unit × Option RedisEntry :=
  (.ok (), (SessionStore.set state role now).map .session)

/-- `LPUSH`, `LTRIM` and `EXPIRE` in one transaction. -/
def pushTurn (turn : RecentTurn) (now : ℕ) (entry : Option RedisEntry) :
    Except PyError Unit × Option RedisEntry :=
  let expiresAt := now + 1000 * sessionTtlSeconds
  match found now entry with
  | none => (.ok (), some (.turns [turn] expiresAt))
  | some (.turns turns _) =>
    (.ok (), some (.turns ((turn :: turns).take recentTurnsLimit) expiresAt))
  | some _ => (.error wrongType, entry)

/-! ### The endpoint -/

/-- A program of Redis commands. -/
abbrev Redis (α : Type) : Type 1 := Program RedisOp String RedisEntry PyError α

/-- A request to `/ask`: who asks, as which role, the token of its lock, and how often it tries
again before `blocking_timeout` has passed. -/
structure AskCall where
  username : String
  role : String
  question : String
  token : String
  retries : ℕ := 0

/-- `lock.acquire()`. -/
def acquire (username token : String) (retries : ℕ) : Redis (Except PyError Bool) :=
  .command .acquire (lockKey username) (acquireLock token) fun
    | .ok false =>
      match retries with
      | 0 => .done (.ok false)
      | n + 1 => acquire username token n
    | r => .done r

/-- `SessionStore.locked` around a body; what the release raises takes the place of the outcome. -/
def locked {α : Type} (username token : String) (retries : ℕ) (body : Redis (Except PyError α)) :
    Redis (Except PyError α) :=
  (acquire username token retries).bind fun
    | .error e => .done (.error e)
    | .ok false => .done (.error {
        cls := .timeoutError, message := s!"Could not acquire session lock for {username}" })
    | .ok true => body.bind fun r =>
      .command .release (lockKey username) (releaseLock token) fun
        | .error e => .done (.error e)
        | .ok () => .done r

/-- `Sessions.ask` on the state that was read, and the write of what it leaves. -/
def askAndSet (w : World) (r : AskCall) (state : SessionState) :
    Redis (Except PyError AskResponse) :=
  match ask w r.question { session := state } with
  | (.error e, _) => .done (.error e)
  | (.ok response, c) =>
    .command .set (sessionKey r.username) (setSession c.session r.role) fun
      | .error e => .done (.error e)
      | .ok () => .done (.ok response)

/-- Between acquiring and releasing: get, ask, set. -/
def sessionTurn (w : World) (r : AskCall) : Redis (Except PyError AskResponse) :=
  .command .get (sessionKey r.username) getSession fun
    | .error e => .done (.error e)
    | .ok state => askAndSet w r state

/-- `SessionStore.push_recent_turn`. -/
def pushRecentTurn (r : AskCall) (response : AskResponse) : Redis (Except PyError Unit) :=
  .command .pushRecentTurn (recentKey r.username)
    (pushTurn { question := r.question, status := response.status
                documentId := response.topContract }) .done

/-- `ask_endpoint`. -/
def askEndpoint (w : World) (r : AskCall) : Redis (Except HttpError AskResponse) :=
  (locked r.username r.token r.retries (sessionTurn w r)).bind fun
    | .error e => .done (.error (httpErrorOf e))
    | .ok response => (pushRecentTurn r response).bind fun
      | .error e => .done (.error (httpErrorOf e))
      -- `enqueue_history_write` swallows its exceptions, and writes to another database
      | .ok () => .done (.ok response)

/-! ### What a request commits -/

/-- What the protocol of concurrent requests says about the request. -/
def AskCall.request (r : AskCall) (w : World) : AskRequest :=
  { question := r.question, role := r.role, world := w }

/-- The stored session of a user, seen at a moment. -/
def storedSession (s : String → Option RedisEntry) (username : String) (t : ℕ) : SessionState :=
  match found t (s (sessionKey username)) with
  | some (.session stored) => SessionStore.get (some stored) t
  | _ => SessionStore.get none t

section

variable (w : World) (r : AskCall) (now : RedisOp → ℕ) (delivery : RedisOp → Delivery PyError)
  (s : String → Option RedisEntry)

/-- The request acquires the lock and reads the session, `Sessions.ask` returns and leaves `state`,
and the write of `state` reaches Redis. -/
structure CommitsTo (state : SessionState) : Prop where
  acquired : ((delivery .acquire).apply (acquireLock r.token) (now .acquire)
    (s (lockKey r.username))).1 = .ok true
  asked : ∃ before, ((delivery .get).apply getSession (now .get)
      (s (sessionKey r.username))).1 = .ok before ∧ (r.request w).run before = some state
  applied : ∀ e, delivery .set ≠ .refused e

/-- Something fails behind the write of the session. -/
inductive FailsLate : Prop
  | setLost (h : delivery .set ≠ .answered)
  | releaseLost (h : delivery .release ≠ .answered)
  | lockExpired (h : now .acquire + 1000 * lockTimeoutSeconds ≤ now .release)
  | pushLost (h : delivery .pushRecentTurn ≠ .answered)
  | notTurns {entry : RedisEntry}
      (h : found (now .pushRecentTurn) (s (recentKey r.username)) = some entry)
      (hentry : ∀ turns expiresAt, entry ≠ .turns turns expiresAt)

end

/-! ### Stage by stage -/

section

variable {w : World} {r : AskCall} {now : RedisOp → ℕ} {delivery : RedisOp → Delivery PyError}
  {s : String → Option RedisEntry} {state : SessionState}

theorem sessionKey_ne_lockKey (u v : String) : sessionKey u ≠ lockKey v := by
  intro h
  have htake := congrArg (fun s : String => s.toList[7]?) h
  simp [sessionKey, lockKey] at htake

theorem sessionKey_ne_recentKey (u v : String) : sessionKey u ≠ recentKey v := by
  intro h
  have htake := congrArg (fun s : String => s.toList[0]?) h
  simp [sessionKey, recentKey] at htake

theorem lockKey_ne_recentKey (u v : String) : lockKey u ≠ recentKey v := by
  intro h
  have htake := congrArg (fun s : String => s.toList[0]?) h
  simp [lockKey, recentKey] at htake

/-- A lock that is not free stays as it is. -/
private theorem acquireLock_of_false {now : ℕ} {token : String} {entry : Option RedisEntry}
    (h : (acquireLock token now entry).1 = .ok false) :
    (acquireLock token now entry).2 = entry := by
  rw [acquireLock] at h ⊢
  rcases hfound : found now entry with - | e
  · rw [hfound] at h
    cases h
  · rfl

/-- At one moment, all attempts to acquire the lock end like the first one. -/
theorem acquire_run (username token : String) (retries : ℕ) :
    (acquire username token retries).run now delivery s =
      (((delivery .acquire).apply (acquireLock token) (now .acquire) (s (lockKey username))).1,
        Function.update s (lockKey username) ((delivery .acquire).apply (acquireLock token)
          (now .acquire) (s (lockKey username))).2) := by
  induction retries with
  | zero =>
    rw [acquire, Program.run]
    rcases ((delivery .acquire).apply (acquireLock token) (now .acquire)
      (s (lockKey username))).1 with e | (_ | _)
    · rfl
    · rfl
    · rfl
  | succ n ih =>
    rw [acquire, Program.run]
    rcases hanswer : ((delivery .acquire).apply (acquireLock token) (now .acquire)
      (s (lockKey username))).1 with e | (_ | _)
    · rfl
    · have hsame : ((delivery .acquire).apply (acquireLock token) (now .acquire)
          (s (lockKey username))).2 = s (lockKey username) := by
        rcases hdelivery : delivery .acquire with - | e | e
        · rw [hdelivery] at hanswer
          exact acquireLock_of_false hanswer
        · rfl
        · rw [hdelivery] at hanswer
          cases hanswer
      dsimp only
      rw [hsame, Function.update_eq_self, ih, hanswer, hsame, Function.update_eq_self]
    · rfl

/-- Reading the session changes nothing. -/
private theorem getSession_snd (now : ℕ) (entry : Option RedisEntry) :
    (getSession now entry).2 = entry := by
  rw [getSession]
  split
  · rfl
  · rfl
  · rfl

private theorem apply_getSession_snd (delivery : Delivery PyError) (now : ℕ)
    (entry : Option RedisEntry) : (delivery.apply getSession now entry).2 = entry := by
  cases delivery with
  | answered => exact getSession_snd now entry
  | refused e => rfl
  | lost e => exact getSession_snd now entry

/-- **Get, ask, set**: either the new session is written, and the answer to that is all that can
still be missing, or nothing is written and the outcome is an error. -/
private theorem sessionTurn_run (w : World) (r : AskCall) (now : RedisOp → ℕ)
    (delivery : RedisOp → Delivery PyError) (s : String → Option RedisEntry) :
    (∃ before response state, ((delivery .get).apply getSession (now .get)
          (s (sessionKey r.username))).1 = .ok before ∧
        (r.request w).run before = some state ∧ (∀ e, delivery .set ≠ .refused e) ∧
        ((sessionTurn w r).run now delivery s).2 = Function.update s (sessionKey r.username)
          ((SessionStore.set state r.role (now .set)).map .session) ∧
        (((sessionTurn w r).run now delivery s).1 = .ok response ∧ delivery .set = .answered ∨
          (∃ e, ((sessionTurn w r).run now delivery s).1 = .error e) ∧
            delivery .set ≠ .answered)) ∨
      (∃ e, (sessionTurn w r).run now delivery s = (.error e, s)) ∧
        ∀ before state, ((delivery .get).apply getSession (now .get)
          (s (sessionKey r.username))).1 = .ok before →
        (r.request w).run before = some state → ∃ e, delivery .set = .refused e := by
  rw [sessionTurn, Program.run, apply_getSession_snd, Function.update_eq_self]
  rcases hget : ((delivery .get).apply getSession (now .get)
    (s (sessionKey r.username))).1 with e | before
  · exact Or.inr ⟨⟨e, rfl⟩, fun _ _ h => nomatch h⟩
  · dsimp only
    rcases hask : ask w r.question { session := before } with ⟨e | response, c⟩
    · have hrun : (r.request w).run before = none := by
        rw [AskRequest.run, AskCall.request, hask]
      have hprogram : askAndSet w r before = .done (.error e) := by rw [askAndSet, hask]
      rw [hprogram]
      refine Or.inr ⟨⟨e, rfl⟩, fun before' state hbefore hstate => ?_⟩
      obtain rfl := Except.ok.inj hbefore
      rw [hrun] at hstate
      cases hstate
    · have hrun : (r.request w).run before = some c.session := by
        rw [AskRequest.run, AskCall.request, hask]
      have hprogram : askAndSet w r before =
          .command .set (sessionKey r.username) (setSession c.session r.role) fun
            | .error e => .done (.error e)
            | .ok () => .done (.ok response) := by rw [askAndSet, hask]
      rw [hprogram, Program.run]
      rcases hset : delivery .set with - | e | e
      · exact Or.inl ⟨before, response, c.session, rfl, hrun, (fun e h => nomatch h), rfl,
          Or.inl ⟨rfl, rfl⟩⟩
      · refine Or.inr ⟨⟨e, ?_⟩, fun _ _ _ _ => ⟨e, rfl⟩⟩
        dsimp only [Delivery.apply]
        rw [Function.update_eq_self]
        rfl
      · exact Or.inl ⟨before, response, c.session, rfl, hrun, (fun e h => nomatch h), rfl,
          Or.inr ⟨⟨e, rfl⟩, fun h => nomatch h⟩⟩

/-- A lock that was acquired holds the token of the request. -/
private theorem acquired_entry {entry : Option RedisEntry}
    (h : ((delivery .acquire).apply (acquireLock r.token) (now .acquire) entry).1 = .ok true) :
    ((delivery .acquire).apply (acquireLock r.token) (now .acquire) entry).2 =
      some (.lock r.token (now .acquire + 1000 * lockTimeoutSeconds)) := by
  rcases hdelivery : delivery .acquire with - | e | e
  · rw [hdelivery, Delivery.apply, acquireLock] at h
    rw [Delivery.apply, acquireLock]
    rcases hfound : found (now .acquire) entry with - | e
    · rfl
    · rw [hfound] at h
      cases h
  · rw [hdelivery] at h
    cases h
  · rw [hdelivery] at h
    cases h

/-- Without the lock, the body does not run. -/
private theorem locked_run_of_refused {α : Type} (body : Redis (Except PyError α))
    (h : ((delivery .acquire).apply (acquireLock r.token) (now .acquire)
      (s (lockKey r.username))).1 ≠ .ok true) :
    ∃ e v, (locked r.username r.token r.retries body).run now delivery s =
      (.error e, Function.update s (lockKey r.username) v) := by
  rw [locked, Program.run_bind, acquire_run]
  rcases hanswer : ((delivery .acquire).apply (acquireLock r.token) (now .acquire)
    (s (lockKey r.username))).1 with e | (_ | _)
  · exact ⟨_, _, rfl⟩
  · exact ⟨_, _, rfl⟩
  · exact absurd hanswer h

/-- Releasing a lock that still has its token succeeds until it expires. -/
private theorem release_apply (r : AskCall) (now : RedisOp → ℕ)
    (delivery : RedisOp → Delivery PyError) (expiresAt : ℕ) :
    (((delivery .release).apply (releaseLock r.token) (now .release)
          (some (.lock r.token expiresAt))).1 = .ok () ∧
        delivery .release = .answered ∧ now .release < expiresAt) ∨
      (∃ e, ((delivery .release).apply (releaseLock r.token) (now .release)
          (some (.lock r.token expiresAt))).1 = .error e) ∧
        (delivery .release = .answered → expiresAt ≤ now .release) := by
  rcases hdelivery : delivery .release with - | e | e
  · rw [Delivery.apply, releaseLock, found, Option.filter_some, RedisEntry.live]
    by_cases hlive : now .release < expiresAt
    · rw [if_pos (decide_eq_true hlive)]
      refine Or.inl ⟨?_, rfl, hlive⟩
      dsimp only
      rw [if_pos rfl]
    · rw [if_neg (by simpa using hlive)]
      exact Or.inr ⟨⟨_, rfl⟩, fun _ => Nat.le_of_not_lt hlive⟩
  · exact Or.inr ⟨⟨e, rfl⟩, fun h => nomatch h⟩
  · exact Or.inr ⟨⟨e, rfl⟩, fun h => nomatch h⟩

/-- With the lock, the body runs, and what the release raises takes the place of its outcome. -/
private theorem locked_run_of_acquired {α : Type} {body : Redis (Except PyError α)}
    (h : ((delivery .acquire).apply (acquireLock r.token) (now .acquire)
      (s (lockKey r.username))).1 = .ok true) {s₂ : String → Option RedisEntry}
    {outcome : Except PyError α}
    (hbody : body.run now delivery (Function.update s (lockKey r.username)
      (some (.lock r.token (now .acquire + 1000 * lockTimeoutSeconds)))) = (outcome, s₂))
    (hs₂ : s₂ (lockKey r.username) =
      some (.lock r.token (now .acquire + 1000 * lockTimeoutSeconds))) :
    ∃ result v, (locked r.username r.token r.retries body).run now delivery s =
        (result, Function.update s₂ (lockKey r.username) v) ∧
      ((result = outcome ∧ delivery .release = .answered ∧
          now .release < now .acquire + 1000 * lockTimeoutSeconds) ∨
        (∃ e, result = .error e) ∧ (delivery .release = .answered →
          now .acquire + 1000 * lockTimeoutSeconds ≤ now .release)) := by
  rw [locked, Program.run_bind, acquire_run, h, acquired_entry h]
  dsimp only
  rw [Program.run_bind, hbody]
  dsimp only
  rw [Program.run, hs₂]
  rcases release_apply r now delivery (now .acquire + 1000 * lockTimeoutSeconds) with
    ⟨hok, hreleased⟩ | ⟨⟨e, herror⟩, hlate⟩
  · rw [hok]
    exact ⟨_, _, rfl, Or.inl ⟨rfl, hreleased⟩⟩
  · rw [herror]
    exact ⟨_, _, rfl, Or.inr ⟨⟨e, rfl⟩, hlate⟩⟩

/-- Pushing a turn fails if Redis is not heard of, or another type is stored under the key. -/
private theorem push_apply (now : RedisOp → ℕ) (delivery : RedisOp → Delivery PyError)
    (turn : RecentTurn) (entry : Option RedisEntry) :
    (((delivery .pushRecentTurn).apply (pushTurn turn) (now .pushRecentTurn) entry).1 = .ok () ∧
        delivery .pushRecentTurn = .answered ∧ ∀ e, found (now .pushRecentTurn) entry = some e →
          ∃ turns expiresAt, e = .turns turns expiresAt) ∨
      (∃ e, ((delivery .pushRecentTurn).apply (pushTurn turn) (now .pushRecentTurn) entry).1 =
          .error e) ∧
        (delivery .pushRecentTurn = .answered → ∃ e, found (now .pushRecentTurn) entry = some e ∧
          ∀ turns expiresAt, e ≠ .turns turns expiresAt) := by
  rcases hdelivery : delivery .pushRecentTurn with - | e | e
  · rw [Delivery.apply, pushTurn]
    rcases hfound : found (now .pushRecentTurn) entry with - | e
    · exact Or.inl ⟨rfl, rfl, fun e h => nomatch h⟩
    · cases e with
      | turns turns expiresAt =>
        refine Or.inl ⟨rfl, rfl, fun e he => ⟨turns, expiresAt, ?_⟩⟩
        exact (Option.some.inj he).symm
      | session | lock | counter =>
        exact Or.inr ⟨⟨_, rfl⟩, fun _ => ⟨_, rfl, fun _ _ h => nomatch h⟩⟩
  · exact Or.inr ⟨⟨e, rfl⟩, fun h => nomatch h⟩
  · exact Or.inr ⟨⟨e, rfl⟩, fun h => nomatch h⟩

/-- What comes behind the lock: errors become responses, and a response is pushed first. -/
private theorem askEndpoint_run {result : Except PyError AskResponse}
    {s' : String → Option RedisEntry}
    (h : (locked r.username r.token r.retries (sessionTurn w r)).run now delivery s =
      (result, s')) :
    ((∃ e, result = .error e) → ∃ e, (askEndpoint w r).run now delivery s = (.error e, s')) ∧
      ∀ response, result = .ok response → ∃ result' v,
        (askEndpoint w r).run now delivery s =
            (result', Function.update s' (recentKey r.username) v) ∧
          ((∃ e, result' = .error e) ↔ delivery .pushRecentTurn ≠ .answered ∨
            ∃ entry, found (now .pushRecentTurn) (s' (recentKey r.username)) = some entry ∧
              ∀ turns expiresAt, entry ≠ .turns turns expiresAt) := by
  rw [askEndpoint, Program.run_bind, h]
  constructor
  · rintro ⟨e, rfl⟩
    exact ⟨_, rfl⟩
  · rintro response rfl
    dsimp only
    rw [Program.run_bind, pushRecentTurn, Program.run]
    rcases push_apply now delivery
      { question := r.question, status := response.status, documentId := response.topContract }
      (s' (recentKey r.username)) with ⟨hok, hanswered, hturns⟩ | ⟨⟨e, herror⟩, hnot⟩
    · rw [hok]
      refine ⟨_, _, rfl, iff_of_false (fun ⟨e, he⟩ => nomatch he) ?_⟩
      rintro (hne | ⟨entry, hentry, hother⟩)
      · exact hne hanswered
      · obtain ⟨turns, expiresAt, rfl⟩ := hturns entry hentry
        exact hother turns expiresAt rfl
    · rw [herror]
      refine ⟨_, _, rfl, iff_of_true ⟨_, rfl⟩ ?_⟩
      by_cases hanswered : delivery .pushRecentTurn = .answered
      · exact Or.inr (hnot hanswered)
      · exact Or.inl hanswered

/-- A request that commits nothing leaves the session alone. -/
private theorem run_of_not_commits (h : ∀ state, ¬CommitsTo w r now delivery s state) :
    ((askEndpoint w r).run now delivery s).2 (sessionKey r.username) =
      s (sessionKey r.username) := by
  have hlock : sessionKey r.username ≠ lockKey r.username := sessionKey_ne_lockKey _ _
  by_cases hacquired : ((delivery .acquire).apply (acquireLock r.token) (now .acquire)
      (s (lockKey r.username))).1 = .ok true
  · rcases sessionTurn_run w r now delivery (Function.update s (lockKey r.username)
        (some (.lock r.token (now .acquire + 1000 * lockTimeoutSeconds)))) with
      ⟨before, response, state, hget, hstate, happlied, -⟩ | ⟨⟨e, hturn⟩, -⟩
    · rw [Function.update_of_ne hlock] at hget
      exact absurd ⟨hacquired, ⟨before, hget, hstate⟩, happlied⟩ (h state)
    · obtain ⟨result, v, hlocked, hresult⟩ :=
        locked_run_of_acquired hacquired hturn (Function.update_self _ _ _)
      have herror : ∃ e, result = .error e := by
        rcases hresult with ⟨rfl, -⟩ | ⟨herror, -⟩
        · exact ⟨e, rfl⟩
        · exact herror
      obtain ⟨e', hrun⟩ := (askEndpoint_run hlocked).1 herror
      rw [hrun]
      dsimp only
      rw [Function.update_of_ne hlock, Function.update_of_ne hlock]
  · obtain ⟨e, v, hlocked⟩ := locked_run_of_refused (sessionTurn w r) hacquired
    obtain ⟨e', hrun⟩ := (askEndpoint_run hlocked).1 ⟨e, rfl⟩
    rw [hrun]
    dsimp only
    rw [Function.update_of_ne hlock]

/-- **A request that commits** writes its session, and fails exactly if something fails late. -/
private theorem run_of_commits (h : CommitsTo w r now delivery s state) :
    ((askEndpoint w r).run now delivery s).2 (sessionKey r.username) =
        (SessionStore.set state r.role (now .set)).map .session ∧
      ((∃ e, ((askEndpoint w r).run now delivery s).1 = .error e) ↔
        FailsLate r now delivery s) := by
  have hlock : sessionKey r.username ≠ lockKey r.username := sessionKey_ne_lockKey _ _
  have hrecent : sessionKey r.username ≠ recentKey r.username := sessionKey_ne_recentKey _ _
  have hlockRecent : lockKey r.username ≠ recentKey r.username := lockKey_ne_recentKey _ _
  obtain ⟨before₀, hget₀, hstate₀⟩ := h.asked
  have hturn := sessionTurn_run w r now delivery (Function.update s (lockKey r.username)
    (some (.lock r.token (now .acquire + 1000 * lockTimeoutSeconds))))
  rw [Function.update_of_ne hlock] at hturn
  rcases hrun : (sessionTurn w r).run now delivery (Function.update s (lockKey r.username)
    (some (.lock r.token (now .acquire + 1000 * lockTimeoutSeconds)))) with ⟨outcome, s₂⟩
  rw [hrun] at hturn
  rcases hturn with ⟨before, response, state', hget, hstate, -, hstore, houtcome⟩ | ⟨-, hnot⟩
  · obtain rfl := Except.ok.inj (hget₀.symm.trans hget)
    obtain rfl := Option.some.inj (hstate₀.symm.trans hstate)
    dsimp only at hstore houtcome
    have hsession : s₂ (sessionKey r.username) =
        (SessionStore.set state r.role (now .set)).map .session := by
      rw [hstore, Function.update_self]
    have hheld : s₂ (lockKey r.username) =
        some (.lock r.token (now .acquire + 1000 * lockTimeoutSeconds)) := by
      rw [hstore, Function.update_of_ne hlock.symm, Function.update_self]
    have hturns : s₂ (recentKey r.username) = s (recentKey r.username) := by
      rw [hstore, Function.update_of_ne hrecent.symm, Function.update_of_ne hlockRecent.symm]
    obtain ⟨result, v, hlocked, hresult⟩ := locked_run_of_acquired h.acquired hrun hheld
    -- an error behind the write is an error response, and the session has been written
    have hfails : (∃ e, result = .error e) → FailsLate r now delivery s →
        ((askEndpoint w r).run now delivery s).2 (sessionKey r.username) =
            (SessionStore.set state r.role (now .set)).map .session ∧
          ((∃ e, ((askEndpoint w r).run now delivery s).1 = .error e) ↔
            FailsLate r now delivery s) := by
      intro herror hlate
      obtain ⟨e', hendpoint⟩ := (askEndpoint_run hlocked).1 herror
      rw [hendpoint]
      dsimp only
      rw [Function.update_of_ne hlock]
      exact ⟨hsession, iff_of_true ⟨e', rfl⟩ hlate⟩
    rcases hresult with ⟨rfl, hreleased, hunexpired⟩ | ⟨herror, hexpired⟩
    · rcases houtcome with ⟨rfl, hset⟩ | ⟨herror, hset⟩
      · obtain ⟨result', v', hendpoint, hpush⟩ := (askEndpoint_run hlocked).2 response rfl
        rw [Function.update_of_ne hlockRecent.symm, hturns] at hpush
        rw [hendpoint]
        dsimp only
        rw [Function.update_of_ne hrecent, Function.update_of_ne hlock]
        refine ⟨hsession, hpush.trans ⟨?_, ?_⟩⟩
        · rintro (hlost | ⟨entry, hentry, hother⟩)
          · exact .pushLost hlost
          · exact .notTurns hentry hother
        · intro hlate
          cases hlate with
          | setLost hlost => exact absurd hset hlost
          | releaseLost hlost => exact absurd hreleased hlost
          | lockExpired hexpired => omega
          | pushLost hlost => exact Or.inl hlost
          | notTurns hentry hother => exact Or.inr ⟨_, hentry, hother⟩
      · exact hfails herror (.setLost hset)
    · refine hfails herror ?_
      by_cases hreleased : delivery .release = .answered
      · exact .lockExpired (hexpired hreleased)
      · exact .releaseLost hreleased
  · obtain ⟨e, he⟩ := hnot before₀ state hget₀ hstate₀
    exact absurd he (h.applied e)

/-! ### Failed requests -/

/-- Every role has a time to live. -/
theorem roleTtl_pos (role : String) :
    0 < (roleTtlSeconds.lookup role).getD sessionTtlSeconds := by
  have hall : ∀ entry ∈ roleTtlSeconds, 0 < entry.2 := by decide
  rcases hlookup : roleTtlSeconds.lookup role with - | ttl
  · decide
  · obtain ⟨l₁, l₂, hsplit, -⟩ := List.lookup_eq_some_iff.mp hlookup
    refine hall (role, ttl) ?_
    rw [hsplit]
    exact List.mem_append_right l₁ List.mem_cons_self

/-- A session that is written is there, seen from a moment before the write. -/
private theorem storedSession_of_set {role : String} {setAt start : ℕ} (hstart : start ≤ setAt)
    (h : s (sessionKey r.username) = (SessionStore.set state role setAt).map .session) :
    storedSession s r.username start = state := by
  have hlive : start < setAt + 1000 * (roleTtlSeconds.lookup role).getD sessionTtlSeconds := by
    have hpos := roleTtl_pos role
    omega
  rw [storedSession, h, SessionStore.set, Option.map_some, found, Option.filter_some,
    RedisEntry.live, if_pos (decide_eq_true hlive)]
  exact if_pos hlive

/-- **A failed request** leaves the session as it was if and only if it commits nothing before
something fails late, or commits what was stored. The session afterwards is seen from the start of
the request, so that what expires meanwhile does not count. -/
theorem failed_ask_iff (w : World) (r : AskCall) (now : RedisOp → ℕ)
    (delivery : RedisOp → Delivery PyError) (s : String → Option RedisEntry) {start : ℕ}
    (hstart : ∀ op, start ≤ now op) :
    ((∃ e, ((askEndpoint w r).run now delivery s).1 = .error e) →
      storedSession ((askEndpoint w r).run now delivery s).2 r.username start =
        storedSession s r.username start) ↔
    ∀ state, CommitsTo w r now delivery s state → FailsLate r now delivery s →
      state = storedSession s r.username start := by
  constructor
  · intro h state hcommits hlate
    obtain ⟨hsession, hfails⟩ := run_of_commits hcommits
    rw [← h (hfails.mpr hlate)]
    exact (storedSession_of_set (hstart .set) hsession).symm
  · intro h hfailed
    by_cases hcommits : ∃ state, CommitsTo w r now delivery s state
    · obtain ⟨state, hcommits⟩ := hcommits
      obtain ⟨hsession, hfails⟩ := run_of_commits hcommits
      rw [← h state hcommits (hfails.mp hfailed)]
      exact storedSession_of_set (hstart .set) hsession
    · have hsame := run_of_not_commits (not_exists.mp hcommits)
      rw [storedSession, hsame, storedSession]

end

/-! ### A turn that is committed and reported as failed -/

/-- A question that is asked back. -/
def sampleCall : AskCall :=
  { username := "alice", role := "employee", question := "Which law governs?", token := "t" }

/-- A world in which no contract dominates. -/
def askedBackWorld : World := sampleWorld [0, 0, 0, 1, 1] "A::1"

/-- Redis is not reached. -/
def connectionRefused : PyError where
  cls := .redisConnectionError "ConnectionError"
  message := "Connection refused"

/-- One command does not reach Redis. -/
def refusing (refused : RedisOp) (op : RedisOp) : Delivery PyError :=
  if op = refused then .refused connectionRefused else .answered

/-- The response to `sampleCall` and the session afterwards, when one command is refused. -/
def sampleOutcome (refused : RedisOp) : Option HttpError × SessionState :=
  let after := (askEndpoint askedBackWorld sampleCall).run (fun _ => 0) (refusing refused)
    fun _ => none
  (match after.1 with
    | .error e => some e
    | .ok _ => none,
   storedSession after.2 "alice" 0)

private theorem error_of_sampleOutcome {refused : RedisOp}
    (h : (sampleOutcome refused).1.isSome = true) :
    ∃ e, ((askEndpoint askedBackWorld sampleCall).run (fun _ => 0) (refusing refused)
      fun _ => none).1 = .error e := by
  rw [sampleOutcome] at h
  rcases hrun : ((askEndpoint askedBackWorld sampleCall).run (fun _ => 0) (refusing refused)
    fun _ => none).1 with e | response
  · exact ⟨e, rfl⟩
  · dsimp only at h
    rw [hrun] at h
    cases h

/-- `failed_ask_iff` when the write of the session is refused. -/
theorem failed_ask_iff_refused :
    (sampleOutcome .set).1.isSome = true ∧ (sampleOutcome .set).2 = {} := by
  have hfailed : (sampleOutcome .set).1.isSome = true := by decide +kernel
  refine ⟨hfailed, ?_⟩
  refine (failed_ask_iff askedBackWorld sampleCall (fun _ => 0) (refusing .set) (fun _ => none)
    (fun _ => Nat.le_refl 0)).mpr ?_ (error_of_sampleOutcome hfailed)
  intro state hcommits _
  exact absurd rfl (hcommits.applied connectionRefused)

/-- **A committed turn that is reported as failed**: the list of recent turns is not reached, the
user is told to try again, and the session waits for a selection already. -/
theorem turn_committed :
    ¬∀ (w : World) (r : AskCall) (now : RedisOp → ℕ) (delivery : RedisOp → Delivery PyError)
      (s : String → Option RedisEntry) (start : ℕ), (∀ op, start ≤ now op) →
      (∃ e, ((askEndpoint w r).run now delivery s).1 = .error e) →
      storedSession ((askEndpoint w r).run now delivery s).2 r.username start =
        storedSession s r.username start := by
  intro h
  have hfailed : (sampleOutcome .pushRecentTurn).1.map (·.status) = some 503 := by
    decide +kernel
  have hsome : (sampleOutcome .pushRecentTurn).1.isSome = true := by
    rw [← Option.isSome_map, hfailed]
    rfl
  have hsession : (sampleOutcome .pushRecentTurn).2 =
      { pendingQuestion := some "Which law governs?", pendingCandidates := ["B", "A"] } := by
    decide +kernel
  have hsame : (sampleOutcome .pushRecentTurn).2 = {} :=
    h askedBackWorld sampleCall (fun _ => 0) (refusing .pushRecentTurn) (fun _ => none) 0
      (fun _ => Nat.le_refl 0) (error_of_sampleOutcome hsome)
  rw [hsession] at hsame
  exact absurd hsame (by decide)

end AuditFlow
