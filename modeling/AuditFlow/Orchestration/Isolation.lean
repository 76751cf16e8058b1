import AuditFlow.Orchestration.Endpoint

/-!
# Users do not influence each other

Requests of any number of users run interleaved over one Redis database, together with the processes
that count up and read `index:version`; they share one `Sessions` object, which is the same `World`
for all of them. A request stays on the three keys of its user (`askEndpoint_within`), and **no
username makes a key of one user a key of another one** or of anything else (`not_userKeys_of_ne`):
what stands before the first colon tells the kinds of keys apart, and what follows it the users.

`users_isolated` is then an instance of what holds of any separated clients of a key store: in two
runs with the same steps of the requests of one user, that user's responses, session and recent
turns are the same, whoever else is there.
-/

namespace AuditFlow

open Foundation

/-! ### The keys of a user -/

/-- The keys of a user. -/
def UserKeys (username key : String) : Prop :=
  key = sessionKey username ∨ key = lockKey username ∨ key = recentKey username

/-- `INDEX_VERSION_KEY`. -/
def indexVersionKey : String := "index:version"

section

variable {u v k : String}

theorem sessionKey_inj (h : sessionKey u = sessionKey v) : u = v := by
  rwa [sessionKey, sessionKey, String.append_right_inj] at h

theorem lockKey_inj (h : lockKey u = lockKey v) : u = v := by
  rwa [lockKey, lockKey, String.append_right_inj] at h

theorem recentKey_inj (h : recentKey u = recentKey v) : u = v := by
  rwa [recentKey, recentKey, String.append_right_inj] at h

/-- **No key collides**: keys of different users are different, whatever their names. -/
theorem not_userKeys_of_ne (h : u ≠ v) (hk : UserKeys u k) : ¬UserKeys v k := by
  rcases hk with rfl | rfl | rfl
  · rintro (hs | hl | hr)
    · exact h (sessionKey_inj hs)
    · exact sessionKey_ne_lockKey u v hl
    · exact sessionKey_ne_recentKey u v hr
  · rintro (hs | hl | hr)
    · exact sessionKey_ne_lockKey v u hs.symm
    · exact h (lockKey_inj hl)
    · exact lockKey_ne_recentKey u v hr
  · rintro (hs | hl | hr)
    · exact sessionKey_ne_recentKey v u hs.symm
    · exact lockKey_ne_recentKey v u hl.symm
    · exact h (recentKey_inj hr)

/-- The counter of the index is no user's key. -/
theorem not_userKeys_indexVersionKey (u : String) : ¬UserKeys u indexVersionKey := by
  rintro (h | h | h)
  · have hfirst := congrArg (fun s : String => s.toList[0]?) h
    simp [sessionKey, indexVersionKey] at hfirst
  · have hfirst := congrArg (fun s : String => s.toList[0]?) h
    simp [lockKey, indexVersionKey] at hfirst
  · have hfirst := congrArg (fun s : String => s.toList[0]?) h
    simp [recentKey, indexVersionKey] at hfirst

end

/-! ### Requests stay on their keys -/

section

variable {w : World} {r : AskCall}

private theorem acquire_within (username token : String) (retries : ℕ) :
    (acquire username token retries).Within (UserKeys username) := by
  induction retries with
  | zero =>
    rw [acquire]
    refine ⟨Or.inr (Or.inl rfl), fun answer => ?_⟩
    rcases answer with e | (_ | _)
    · trivial
    · trivial
    · trivial
  | succ n ih =>
    rw [acquire]
    refine ⟨Or.inr (Or.inl rfl), fun answer => ?_⟩
    rcases answer with e | (_ | _)
    · trivial
    · exact ih
    · trivial

private theorem locked_within {α : Type} {username token : String} {retries : ℕ}
    {body : Redis (Except PyError α)} (h : body.Within (UserKeys username)) :
    (locked username token retries body).Within (UserKeys username) := by
  refine (acquire_within username token retries).bind fun acquired => ?_
  rcases acquired with e | (_ | _)
  · trivial
  · trivial
  · refine h.bind fun outcome => ⟨Or.inr (Or.inl rfl), fun released => ?_⟩
    rcases released with e | _
    · trivial
    · trivial

private theorem askAndSet_within (state : SessionState) :
    (askAndSet w r state).Within (UserKeys r.username) := by
  rw [askAndSet]
  rcases ask w r.question { session := state } with ⟨e | response, c⟩
  · trivial
  · refine ⟨Or.inl rfl, fun written => ?_⟩
    rcases written with e | _
    · trivial
    · trivial

private theorem sessionTurn_within : (sessionTurn w r).Within (UserKeys r.username) := by
  refine ⟨Or.inl rfl, fun state => ?_⟩
  rcases state with e | state
  · trivial
  · exact askAndSet_within state

/-- **A request stays on the keys of its user**, whatever Redis answers. -/
theorem askEndpoint_within (w : World) (r : AskCall) :
    (askEndpoint w r).Within (UserKeys r.username) := by
  refine (locked_within sessionTurn_within).bind fun outcome => ?_
  rcases outcome with e | response
  · trivial
  · have hpush : (pushRecentTurn r response).Within (UserKeys r.username) :=
      ⟨Or.inr (Or.inr rfl), fun _ => trivial⟩
    refine hpush.bind fun pushed => ?_
    rcases pushed with e | _
    · trivial
    · trivial

end

/-! ### Clients of the database -/

/-- `INCR index:version`. -/
def incrVersion (now : ℕ) (entry : Option RedisEntry) : Except PyError ℕ × Option RedisEntry :=
  match found now entry with
  | none => (.ok 1, some (.counter 1))
  | some (.counter n) => (.ok (n + 1), some (.counter (n + 1)))
  | some _ => (.error wrongType, entry)

/-- `GET index:version`. -/
def getVersion (now : ℕ) (entry : Option RedisEntry) : Except PyError ℕ × Option RedisEntry :=
  match found now entry with
  | none => (.ok 0, entry)
  | some (.counter n) => (.ok n, entry)
  | some _ => (.error wrongType, entry)

/-- Who uses the database: requests, ingestions that announce a change, and watchers. -/
inductive RedisClient
  | ask (call : AskCall)
  | bump
  | poll

/-- What a client is told. -/
inductive ClientResult
  | response (outcome : Except HttpError AskResponse)
  | version (outcome : Except PyError ℕ)

/-- The program of a client. -/
def RedisClient.program (w : World) : RedisClient → Redis ClientResult
  | ask call => (askEndpoint w call).bind fun outcome => .done (.response outcome)
  | bump => .command .bumpIndexVersion indexVersionKey incrVersion fun n => .done (.version n)
  | poll => .command .getIndexVersion indexVersionKey getVersion fun n => .done (.version n)

/-- The client is a request of the user. -/
def RedisClient.IsOf (username : String) : RedisClient → Prop
  | ask call => call.username = username
  | bump | poll => False

instance (username : String) : DecidablePred (RedisClient.IsOf username) := fun client =>
  match client with
  | .ask call => inferInstanceAs (Decidable (call.username = username))
  | .bump | .poll => isFalse not_false

/-- The response to a request, once there is one. -/
def responseOf (p : Redis ClientResult) : Option (Except HttpError AskResponse) :=
  match p.result with
  | some (.response outcome) => some outcome
  | _ => none

/-- `SessionStore.get_recent_turns`. -/
def recentTurns (s : String → Option RedisEntry) (username : String) (t : ℕ) : List RecentTurn :=
  match found t (s (recentKey username)) with
  | some (.turns turns _) => turns
  | _ => []

section

variable {ι : Type} [DecidableEq ι] {w : World} {u : String}

private theorem program_within {client : RedisClient} (h : client.IsOf u) :
    (client.program w).Within (UserKeys u) := by
  cases client with
  | ask call =>
    obtain rfl : call.username = u := h
    exact (askEndpoint_within w call).bind fun _ => trivial
  | bump | poll => exact absurd h not_false

private theorem program_within_not {client : RedisClient} (h : ¬client.IsOf u) :
    (client.program w).Within fun k => ¬UserKeys u k := by
  cases client with
  | ask call =>
    have hwithin : ((RedisClient.ask call).program w).Within (UserKeys call.username) :=
      (askEndpoint_within w call).bind fun _ => trivial
    exact hwithin.mono fun k hk => not_userKeys_of_ne h hk
  | bump | poll => exact ⟨not_userKeys_indexVersionKey u, fun _ => trivial⟩

/-- Clients that start on a store. -/
def clientPool (w : World) (clients : ι → RedisClient) (s : String → Option RedisEntry) :
    Pool ι RedisOp String RedisEntry PyError ClientResult where
  program i := (clients i).program w
  store := s

omit [DecidableEq ι] in
private theorem separated_clientPool (clients : ι → RedisClient)
    (s : String → Option RedisEntry) :
    (clientPool w clients s).Separated (fun i => (clients i).IsOf u) (UserKeys u) where
  inside _ hi := program_within hi
  outside _ hi := program_within_not hi

/-- **Users do not influence each other.** Two interleaved runs with the same requests of a user, of
which the same steps are taken in the same order, give this user the same responses, the same stored
session and the same recent turns: whatever the other clients are and whenever they run. -/
theorem users_isolated (w : World) (u : String) {clients clients' : ι → RedisClient}
    (hclients : ∀ i, (clients i).IsOf u ∨ (clients' i).IsOf u → clients i = clients' i)
    {s s' : String → Option RedisEntry} (hstore : ∀ k, UserKeys u k → s k = s' k)
    {labels labels' : List (PoolLabel ι PyError)}
    (hlabels : labels.filter (fun l => (clients l.client).IsOf u) =
      labels'.filter fun l => (clients' l.client).IsOf u) :
    (∀ i, (clients i).IsOf u →
        responseOf (((clientPool w clients s).run labels).program i) =
          responseOf (((clientPool w clients' s').run labels').program i)) ∧
      (∀ t, storedSession ((clientPool w clients s).run labels).store u t =
        storedSession ((clientPool w clients' s').run labels').store u t) ∧
      ∀ t, recentTurns ((clientPool w clients s).run labels).store u t =
        recentTurns ((clientPool w clients' s').run labels').store u t := by
  have hsame : ∀ i, (clients' i).IsOf u ↔ (clients i).IsOf u := by
    intro i
    constructor
    · intro h
      rwa [hclients i (Or.inr h)]
    · intro h
      rwa [← hclients i (Or.inl h)]
  simp only [hsame] at hlabels
  have hagree : (clientPool w clients s).Agree (fun i => (clients i).IsOf u) (UserKeys u)
      (clientPool w clients' s') :=
    ⟨fun i hi => congrArg (RedisClient.program w) (hclients i (Or.inl hi)), hstore⟩
  have hsep' : (clientPool w clients' s').Separated (fun i => (clients i).IsOf u) (UserKeys u) :=
    ⟨fun i hi => program_within ((hsame i).mpr hi),
      fun i hi => program_within_not fun h => hi ((hsame i).mp h)⟩
  have hrun := Pool.agree_run hagree (separated_clientPool clients s) hsep' hlabels
  refine ⟨fun i hi => congrArg responseOf (hrun.program i hi), fun t => ?_, fun t => ?_⟩
  · rw [storedSession, storedSession, hrun.store _ (Or.inl rfl)]
  · rw [recentTurns, recentTurns, hrun.store _ (Or.inr (Or.inr rfl))]

end

/-! ### Alice beside Bob -/

/-- Alice asks, and so do all others, as Bob. -/
def besideBob : ℕ → RedisClient
  | 0 => .ask sampleCall
  | _ => .ask { sampleCall with username := "bob" }

/-- Alice asks, and all others announce changes of the index. -/
def besideBumps : ℕ → RedisClient
  | 0 => .ask sampleCall
  | _ => .bump

/-- A step at which nothing fails. -/
def answeredStep (client : ℕ) : PoolLabel ℕ PyError := ⟨client, 0, .answered⟩

/-- `users_isolated` when Bob's request runs between Alice's commands, and when an announcement
does. -/
theorem users_isolated_besideBob :
    (responseOf (((clientPool askedBackWorld besideBob fun _ => none).run
        ([0, 1, 0, 1, 0, 1, 0, 1, 0].map answeredStep)).program 0)).isSome = true ∧
      storedSession ((clientPool askedBackWorld besideBob fun _ => none).run
          ([0, 1, 0, 1, 0, 1, 0, 1, 0].map answeredStep)).store "alice" 0 =
        storedSession ((clientPool askedBackWorld besideBumps fun _ => none).run
          ([0, 0, 0, 2, 0, 0].map answeredStep)).store "alice" 0 := by
  refine ⟨by decide +kernel, ?_⟩
  have hclients : ∀ i, (besideBob i).IsOf "alice" ∨ (besideBumps i).IsOf "alice" →
      besideBob i = besideBumps i := by
    intro i hi
    cases i with
    | zero => rfl
    | succ n =>
      rcases hi with hbob | hbump
      · have hne : ¬"bob" = "alice" := by decide
        exact absurd hbob hne
      · exact absurd hbump not_false
  exact (users_isolated askedBackWorld "alice" hclients (fun _ _ => rfl) rfl).2.1 0

end AuditFlow
