import AuditFlow.Orchestration.SessionText

/-!
# The recent turns of a user

What `get_recent_turns` shows after any interleaved run of requests. There is a history of the turns
that were pushed, one for each request that got so far, and among them every request that was
answered (`recent_turns_window`). **The list is a window onto this history**: its newest entries, at
most `RECENT_TURNS_LIMIT` of them, back to the last silence of `SESSION_TTL_SECONDS`.
-/

namespace AuditFlow

open Foundation

/-! ### The window -/

/-- The turns back to the last silence that outlived the list; the newest turn comes first. -/
def fresh (now : ℕ) : List (ℕ × RecentTurn) → List RecentTurn
  | [] => []
  | (moment, turn) :: older =>
    if now < moment + 1000 * sessionTtlSeconds then turn :: fresh moment older else []

/-- The turns of an entry. -/
def turnsAt (now : ℕ) (entry : Option RedisEntry) : List RecentTurn :=
  match found now entry with
  | some (.turns turns _) => turns
  | _ => []

/-- An entry that holds the window onto a history. -/
structure HoldsWindow (entry : Option RedisEntry) (history : List (ℕ × RecentTurn)) : Prop where
  turns : ∀ now, turnsAt now entry = (fresh now history).take recentTurnsLimit
  kind : ∀ e, entry = some e → ∃ held expiresAt, e = .turns held expiresAt

theorem holdsWindow_none : HoldsWindow none [] := ⟨fun _ => rfl, fun _ h => nomatch h⟩

private theorem take_limit_cons (turn : RecentTurn) (turns : List RecentTurn) :
    (turn :: turns.take recentTurnsLimit).take recentTurnsLimit =
      (turn :: turns).take recentTurnsLimit := by
  simp [recentTurnsLimit, List.take_take]

/-- A push moves the window on. -/
theorem HoldsWindow.push {entry : Option RedisEntry} {history : List (ℕ × RecentTurn)}
    (h : HoldsWindow entry history) (turn : RecentTurn) (now : ℕ) :
    HoldsWindow (pushTurn turn now entry).2 ((now, turn) :: history) ∧
      (pushTurn turn now entry).1 = .ok () := by
  -- what is found is what the list holds at this moment
  obtain ⟨hanswer, hentry⟩ : (pushTurn turn now entry).1 = .ok () ∧
      (pushTurn turn now entry).2 = some (.turns ((turn :: turnsAt now entry).take recentTurnsLimit)
        (now + 1000 * sessionTtlSeconds)) := by
    rw [pushTurn, turnsAt]
    rcases hfound : found now entry with - | e
    · exact ⟨rfl, rfl⟩
    · obtain ⟨held, expiresAt, rfl⟩ := h.kind e (Option.filter_eq_some_iff.mp hfound).1
      exact ⟨rfl, rfl⟩
  refine ⟨⟨fun later => ?_, fun e he => ?_⟩, hanswer⟩
  · rw [hentry, h.turns, take_limit_cons, fresh, turnsAt, found, Option.filter_some]
    simp only [RedisEntry.live, decide_eq_true_eq]
    split_ifs
    · rfl
    · rfl
  · rw [hentry] at he
    exact ⟨_, _, (Option.some.inj he).symm⟩

/-! ### Requests push at most once -/

/-- The turn of a request and its response. -/
def turnOf (r : AskCall) (response : AskResponse) : RecentTurn where
  question := r.question
  status := response.status
  documentId := response.topContract

/-- A request that has pushed nothing so far. -/
inductive BeforePush (r : AskCall) : Redis (Except HttpError AskResponse) → Prop
  | failed (e : HttpError) : BeforePush r (.done (.error e))
  | other {β : Type} {name : RedisOp} {key : String}
      {effect : ℕ → Option RedisEntry → Except PyError β × Option RedisEntry}
      {next : Except PyError β → Redis (Except HttpError AskResponse)}
      (hkey : ∀ u, key ≠ recentKey u) (hnext : ∀ answer, BeforePush r (next answer)) :
      BeforePush r (.command name key effect next)
  | push (response : AskResponse)
      (next : Except PyError Unit → Redis (Except HttpError AskResponse))
      (hok : next (.ok ()) = .done (.ok response))
      (herror : ∀ e, ∃ e', next (.error e) = .done (.error e')) :
      BeforePush r (.command .pushRecentTurn (recentKey r.username) (pushTurn (turnOf r response))
        next)

section

variable {w : World} {r : AskCall}

/-- A part of a request that does not push, before a part that may. -/
private theorem beforePush_bind {α : Type} {p : Redis α}
    {f : α → Redis (Except HttpError AskResponse)}
    (h : p.Within fun key => ∀ u, key ≠ recentKey u) (hf : ∀ a, BeforePush r (f a)) :
    BeforePush r (p.bind f) := by
  induction p with
  | done a => exact hf a
  | command name key effect next ih => exact .other h.1 fun answer => ih answer (h.2 answer)

private theorem not_recentKey_of_lock (u : String) : ∀ v, lockKey u ≠ recentKey v :=
  lockKey_ne_recentKey u

private theorem acquire_quiet (username token : String) (retries : ℕ) :
    (acquire username token retries).Within fun key => ∀ u, key ≠ recentKey u := by
  induction retries with
  | zero =>
    rw [acquire]
    refine ⟨not_recentKey_of_lock username, fun answer => ?_⟩
    rcases answer with e | (_ | _)
    · trivial
    · trivial
    · trivial
  | succ n ih =>
    rw [acquire]
    refine ⟨not_recentKey_of_lock username, fun answer => ?_⟩
    rcases answer with e | (_ | _)
    · trivial
    · exact ih
    · trivial

private theorem sessionTurn_quiet :
    (sessionTurn w r).Within fun key => ∀ u, key ≠ recentKey u := by
  refine ⟨sessionKey_ne_recentKey r.username, fun answer => ?_⟩
  rcases answer with e | state
  · trivial
  · dsimp only
    rw [askAndSet]
    rcases ask w r.question { session := state } with ⟨e | response, c⟩
    · trivial
    · refine ⟨sessionKey_ne_recentKey r.username, fun written => ?_⟩
      rcases written with e | _
      · trivial
      · trivial

private theorem locked_quiet :
    (locked r.username r.token r.retries (sessionTurn w r)).Within
      fun key => ∀ u, key ≠ recentKey u := by
  refine (acquire_quiet r.username r.token r.retries).bind fun acquired => ?_
  rcases acquired with e | (_ | _)
  · trivial
  · trivial
  · refine sessionTurn_quiet.bind fun outcome => ⟨not_recentKey_of_lock r.username, ?_⟩
    intro released
    rcases released with e | _
    · trivial
    · trivial

/-- A request starts without having pushed. -/
theorem beforePush_askEndpoint (w : World) (r : AskCall) : BeforePush r (askEndpoint w r) := by
  refine beforePush_bind locked_quiet fun outcome => ?_
  rcases outcome with e | response
  · exact .failed _
  · exact .push response _ rfl fun e => ⟨_, rfl⟩

end

/-! ### Runs -/

/-- A push that took effect: whose, when, and of what. -/
structure Push (ι : Type) where
  client : ι
  moment : ℕ
  turn : RecentTurn

section

variable {ι : Type} [DecidableEq ι] {w : World} {calls : ι → AskCall} {history : List (Push ι)}
  {p : Pool ι RedisOp String RedisEntry PyError (Except HttpError AskResponse)}

/-- The pushes of the requests of a user. -/
def turnsOfUser (calls : ι → AskCall) (u : String) (history : List (Push ι)) :
    List (ℕ × RecentTurn) :=
  (history.filter fun push => (calls push.client).username = u).map fun push =>
    (push.moment, push.turn)

/-- The history says who has pushed what, and the lists are windows onto it. -/
structure Recorded (calls : ι → AskCall) (history : List (Push ι))
    (p : Pool ι RedisOp String RedisEntry PyError (Except HttpError AskResponse)) : Prop where
  once : (history.map Push.client).Nodup
  pushed : ∀ push ∈ history, ∃ response, push.turn = turnOf (calls push.client) response ∧
    (p.program push.client = .done (.ok response) ∨
      ∃ e, p.program push.client = .done (.error e))
  others : ∀ i, i ∉ history.map Push.client → BeforePush (calls i) (p.program i)
  window : ∀ u, HoldsWindow (p.store (recentKey u)) (turnsOfUser calls u history)

omit [DecidableEq ι] in
/-- Nobody has pushed yet. -/
private theorem recorded_start (w : World) (calls : ι → AskCall) :
    Recorded calls [] (askPool w calls fun _ => none) where
  once := List.nodup_nil
  pushed _ h := nomatch h
  others i _ := beforePush_askEndpoint w (calls i)
  window _ := holdsWindow_none

/-- A step that pushes nothing. -/
private theorem Recorded.quiet (h : Recorded calls history p) {l : PoolLabel ι PyError}
    (hclient : l.client ∉ history.map Push.client)
    (hprogram : BeforePush (calls l.client) ((p.step l).program l.client))
    (hstore : ∀ u, (p.step l).store (recentKey u) = p.store (recentKey u)) :
    Recorded calls history (p.step l) where
  once := h.once
  pushed push hpush := by
    have hne : push.client ≠ l.client := fun heq => hclient (heq ▸ List.mem_map_of_mem hpush)
    rw [Pool.step_program_of_ne p hne]
    exact h.pushed push hpush
  others i hi := by
    rcases eq_or_ne i l.client with rfl | hne
    · exact hprogram
    · rw [Pool.step_program_of_ne p hne]
      exact h.others i hi
  window u := by
    rw [hstore]
    exact h.window u

/-- A step of a request that has ended changes nothing. -/
private theorem Recorded.ended (h : Recorded calls history p) {l : PoolLabel ι PyError}
    {result : Except HttpError AskResponse} (hdone : p.program l.client = .done result) :
    Recorded calls history (p.step l) := by
  have hsame : p.step l = p := by
    have hstep : (p.program l.client).step l.now l.delivery p.store = (.done result, p.store) := by
      rw [hdone]
      rfl
    rw [Pool.step, hstep]
    dsimp only
    rw [← hdone, Function.update_eq_self]
  rw [hsame]
  exact h

/-- A push that takes effect. -/
private theorem Recorded.push (h : Recorded calls history p) {l : PoolLabel ι PyError}
    (hclient : l.client ∉ history.map Push.client) (response : AskResponse)
    (hprogram : (p.step l).program l.client = .done (.ok response) ∨
      ∃ e, (p.step l).program l.client = .done (.error e))
    (hstore : (p.step l).store = Function.update p.store (recentKey (calls l.client).username)
      (pushTurn (turnOf (calls l.client) response) l.now
        (p.store (recentKey (calls l.client).username))).2) :
    Recorded calls (⟨l.client, l.now, turnOf (calls l.client) response⟩ :: history) (p.step l) where
  once := List.nodup_cons.mpr ⟨hclient, h.once⟩
  pushed push hpush := by
    rcases List.mem_cons.mp hpush with rfl | hold
    · exact ⟨response, rfl, hprogram⟩
    · have hne : push.client ≠ l.client := fun heq => hclient (heq ▸ List.mem_map_of_mem hold)
      rw [Pool.step_program_of_ne p hne]
      exact h.pushed push hold
  others i hi := by
    rw [List.map_cons, List.mem_cons, not_or] at hi
    rw [Pool.step_program_of_ne p hi.1]
    exact h.others i hi.2
  window u := by
    rw [hstore]
    by_cases hu : (calls l.client).username = u
    · subst hu
      have hturns : turnsOfUser calls (calls l.client).username
          (⟨l.client, l.now, turnOf (calls l.client) response⟩ :: history) =
            (l.now, turnOf (calls l.client) response) ::
              turnsOfUser calls (calls l.client).username history := by
        simp [turnsOfUser]
      rw [Function.update_self, hturns]
      exact ((h.window _).push _ _).1
    · have hturns : turnsOfUser calls u
          (⟨l.client, l.now, turnOf (calls l.client) response⟩ :: history) =
            turnsOfUser calls u history := by
        simp [turnsOfUser, hu]
      have hne : recentKey u ≠ recentKey (calls l.client).username :=
        fun heq => hu (recentKey_inj heq).symm
      rw [Function.update_of_ne hne, hturns]
      exact h.window u

/-- **Step lemma.** A step either pushes one turn, or none. -/
private theorem Recorded.step (h : Recorded calls history p) (l : PoolLabel ι PyError) :
    Recorded calls history (p.step l) ∨ ∃ turn,
      Recorded calls (⟨l.client, l.now, turn⟩ :: history) (p.step l) := by
  by_cases hclient : l.client ∈ history.map Push.client
  · obtain ⟨push, hpush, hsame⟩ := List.mem_map.mp hclient
    obtain ⟨response, -, hdone | ⟨e, hdone⟩⟩ := h.pushed push hpush
    · exact Or.inl (h.ended (hsame ▸ hdone))
    · exact Or.inl (h.ended (hsame ▸ hdone))
  · have hbefore := h.others l.client hclient
    have hself := Pool.step_program_self p l
    have hafter : (p.step l).store = ((p.program l.client).step l.now l.delivery p.store).2 := rfl
    generalize p.program l.client = program at hbefore hself hafter
    cases hbefore with
    | failed e =>
      refine Or.inl (h.quiet hclient ?_ fun u => by rw [hafter]; rfl)
      rw [hself]
      exact .failed e
    | other hkey hnext =>
      refine Or.inl (h.quiet hclient ?_ fun u => ?_)
      · rw [hself]
        exact hnext _
      · rw [hafter]
        exact Function.update_of_ne (hkey u).symm _ _
    | push response next hok herror =>
      have hpushed := ((h.window (calls l.client).username).push
        (turnOf (calls l.client) response) l.now).2
      rcases hdelivery : l.delivery with - | e | e
      · -- the answer arrives, and the request ends with the response
        refine Or.inr ⟨_, h.push hclient response (Or.inl ?_) ?_⟩
        · rw [hself, hdelivery]
          simp only [Program.step, Delivery.apply, hpushed, hok]
        · rw [hafter, hdelivery]
          rfl
      · obtain ⟨e', hend⟩ := herror e
        refine Or.inl (h.quiet hclient ?_ fun u => ?_)
        · rw [hself, hdelivery]
          simp only [Program.step, Delivery.apply, hend]
          exact .failed e'
        · rw [hafter, hdelivery]
          simp only [Program.step, Delivery.apply, Function.update_eq_self]
      · -- the turn is pushed, but the request does not learn about it
        obtain ⟨e', hend⟩ := herror e
        refine Or.inr ⟨_, h.push hclient response (Or.inr ⟨e', ?_⟩) ?_⟩
        · rw [hself, hdelivery]
          simp only [Program.step, Delivery.apply, hend]
        · rw [hafter, hdelivery]
          rfl

/-- **Run lemma.** The history follows the steps that were taken. -/
private theorem Recorded.run (h : Recorded calls history p) (labels : List (PoolLabel ι PyError)) :
    ∃ pushes : List (Push ι), Recorded calls (pushes ++ history) (p.run labels) ∧
      (pushes.map fun push => (push.client, push.moment)).reverse.Sublist
        (labels.map fun l => (l.client, l.now)) := by
  induction labels generalizing p history with
  | nil => exact ⟨[], h, List.Sublist.refl _⟩
  | cons l labels ih =>
    rcases h.step l with hquiet | ⟨turn, hpush⟩
    · obtain ⟨pushes, hrun, hsub⟩ := ih hquiet
      exact ⟨pushes, hrun, hsub.cons _⟩
    · obtain ⟨pushes, hrun, hsub⟩ := ih hpush
      refine ⟨pushes ++ [⟨l.client, l.now, turn⟩], ?_, ?_⟩
      · rw [List.append_assoc]
        exact hrun
      · rw [List.map_append, List.reverse_append]
        exact hsub.cons_cons _

omit [DecidableEq ι] in
private theorem not_beforePush_ok {r : AskCall} {response : AskResponse} :
    ¬BeforePush r (.done (.ok response)) := fun h => nomatch h

/-- **The recent turns are a window onto the history.** In every interleaved run of requests,
whatever Redis fails at, there is a history of pushes, newest first, in the order of the steps: each
by a request of its own, with its question; each request that was answered has pushed its response;
and the recent turns of a user are, at every moment, the newest of that user's pushes, up to five,
back to the last hour in which nothing was pushed. -/
theorem recent_turns_window (w : World) (calls : ι → AskCall)
    (labels : List (PoolLabel ι PyError)) :
    ∃ history : List (Push ι),
      (history.map fun push => (push.client, push.moment)).reverse.Sublist
          (labels.map fun l => (l.client, l.now)) ∧
        (history.map Push.client).Nodup ∧
        (∀ push ∈ history, push.turn.question = (calls push.client).question) ∧
        (∀ i response, (((askPool w calls fun _ => none).run labels).program i).result =
            some (.ok response) →
          ∃ push ∈ history, push.client = i ∧ push.turn = turnOf (calls i) response) ∧
        ∀ u now, recentTurns ((askPool w calls fun _ => none).run labels).store u now =
          (fresh now (turnsOfUser calls u history)).take recentTurnsLimit := by
  obtain ⟨history, hrun, hsub⟩ := (recorded_start w calls).run labels
  rw [List.append_nil] at hrun
  refine ⟨history, hsub, hrun.once, fun push hpush => ?_, fun i response hresult => ?_,
    fun u now => (hrun.window u).turns now⟩
  · obtain ⟨response, hturn, -⟩ := hrun.pushed push hpush
    rw [hturn]
    rfl
  · have hdone : ((askPool w calls fun _ => none).run labels).program i = .done (.ok response) := by
      generalize ((askPool w calls fun _ => none).run labels).program i = program at hresult
      cases program with
      | done a => rw [Option.some.inj hresult]
      | command name key effect next => cases hresult
    by_cases hi : i ∈ history.map Push.client
    · obtain ⟨push, hpush, rfl⟩ := List.mem_map.mp hi
      obtain ⟨response', hturn, hok | ⟨e, herror⟩⟩ := hrun.pushed push hpush
      · obtain rfl : response = response' := by
          rw [hdone] at hok
          exact Except.ok.inj (Program.done.inj hok)
        exact ⟨push, hpush, rfl, hturn⟩
      · rw [hdone] at herror
        cases herror
    · have hbefore := hrun.others i hi
      rw [hdone] at hbefore
      exact absurd hbefore not_beforePush_ok

end

end AuditFlow
