import AuditFlow.Foundation.JsonWriter
import AuditFlow.Foundation.StoreRefinement
import AuditFlow.Orchestration.History
import AuditFlow.Orchestration.Isolation

/-!
# Sessions as texts

What Redis really holds: a session is the text that `SessionState.to_json` writes, a turn the text
of a dictionary, a lock its token; and a session is what `SessionState.from_json` makes of a text,
which decodes it and does not check the fields. The endpoint is modelled once more on this level,
from the raw answers of Redis on.

**The endpoint on texts is the endpoint on sessions** (`text_store_refines`): however requests are
interleaved, whatever Redis fails at, and whatever `Sessions.ask` would do with a session of other
types, every request ends alike, what is stored are the texts of the sessions, and the recent turns
are read back as they were pushed. In particular no request ever fails at a text that another one
has written.
-/

namespace AuditFlow

open Foundation

/-! ### Texts -/

/-- `None` or a string. -/
def optional : Option String → Json.Plain
  | none => .null
  | some s => .str s

/-- `asdict(self)`. -/
def SessionState.asdict (s : SessionState) : Json.Plain :=
  .obj [("active_contract", optional s.activeContract),
    ("pending_question", optional s.pendingQuestion),
    ("pending_candidates", .arr (s.pendingCandidates.map .str))]

/-- `SessionState.to_json`. -/
def SessionState.toJson (s : SessionState) : List Char := Json.dumps s.asdict

/-- A `SessionState` as `from_json` builds it: the fields are whatever has been decoded. -/
structure LooseSession where
  activeContract : Json := .null
  pendingQuestion : Json := .null
  pendingCandidates : Json := .arr []

/-- The keyword arguments of `SessionState`. -/
def sessionFields : List String := ["active_contract", "pending_question", "pending_candidates"]

/-- `type(v).__name__`. -/
def typeName : Json → String
  | .null => "NoneType"
  | .bool _ => "bool"
  | .num literal => if literal.toList.all fun c => c.isDigit || c == '-' then "int" else "float"
  | .str _ => "str"
  | .arr _ => "list"
  | .obj _ => "dict"

/-- `SessionState(**members)`. -/
def SessionState.ofMembers (members : List (Str × Json)) : Except PyError LooseSession :=
  match members.find? fun m => sessionFields.all fun field => decide (m.1 ≠ (field : Str)) with
  | some (key, _) => .error {
      cls := .typeError
      message := "SessionState.__init__() got an unexpected keyword argument '" ++
        key.shown ++ "'" }
  | none => .ok {
      activeContract := (Json.member members "active_contract").getD .null
      pendingQuestion := (Json.member members "pending_question").getD .null
      pendingCandidates := (Json.member members "pending_candidates").getD (.arr []) }

/-- `SessionState.from_json`. -/
def SessionState.fromJson (rt : Runtime) (raw : Option (List Char)) : Except PyError LooseSession :=
  match raw with
  | none => .ok {}
  | some text =>
    match jsonLoads rt text with
    | .error e => .error e
    | .ok (.obj members) => SessionState.ofMembers members
    | .ok v => .error {
        cls := .typeError
        message := "src.auditflow.orchestration.session_store.SessionState() argument after ** " ++
          "must be a mapping, not " ++ typeName v }

/-- A field of type `str | None`, without surrogates. -/
def asOptionalStr : Json → Option (Option String)
  | .null => some none
  | .str s => s.text?.map some
  | _ => none

/-- An element of type `str`, without surrogates. -/
def asStr : Json → Option String
  | .str s => s.text?
  | _ => none

/-- A field of type `list[str]`. -/
def asStrs : Json → Option (List String)
  | .arr elems => elems.mapM asStr
  | _ => none

/-- The session, if its fields have the types that the class declares, and no surrogates. -/
def LooseSession.state? (loose : LooseSession) : Option SessionState := do
  let activeContract ← asOptionalStr loose.activeContract
  let pendingQuestion ← asOptionalStr loose.pendingQuestion
  let pendingCandidates ← asStrs loose.pendingCandidates
  return { activeContract, pendingQuestion, pendingCandidates }

/-- The dictionary of `push_recent_turn`. -/
def RecentTurn.asdict (turn : RecentTurn) : Json.Plain :=
  .obj [("question", .str turn.question), ("status", .str turn.status.value),
    ("document_id", optional turn.documentId)]

/-- The entry of `push_recent_turn`. -/
def RecentTurn.toJson (turn : RecentTurn) : List Char := Json.dumps turn.asdict

/-! ### Values of Redis -/

/-- A value of Redis. -/
inductive RedisValue
  | string (text : List Char)
  | list (texts : List (List Char))
  deriving DecidableEq

/-- A value with the moment it expires, if it does. -/
structure RedisItem where
  value : RedisValue
  expiresAt : Option ℕ := none
  deriving DecidableEq

/-- A key does not outlive its time to live. -/
def RedisItem.live (now : ℕ) (item : RedisItem) : Bool :=
  match item.expiresAt with
  | none => true
  | some expiresAt => decide (now < expiresAt)

/-- What a command finds under its key. -/
def foundItem (now : ℕ) (item : Option RedisItem) : Option RedisItem := item.filter (·.live now)

/-- `SET … NX PX`. -/
def setIfFree (text : List Char) (now : ℕ) (item : Option RedisItem) :
    Except PyError Bool × Option RedisItem :=
  match foundItem now item with
  | some _ => (.ok false, item)
  | none => (.ok true, some ⟨.string text, some (now + 1000 * lockTimeoutSeconds)⟩)

/-- The script of `lock.release()`. -/
def deleteIfEqual (text : List Char) (now : ℕ) (item : Option RedisItem) :
    Except PyError Unit × Option RedisItem :=
  match foundItem now item with
  | none => (.error lockNotOwned, item)
  | some ⟨.string holder, _⟩ =>
    if holder = text then (.ok (), none) else (.error lockNotOwned, item)
  | some ⟨.list _, _⟩ => (.error wrongType, item)

/-- `GET`. -/
def getString (now : ℕ) (item : Option RedisItem) :
    Except PyError (Option (List Char)) × Option RedisItem :=
  match foundItem now item with
  | none => (.ok none, item)
  | some ⟨.string text, _⟩ => (.ok (some text), item)
  | some ⟨.list _, _⟩ => (.error wrongType, item)

/-- `SET … EX`. -/
def setString (text : List Char) (seconds now : ℕ) (_ : Option RedisItem) :
    Except PyError Unit × Option RedisItem :=
  (.ok (), some ⟨.string text, some (now + 1000 * seconds)⟩)

/-- `LPUSH`, `LTRIM` and `EXPIRE` in one transaction, whose later commands run after an error. -/
def pushString (text : List Char) (now : ℕ) (item : Option RedisItem) :
    Except PyError Unit × Option RedisItem :=
  let expiresAt := some (now + 1000 * sessionTtlSeconds)
  match foundItem now item with
  | none => (.ok (), some ⟨.list [text], expiresAt⟩)
  | some ⟨.list texts, _⟩ =>
    (.ok (), some ⟨.list ((text :: texts).take recentTurnsLimit), expiresAt⟩)
  | some ⟨.string held, _⟩ => (.error wrongType, some ⟨.string held, expiresAt⟩)

/-- `LRANGE … 0 -1`. -/
def listItems (now : ℕ) (item : Option RedisItem) : Except PyError (List (List Char)) :=
  match foundItem now item with
  | none => .ok []
  | some ⟨.list texts, _⟩ => .ok texts
  | some ⟨.string _, _⟩ => .error wrongType

/-- `SessionStore.get_recent_turns`. -/
def getRecentTurns (rt : Runtime) (s : String → Option RedisItem) (username : String) (now : ℕ) :
    Except PyError (List Json) := do
  let raw ← listItems now (s (recentKey username))
  raw.mapM (jsonLoads rt)

/-! ### The endpoint -/

/-- A program of commands on texts. -/
abbrev TextRedis (α : Type) : Type 1 := Program RedisOp String RedisItem PyError α

/-- `lock.acquire()`. -/
def acquireText (username token : String) (retries : ℕ) : TextRedis (Except PyError Bool) :=
  .command .acquire (lockKey username) (setIfFree token.toList) fun
    | .ok false =>
      match retries with
      | 0 => .done (.ok false)
      | n + 1 => acquireText username token n
    | r => .done r

/-- `SessionStore.locked` around a body. -/
def lockedText {α : Type} (username token : String) (retries : ℕ)
    (body : TextRedis (Except PyError α)) : TextRedis (Except PyError α) :=
  (acquireText username token retries).bind fun
    | .error e => .done (.error e)
    | .ok false => .done (.error {
        cls := .timeoutError, message := s!"Could not acquire session lock for {username}" })
    | .ok true => body.bind fun r =>
      .command .release (lockKey username) (deleteIfEqual token.toList) fun
        | .error e => .done (.error e)
        | .ok () => .done r

section

-- `stray` is what becomes of a session whose fields have other types
variable (w : World) (stray : LooseSession → TextRedis (Except PyError AskResponse)) (r : AskCall)

/-- `SessionStore.set`, after `Sessions.ask`. -/
def askAndSetText (state : SessionState) : TextRedis (Except PyError AskResponse) :=
  match ask w r.question { session := state } with
  | (.error e, _) => .done (.error e)
  | (.ok response, c) =>
    .command .set (sessionKey r.username)
      (setString c.session.toJson ((roleTtlSeconds.lookup r.role).getD sessionTtlSeconds)) fun
      | .error e => .done (.error e)
      | .ok () => .done (.ok response)

/-- Between acquiring and releasing. -/
def sessionTurnText : TextRedis (Except PyError AskResponse) :=
  .command .get (sessionKey r.username) getString fun
    | .error e => .done (.error e)
    | .ok raw =>
      match SessionState.fromJson w.rt raw with
      | .error e => .done (.error e)
      | .ok loose =>
        match loose.state? with
        | none => stray loose
        | some state => askAndSetText w r state

/-- `SessionStore.push_recent_turn`. -/
def pushRecentTurnText (response : AskResponse) : TextRedis (Except PyError Unit) :=
  let turn : RecentTurn := {
    question := r.question
    status := response.status
    documentId := response.topContract }
  .command .pushRecentTurn (recentKey r.username) (pushString turn.toJson) .done

/-- `ask_endpoint`. -/
def askEndpointText : TextRedis (Except HttpError AskResponse) :=
  (lockedText r.username r.token r.retries (sessionTurnText w stray r)).bind fun
    | .error e => .done (.error (httpErrorOf e))
    | .ok response => (pushRecentTurnText r response).bind fun
      | .error e => .done (.error (httpErrorOf e))
      | .ok () => .done (.ok response)

end

/-! ### Round trips -/

section

variable {rt : Runtime}

private theorem jsonLoads_dumps {v : Json.Plain} (hdepth : v.depth ≤ rt.recursionLimit) :
    jsonLoads rt (Json.dumps v) = .ok v.toJson := by
  rw [jsonLoads, Json.loads_dumps hdepth]

private theorem depth_optional (o : Option String) : (optional o).depth = 1 := by
  cases o with
  | none => rfl
  | some s => rfl

private theorem depths_strs (ss : List String) : Json.Plain.depths (ss.map .str) ≤ 1 := by
  induction ss with
  | nil => simp [Json.Plain.depths]
  | cons s ss ih => simpa [Json.Plain.depths, Json.Plain.depth] using ih

private theorem depth_session (s : SessionState) : s.asdict.depth ≤ 3 := by
  have hcandidates := depths_strs s.pendingCandidates
  simp only [SessionState.asdict, Json.Plain.depth, Json.Plain.depthMembers, depth_optional]
  omega

private theorem depth_turn (turn : RecentTurn) : turn.asdict.depth ≤ 3 := by
  simp only [RecentTurn.asdict, Json.Plain.depth, Json.Plain.depthMembers, depth_optional]
  omega

private theorem asOptionalStr_optional (o : Option String) :
    asOptionalStr (optional o).toJson = some o := by
  cases o with
  | none => rfl
  | some s => rw [optional, Json.Plain.toJson, asOptionalStr, Str.text?_ofString, Option.map_some]

private theorem mapM_asStr (ss : List String) :
    (Json.Plain.toJsons (ss.map .str)).mapM asStr = some ss := by
  induction ss with
  | nil => rfl
  | cons s ss ih =>
    rw [List.map_cons, Json.Plain.toJsons, List.mapM_cons, ih, Json.Plain.toJson, asStr,
      Str.text?_ofString]
    rfl

/-- **A session is read back** from its text. -/
theorem fromJson_toJson (hdepth : 3 ≤ rt.recursionLimit) (s : SessionState) :
    ∃ loose, SessionState.fromJson rt (some s.toJson) = .ok loose ∧ loose.state? = some s := by
  have hload : jsonLoads rt s.toJson = .ok s.asdict.toJson :=
    jsonLoads_dumps ((depth_session s).trans hdepth)
  refine ⟨⟨(optional s.activeContract).toJson, (optional s.pendingQuestion).toJson,
    .arr (Json.Plain.toJsons (s.pendingCandidates.map .str))⟩, ?_, ?_⟩
  · rw [SessionState.fromJson, hload]
    rfl
  · rw [LooseSession.state?]
    simp only [asOptionalStr_optional, asStrs, mapM_asStr]
    rfl

/-- **A turn is read back** from its text. -/
theorem jsonLoads_turn (hdepth : 3 ≤ rt.recursionLimit) (turn : RecentTurn) :
    jsonLoads rt turn.toJson = .ok turn.asdict.toJson :=
  jsonLoads_dumps ((depth_turn turn).trans hdepth)

end

/-! ### Entries and their texts -/

/-- The item that Redis holds for an entry. -/
def RedisEntry.item : RedisEntry → RedisItem
  | .session stored => ⟨.string stored.state.toJson, some stored.expiresAt⟩
  | .lock token expiresAt => ⟨.string token.toList, some expiresAt⟩
  | .turns held expiresAt => ⟨.list (held.map RecentTurn.toJson), some expiresAt⟩
  | .counter n => ⟨.string (toString n).toList, none⟩

/-- Under the keys of the users there are sessions, locks and lists of turns. -/
def FitsKey (key : String) : RedisEntry → Prop
  | .session _ => ∀ u, key ≠ lockKey u ∧ key ≠ recentKey u
  | .lock _ _ => ∀ u, key ≠ sessionKey u ∧ key ≠ recentKey u
  | .turns _ _ => ∀ u, key ≠ sessionKey u ∧ key ≠ lockKey u
  | .counter _ => ∀ u, ¬UserKeys u key

section

variable {rt : Runtime} {w : World} {r : AskCall} {now : ℕ} {entry : Option RedisEntry}
  {u token : String}

theorem live_item (now : ℕ) (entry : RedisEntry) : entry.item.live now = entry.live now := by
  cases entry with
  | session stored => rfl
  | lock token expiresAt => rfl
  | turns turns expiresAt => rfl
  | counter n => rfl

/-- The same keys have expired. -/
theorem foundItem_map (now : ℕ) (entry : Option RedisEntry) :
    foundItem now (entry.map RedisEntry.item) = (found now entry).map RedisEntry.item := by
  cases entry with
  | none => rfl
  | some e =>
    simp only [foundItem, found, Option.map_some, Option.filter_some, live_item]
    split_ifs
    · rfl
    · rfl

private theorem fitsAt_found {key : String} (h : FitsAt FitsKey key entry) {e : RedisEntry}
    (hfound : found now entry = some e) : FitsKey key e :=
  h e (Option.filter_eq_some_iff.mp hfound).1

/-- What there can be under a lock key. -/
private theorem lock_of_found (h : FitsAt FitsKey (lockKey u) entry) {e : RedisEntry}
    (hfound : found now entry = some e) : ∃ token expiresAt, e = .lock token expiresAt := by
  have hfits := fitsAt_found h hfound
  cases e with
  | session stored => exact absurd rfl (hfits u).1
  | lock token expiresAt => exact ⟨token, expiresAt, rfl⟩
  | turns turns expiresAt => exact absurd rfl (hfits u).2
  | counter n => exact absurd (Or.inr (Or.inl rfl)) (hfits u)

/-- What there can be under a session key. -/
private theorem session_of_found (h : FitsAt FitsKey (sessionKey u) entry) {e : RedisEntry}
    (hfound : found now entry = some e) :
    ∃ stored, e = .session stored ∧ now < stored.expiresAt := by
  have hfits := fitsAt_found h hfound
  cases e with
  | session stored =>
    exact ⟨stored, rfl, by simpa [RedisEntry.live] using (Option.filter_eq_some_iff.mp hfound).2⟩
  | lock token expiresAt => exact absurd rfl (hfits u).1
  | turns turns expiresAt => exact absurd rfl (hfits u).1
  | counter n => exact absurd (Or.inl rfl) (hfits u)

/-- What there can be under a key of recent turns. -/
private theorem turns_of_found (h : FitsAt FitsKey (recentKey u) entry) {e : RedisEntry}
    (hfound : found now entry = some e) : ∃ turns expiresAt, e = .turns turns expiresAt := by
  have hfits := fitsAt_found h hfound
  cases e with
  | session stored => exact absurd rfl (hfits u).2
  | lock token expiresAt => exact absurd rfl (hfits u).2
  | turns turns expiresAt => exact ⟨turns, expiresAt, rfl⟩
  | counter n => exact absurd (Or.inr (Or.inr rfl)) (hfits u)

private theorem fitsAt_some {key : String} {e : RedisEntry} (h : FitsKey key e) :
    FitsAt FitsKey key (some e) := by
  intro x hx
  obtain rfl := Option.some.inj hx
  exact h

private theorem fitsKey_session (u : String) (stored : StoredSession) :
    FitsKey (sessionKey u) (.session stored) :=
  fun v => ⟨sessionKey_ne_lockKey u v, sessionKey_ne_recentKey u v⟩

private theorem fitsKey_lock (u token : String) (expiresAt : ℕ) :
    FitsKey (lockKey u) (.lock token expiresAt) :=
  fun v => ⟨(sessionKey_ne_lockKey v u).symm, lockKey_ne_recentKey u v⟩

private theorem fitsKey_turns (u : String) (turns : List RecentTurn) (expiresAt : ℕ) :
    FitsKey (recentKey u) (.turns turns expiresAt) :=
  fun v => ⟨(sessionKey_ne_recentKey v u).symm, (lockKey_ne_recentKey v u).symm⟩

/-! ### Commands -/

/-- A command on a text does what the command on the entry does. -/
abbrev ItemRefines {β β' : Type} (key : String) (answers : β → β' → Prop)
    (effect : ℕ → Option RedisEntry → Except PyError β × Option RedisEntry)
    (effect' : ℕ → Option RedisItem → Except PyError β' × Option RedisItem) : Prop :=
  EffectRefines FitsKey RedisEntry.item key answers effect effect'

private theorem refines_acquire (u token : String) :
    ItemRefines (lockKey u) Eq (acquireLock token) (setIfFree token.toList) := by
  refine ⟨fun now entry _ => ?_, fun now entry _ => ?_, fun now entry h => ?_⟩
  all_goals
    simp only [acquireLock, setIfFree, foundItem_map]
    rcases found now entry with - | e
  · exact .ok rfl
  · exact .ok rfl
  · rfl
  · rfl
  · exact fitsAt_some (fitsKey_lock u token _)
  · exact h

private theorem refines_release (u token : String) :
    ItemRefines (lockKey u) Eq (releaseLock token) (deleteIfEqual token.toList) := by
  refine ⟨fun now entry h => ?_, fun now entry h => ?_, fun now entry h => ?_⟩
  all_goals
    simp only [releaseLock, deleteIfEqual, foundItem_map]
    rcases hfound : found now entry with - | e
  · exact .error _
  · obtain ⟨holder, expiresAt, rfl⟩ := lock_of_found h hfound
    simp only [Option.map_some, RedisEntry.item, String.toList_inj]
    split_ifs
    · exact .ok rfl
    · exact .error _
  · rfl
  · obtain ⟨holder, expiresAt, rfl⟩ := lock_of_found h hfound
    simp only [Option.map_some, RedisEntry.item, String.toList_inj]
    split_ifs
    · rfl
    · rfl
  · exact h
  · obtain ⟨holder, expiresAt, rfl⟩ := lock_of_found h hfound
    dsimp only
    split_ifs
    · exact fitsAt_none _ _
    · exact h

/-- What `GET` answers for a session. -/
def AnswersSession (state : SessionState) (raw : Option (List Char)) : Prop :=
  raw = none ∧ state = {} ∨ raw = some state.toJson

private theorem refines_get (u : String) :
    ItemRefines (sessionKey u) AnswersSession getSession getString := by
  refine ⟨fun now entry h => ?_, fun now entry h => ?_, fun now entry h => ?_⟩
  all_goals
    simp only [getSession, getString, foundItem_map]
    rcases hfound : found now entry with - | e
  · exact .ok (Or.inl ⟨rfl, rfl⟩)
  · obtain ⟨stored, rfl, hlive⟩ := session_of_found h hfound
    have hstate : SessionStore.get (some stored) now = stored.state := if_pos hlive
    simp only [hstate]
    exact .ok (Or.inr rfl)
  · rfl
  · obtain ⟨stored, rfl, -⟩ := session_of_found h hfound
    rfl
  · exact h
  · obtain ⟨stored, rfl, -⟩ := session_of_found h hfound
    exact h

private theorem refines_set (u role : String) (state : SessionState) :
    ItemRefines (sessionKey u) Eq (setSession state role)
      (setString state.toJson ((roleTtlSeconds.lookup role).getD sessionTtlSeconds)) := by
  refine ⟨fun _ _ _ => .ok rfl, fun _ _ _ => rfl, fun _ _ _ => ?_⟩
  exact fitsAt_some (fitsKey_session u _)

private theorem refines_push (u : String) (turn : RecentTurn) :
    ItemRefines (recentKey u) Eq (pushTurn turn) (pushString turn.toJson) := by
  refine ⟨fun now entry h => ?_, fun now entry h => ?_, fun now entry h => ?_⟩
  all_goals
    simp only [pushTurn, pushString, foundItem_map]
    rcases hfound : found now entry with - | e
  · exact .ok rfl
  · obtain ⟨turns, expiresAt, rfl⟩ := turns_of_found h hfound
    exact .ok rfl
  · rfl
  · obtain ⟨turns, expiresAt, rfl⟩ := turns_of_found h hfound
    simp only [Option.map_some, RedisEntry.item, ← List.map_cons, ← List.map_take]
  · exact fitsAt_some (fitsKey_turns u _ _)
  · obtain ⟨turns, expiresAt, rfl⟩ := turns_of_found h hfound
    exact fitsAt_some (fitsKey_turns u _ _)

/-! ### Requests -/

/-- A program on texts does what a program on entries does. -/
abbrev TextRefines {α : Type} (p : Redis α) (p' : TextRedis α) : Prop :=
  p.Refines FitsKey RedisEntry.item p'

private theorem refines_acquireText (username token : String) (retries : ℕ) :
    TextRefines (acquire username token retries) (acquireText username token retries) := by
  induction retries with
  | zero =>
    rw [acquire, acquireText]
    refine .command Eq (refines_acquire username token) fun r r' h => ?_
    rcases h with ⟨rfl⟩ | e
    · rename_i b
      cases b with
      | true => exact .done _
      | false => exact .done _
    · exact .done _
  | succ n ih =>
    rw [acquire, acquireText]
    refine .command Eq (refines_acquire username token) fun r r' h => ?_
    rcases h with ⟨rfl⟩ | e
    · rename_i b
      cases b with
      | true => exact .done _
      | false => exact ih
    · exact .done _

private theorem refines_lockedText {α : Type} {body : Redis (Except PyError α)}
    {body' : TextRedis (Except PyError α)} (h : TextRefines body body') (username token : String)
    (retries : ℕ) :
    TextRefines (locked username token retries body) (lockedText username token retries body') := by
  refine (refines_acquireText username token retries).bind fun acquired => ?_
  rcases acquired with e | (_ | _)
  · exact .done _
  · exact .done _
  · refine h.bind fun outcome => .command Eq (refines_release username token) fun r r' hr => ?_
    cases hr with
    | ok h => exact .done _
    | error e => exact .done _

private theorem refines_askAndSetText (w : World) (r : AskCall) (state : SessionState) :
    TextRefines (askAndSet w r state) (askAndSetText w r state) := by
  rw [askAndSet, askAndSetText]
  rcases ask w r.question { session := state } with ⟨e | response, c⟩
  · exact .done _
  · refine .command Eq (refines_set r.username r.role c.session) fun answer answer' h => ?_
    cases h with
    | ok h => exact .done _
    | error e => exact .done _

/-- The session is decoded as it was read. -/
private theorem refines_sessionTurnText (hdepth : 3 ≤ w.rt.recursionLimit)
    (stray : LooseSession → TextRedis (Except PyError AskResponse)) (r : AskCall) :
    TextRefines (sessionTurn w r) (sessionTurnText w stray r) := by
  refine .command AnswersSession (refines_get r.username) fun answer answer' h => ?_
  cases h with
  | error e => exact .done _
  | @ok state raw h =>
    obtain ⟨loose, hload, htyped⟩ : ∃ loose, SessionState.fromJson w.rt raw = .ok loose ∧
        loose.state? = some state := by
      rcases h with ⟨rfl, rfl⟩ | rfl
      · exact ⟨{}, rfl, rfl⟩
      · exact fromJson_toJson hdepth state
    simp only [hload, htyped]
    exact refines_askAndSetText w r state

/-- **A request on texts** does what the request does. -/
theorem refines_askEndpointText (hdepth : 3 ≤ w.rt.recursionLimit)
    (stray : LooseSession → TextRedis (Except PyError AskResponse)) (r : AskCall) :
    TextRefines (askEndpoint w r) (askEndpointText w stray r) := by
  refine (refines_lockedText (refines_sessionTurnText hdepth stray r) _ _ _).bind fun outcome => ?_
  rcases outcome with e | response
  · exact .done _
  · have hpush : TextRefines (pushRecentTurn r response) (pushRecentTurnText r response) :=
      .command Eq (refines_push r.username _) fun answer answer' h => by
        cases h with
        | ok h => exact h ▸ .done _
        | error e => exact .done _
    refine hpush.bind fun pushed => ?_
    rcases pushed with e | _
    · exact .done _
    · exact .done _

end

/-! ### Runs -/

section

variable {ι : Type} [DecidableEq ι]

/-- Requests that start on a store. -/
def askPool (w : World) (calls : ι → AskCall) (s : String → Option RedisEntry) :
    Pool ι RedisOp String RedisEntry PyError (Except HttpError AskResponse) where
  program i := askEndpoint w (calls i)
  store := s

/-- The same requests, on the texts of the store. -/
def askTextPool (w : World) (stray : LooseSession → TextRedis (Except PyError AskResponse))
    (calls : ι → AskCall) (s : String → Option RedisEntry) :
    Pool ι RedisOp String RedisItem PyError (Except HttpError AskResponse) where
  program i := askEndpointText w stray (calls i)
  store key := (s key).map RedisEntry.item

/-- The turns are read back. -/
private theorem getRecentTurns_map {rt : Runtime} (hdepth : 3 ≤ rt.recursionLimit)
    {s : String → Option RedisEntry} (hfits : ∀ key, FitsAt FitsKey key (s key)) (u : String)
    (t : ℕ) :
    getRecentTurns rt (fun key => (s key).map RedisEntry.item) u t =
      .ok ((recentTurns s u t).map fun turn => turn.asdict.toJson) := by
  simp only [getRecentTurns, recentTurns, listItems, foundItem_map]
  rcases hfound : found t (s (recentKey u)) with - | e
  · rfl
  · obtain ⟨turns, expiresAt, rfl⟩ := turns_of_found (hfits _) hfound
    have hall : (turns.map RecentTurn.toJson).mapM (jsonLoads rt) =
        .ok (turns.map fun turn => turn.asdict.toJson) := by
      rw [mapM_eq_ok_iff, List.forall₂_map_left_iff, List.forall₂_map_right_iff,
        List.forall₂_same]
      exact fun turn _ => jsonLoads_turn hdepth turn
    exact hall

/-- **Texts refine sessions.** In every interleaved run of requests of any users, with failures
of Redis anywhere, each request on texts ends as the request on sessions does, the store holds
the texts of what is stored there, and the recent turns that are read back are those that were
pushed. -/
theorem text_store_refines (w : World) (hdepth : 3 ≤ w.rt.recursionLimit)
    (stray : LooseSession → TextRedis (Except PyError AskResponse)) (calls : ι → AskCall)
    {s : String → Option RedisEntry} (hfits : ∀ key, FitsAt FitsKey key (s key))
    (labels : List (PoolLabel ι PyError)) :
    (∀ i, (((askTextPool w stray calls s).run labels).program i).result =
        (((askPool w calls s).run labels).program i).result) ∧
      (∀ key, ((askTextPool w stray calls s).run labels).store key =
        (((askPool w calls s).run labels).store key).map RedisEntry.item) ∧
      ∀ u t, getRecentTurns w.rt ((askTextPool w stray calls s).run labels).store u t =
        .ok ((recentTurns ((askPool w calls s).run labels).store u t).map
          fun turn => turn.asdict.toJson) := by
  have hstart : (askPool w calls s).Refines FitsKey RedisEntry.item
      (askTextPool w stray calls s) :=
    ⟨fun i => refines_askEndpointText hdepth stray (calls i), rfl, hfits⟩
  have hrun := hstart.run labels
  refine ⟨fun i => (hrun.program i).result, fun key => by rw [hrun.store], fun u t => ?_⟩
  rw [hrun.store]
  exact getRecentTurns_map hdepth hrun.fits u t

end

/-- Alice and Bob ask at the same time, and are asked back. -/
def bothAsk (i : ℕ) : AskCall :=
  if i = 0 then sampleCall else { sampleCall with username := "bob" }

/-- `text_store_refines` when Bob's request runs between Alice's commands. -/
theorem text_store_refines_bothAsk :
    getRecentTurns askedBackWorld.rt ((askTextPool askedBackWorld
        (fun _ => .done (.error wrongType)) bothAsk fun _ => none).run
          ([0, 1, 0, 1, 0, 1, 0, 1, 0, 1].map answeredStep)).store "alice" 0 =
      .ok [(RecentTurn.mk sampleCall.question .needClarification none).asdict.toJson] := by
  have hturns : recentTurns ((askPool askedBackWorld bothAsk fun _ => none).run
      ([0, 1, 0, 1, 0, 1, 0, 1, 0, 1].map answeredStep)).store "alice" 0 =
        [⟨sampleCall.question, .needClarification, none⟩] := by decide +kernel
  have hdepth : 3 ≤ askedBackWorld.rt.recursionLimit := by decide
  have hread := (text_store_refines askedBackWorld hdepth (fun _ => .done (.error wrongType))
    bothAsk (s := fun _ => none) (fun key => fitsAt_none FitsKey key)
    ([0, 1, 0, 1, 0, 1, 0, 1, 0, 1].map answeredStep)).2.2 "alice" 0
  rw [hturns] at hread
  exact hread

end AuditFlow
