import AuditFlow.Generation.Generate
import AuditFlow.Orchestration.Matching
import AuditFlow.Orchestration.RetryLayer
import AuditFlow.Retrieval.Retrieve
import AuditFlow.Verification.Verify

/-!
# The pipeline

`Sessions.ask` of `orchestration/pipeline.py`: a message is the choice of an offered contract, or
it is retrieved for afresh, and then answered confidently, from a contract it names, from the
active contract, by asking back, or not at all.

Everything outside the repository — indexes, reranker, generator, judge, and what other threads do
to the lookup tables — is a `World`, which may answer differently **at every moment**: the moment
of a call is the number of calls made before it, that is the length of the trace so far. The trace
records the calls an observer can see; the session is the one object that a call mutates, and a
raise leaves the mutations made before it.

`ask_exit` takes a returning call apart, once and for all, into the four routes to an answer
(`Route`) and the five ways to return (`AskExit`).
-/

namespace AuditFlow

open Foundation

/-- A call that `ask` makes, in the order in which they return. -/
inductive Event
  /-- `get_verification_context(query)`. -/
  | retrieve (query : String)
  /-- `get_all_chunks()`. -/
  | readChunks
  /-- `generate_answer(question, chunks)`. -/
  | generate (question : String) (chunks : List ChunkMatch)
  /-- `answer_with_retry(_, document_id)` returned a result. -/
  | answer (documentId : String) (result : Option GenerationResult)
  /-- `verify_all_claims(claims, chunk_lookup)`. -/
  | verify (claims : List Claim) (chunkLookup : Dict String String)

/-- What a call to `ask` reads and writes: the user's session and the trace of calls. -/
structure Ctx where
  session : SessionState
  trace : List Event := []

/-- Everything outside the repository, at every moment. -/
structure World where
  rt : Runtime
  /-- The loaded indexes, or what loading them raises. -/
  indexes : ℕ → Except PyError IndexSnapshot
  rerank : ℕ → Reranker
  /-- `USE_LOCAL_GENERATION`. -/
  useLocalGeneration : Bool := true
  generator : ℕ → ChatClient
  judge : ℕ → ℕ → ChatClient
  /-- `self.chunk_lookup`, which a reload replaces. -/
  chunkLookup : ℕ → Dict String String
  /-- `self.all_identities`, which a reload replaces. -/
  identities : ℕ → Dict String Identity

/-- A stage of `ask`. -/
abbrev Ask (α : Type) : Type := Exc PyError Ctx α

/-! ### Calls and session updates -/

/-- A call outwards: its outcome depends on the moment, and the trace records it. -/
def call {α : Type} (event : Event) (outcome : ℕ → Except PyError α) : Ask α := fun c =>
  (outcome c.trace.length, { c with trace := c.trace ++ [event] })

/-- Read a table that a reload may replace. -/
def look {α : Type} (table : ℕ → α) : Ask α := fun c => (.ok (table c.trace.length), c)

/-- The session of a context, replaced. -/
def Ctx.withSession (c : Ctx) (f : SessionState → SessionState) : Ctx :=
  { c with session := f c.session }

/-- Assign fields of `state`. -/
def setState (f : SessionState → SessionState) : Ask Unit := Exc.modify fun c => c.withSession f

/-- `state`. -/
def getState : Ask SessionState := fun c => (.ok c.session, c)

theorem look_bind {α β : Type} (table : ℕ → α) (f : α → Ask β) (c : Ctx) :
    (look table >>= f) c = f (table c.trace.length) c := rfl

theorem setState_bind {α : Type} (g : SessionState → SessionState) (f : Unit → Ask α) (c : Ctx) :
    (setState g >>= f) c = f () (c.withSession g) := rfl

theorem getState_bind {α : Type} (f : SessionState → Ask α) (c : Ctx) :
    (getState >>= f) c = f c.session c := rfl

section

variable (w : World)

/-- `get_verification_context`, called. -/
def retrieveContext (query : String) : Ask RetrievalContext :=
  call (.retrieve query) fun t => getVerificationContext w.rt (w.indexes t) (w.rerank t) query

/-- `get_all_chunks`, called. -/
def readAllChunks : Ask (List ChunkRecord) := call .readChunks fun t => getAllChunks (w.indexes t)

/-- `generate_answer`, called: the local or the hosted generator. -/
def callGenerator (question : String) (chunks : List ChunkMatch) : Ask GenerationResult :=
  call (.generate question chunks) fun t =>
    if w.useLocalGeneration then generateAnswer w.rt (w.generator t) question chunks
    else generateAnswerGroq w.rt (w.generator t) question chunks

/-- `answer_with_retry`. -/
def answerWithRetry (question documentId : String)
    (prefetchedContext : Option RetrievalContext := none) : Ask (Option GenerationResult) := do
  let result ← generateWithBoundedRetry w.rt (readAllChunks w) (callGenerator w)
    (retrieveContext w) question documentId prefetchedContext
  call (.answer documentId result) fun _ => .ok ()
  return result

/-- `_verify`. -/
def verify (claims : List Claim) (chunkLookup : Dict String String) : Ask (List VerifiedClaim) :=
  (call (.verify claims chunkLookup) fun t =>
    verifyAllClaims w.rt (w.judge t) claims chunkLookup).handle fun e =>
      Exc.raise { cls := .verificationError, message := "Claim verification failed",
                  cause := some e.cls }

/-- The end of every answer: verify the claims against the lookup of the moment. -/
def verifyAnswer (result : GenerationResult) (documentId : String) : Ask AskResponse := do
  let chunkLookup ← look w.chunkLookup
  let verifiedClaims ← verify w result.claims chunkLookup
  return .answered verifiedClaims documentId

/-! ### `Sessions` -/

/-- `_resolve_pending_selection`, for the pending question `resolvedQuestion`. -/
def resolvePendingSelection (question resolvedQuestion : String) : Ask AskResponse := do
  let state ← getState
  let chosenDocumentId := String.ofList (Text.strip question.toList)
  if chosenDocumentId ∈ state.pendingCandidates then
    setState fun state => { state with pendingQuestion := none, pendingCandidates := [] }
    -- a fresh retrieval: the chunks of the pending question were not kept
    match ← answerWithRetry w resolvedQuestion chosenDocumentId with
    | none => return .lowRelevance (some chosenDocumentId)
    | some result =>
      setState fun state => { state with activeContract := some chosenDocumentId }
      verifyAnswer w result chosenDocumentId
  else
    -- the state is not touched, so the same question stays pending
    return .needClarification state.pendingCandidates

/-- The first part of `_handle_low_confidence`: a contract that the question names; `none` falls
through. -/
def answerMentioned (question : String) : Ask (Option AskResponse) := do
  let identities ← look w.identities
  let state ← getState
  match truthy (mentionsDifferentContract w.rt question identities state.activeContract) with
  | none => return none
  | some mentioned =>
    if some mentioned = state.activeContract then return none
    else
      -- the active contract is dropped before the named one has been tried
      setState fun state => { state with activeContract := none }
      match ← answerWithRetry w question mentioned with
      | none => return none
      | some result =>
        setState fun state => { state with activeContract := some mentioned }
        return some (← verifyAnswer w result mentioned)

/-- The second part of `_handle_low_confidence`: the active contract; `none` falls through. -/
def answerActive (question : String) : Ask (Option AskResponse) := do
  let state ← getState
  match truthy state.activeContract with
  | none => return none
  | some activeContract =>
    match ← answerWithRetry w question activeContract with
    | none => return none
    | some result => return some (← verifyAnswer w result activeContract)

/-- The last part of `_handle_low_confidence`: ask back when no document dominates. -/
def clarifyOrDecline (question : String) (consistency : ConsistencyReport) : Ask AskResponse :=
  if consistency.concentration < 3 / 5 then do
    let candidates := consistency.contractBreakdown.keys
    setState fun state =>
      { state with pendingQuestion := some question, pendingCandidates := candidates }
    return .needClarification candidates
  else do
    setState fun state => { state with activeContract := consistency.topContract }
    return .lowRelevance consistency.topContract

/-- `_handle_low_confidence`. -/
def handleLowConfidence (question : String) (consistency : ConsistencyReport) :
    Ask AskResponse := do
  match ← answerMentioned w question with
  | some response => return response
  | none =>
    match ← answerActive w question with
    | some response => return response
    | none => clarifyOrDecline question consistency

/-- The generation step of `_generate_and_verify`, with its failures labelled. No chunk carries
the document id `None`, so for that one only the corpus is read. -/
def generateConfident (question : String) (context : RetrievalContext) :
    Option String → Ask (Option GenerationResult)
  | some topDoc => (answerWithRetry w question topDoc (some context)).handle fun e =>
      Exc.raise { cls := .generationError, message := s!"Generation failed for document {topDoc}",
                  cause := some e.cls }
  | none => (do let _ ← readAllChunks w; return none).handle fun e =>
      Exc.raise { cls := .generationError, message := "Generation failed for document None",
                  cause := some e.cls }

/-- `_generate_and_verify`. -/
def generateAndVerify (question : String) (context : RetrievalContext) : Ask AskResponse := do
  let topDoc := context.consistency.topContract
  match ← generateConfident w question context topDoc, topDoc with
  | some result, some topDoc => verifyAnswer w result topDoc
  | _, _ => return .lowRelevance topDoc

/-- `ask` for a message that is not a selection. -/
def askFresh (question : String) : Ask AskResponse := do
  let context ← retrieveContext w question
  let consistency := context.consistency
  if consistency.isConfident then
    setState fun state =>
      { state with activeContract := consistency.topContract, pendingQuestion := none }
    generateAndVerify w question context
  else
    handleLowConfidence w question consistency

/-- `Sessions.ask`. -/
def ask (question : String) : Ask AskResponse := do
  let state ← getState
  match truthy state.pendingQuestion with
  | some pendingQuestion =>
    if looksLikeContractSelection w.rt question then
      resolvePendingSelection w question pendingQuestion
    else askFresh w question
  | none => askFresh w question

end

end AuditFlow
