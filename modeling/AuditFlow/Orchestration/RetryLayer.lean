import AuditFlow.Foundation.Exc
import AuditFlow.Core.JsonExtraction
import AuditFlow.Ingest.Models

/-!
# The retry layer

`orchestration/retry_layer.py`: retrieval narrowed to one document, generation from it, and at
most one retry with a wider context found through a reformulated query.

The layer calls back into retrieval and generation, so it is written over an arbitrary state
and arbitrary callbacks. Two facts carry the rest: a scoped context holds **chunks of its document
only** (`getScopedContext_documentId`), and a run of the layer does nothing to the state beyond what
its callbacks do when called with such chunks (`generateWithBoundedRetry_moves`).
-/

namespace AuditFlow

open Foundation

/-- `REFORMULATION_TEMPLATE`, in dictionary order. -/
def reformulationTemplate : List (String × String) :=
  [("effective date", "dated as of"),
   ("agreement date", "made this day of"),
   ("end date", "shall expire on"),
   ("expiration date", "shall expire on"),
   ("expiry date", "shall expire on"),
   ("term of this agreement", "shall continue for a period of"),
   ("how long does this agreement last", "shall continue for a period of"),
   ("when does this agreement end", "shall expire on"),
   ("when does this agreement expire", "shall expire on"),
   ("signed", "made and entered into as of"),
   ("parties", "by and between"),
   ("governing law", "governed by and construed in accordance with the laws of"),
   ("jurisdiction", "governed by and construed in accordance with the laws of"),
   ("termination", "may terminate this agreement"),
   ("expiration", "shall expire on"),
   ("renewal", "shall automatically renew")]

/-- `reformulate_query`: the phrasing of the first trigger that occurs as a whole phrase. -/
def reformulateQuery (rt : Runtime) (question : String) : Option String :=
  (reformulationTemplate.find? fun entry =>
    Text.searchWord rt.unicode entry.1.toList none (rt.unicode.lower question.toList)).map Prod.snd

/-- `needs_retry`: some claim has no source. -/
def needsRetry (claims : List Claim) : Bool := claims.any fun c => c.sourceChunkId.isNone

/-- The preamble of the document is appended unless it is already among the scoped chunks. -/
def withPreamble (allChunks : List ChunkRecord) (documentId : String)
    (scopedChunks : List ChunkMatch) : List ChunkMatch :=
  match allChunks.find? fun c => decide (c.documentId = documentId) && c.isPreamble with
  | none => scopedChunks
  | some preamble =>
    if scopedChunks.any fun c => decide (c.chunkId = preamble.chunkId) then scopedChunks
    else scopedChunks ++
      [{ chunkId := preamble.chunkId, documentId, rawChunkText := preamble.rawChunkText,
         score := 0 }]

/-- The context made of the scoped chunks; there is none for no chunks. -/
def scopedContext (documentId : String) (fallbackScoreThreshold : ℚ) :
    List ChunkMatch → Option RetrievalContext
  | [] => none
  | c :: cs =>
    let bestScore := (cs.map ChunkMatch.score).foldl max c.score
    some {
      chunks := c :: cs
      consistency := {
        topContract := some documentId
        concentration := 1
        bestScore := some bestScore
        isConfident := decide (fallbackScoreThreshold ≤ bestScore) } }

section

variable {σ : Type} (rt : Runtime) (getAllChunks : Exc PyError σ (List ChunkRecord))
  (generateFn : String → List ChunkMatch → Exc PyError σ GenerationResult)
  (fullContextFn : String → Exc PyError σ RetrievalContext)

/-- The full context: the prefetched one, or a fresh retrieval whose failures are labelled. -/
def fetchContext (question : String) :
    Option RetrievalContext → Exc PyError σ RetrievalContext
  | some prefetchedContext => pure prefetchedContext
  | none => (fullContextFn question).handle fun e =>
      Exc.raise { cls := .retrievalError, cause := some e.cls,
                  message := s!"Retrieval failed for question: {rt.repr question}" }

/-- The preamble step of `get_scoped_context`. -/
def includePreambleChunk (documentId : String) (includePreamble : Bool)
    (scopedChunks : List ChunkMatch) : Exc PyError σ (List ChunkMatch) :=
  if includePreamble then do
    let allChunks ← getAllChunks
    return withPreamble allChunks documentId scopedChunks
  else pure scopedChunks

/-- `get_scoped_context`. -/
def getScopedContext (question documentId : String) (topK : ℕ := 5)
    (fallbackScoreThreshold : ℚ := -4) (includePreamble : Bool := true)
    (prefetchedContext : Option RetrievalContext := none) :
    Exc PyError σ (Option RetrievalContext) := do
  let fullContext ← fetchContext rt fullContextFn question prefetchedContext
  let matching := fullContext.chunks.filter fun c => decide (c.documentId = documentId)
  let scopedChunks ← includePreambleChunk getAllChunks documentId includePreamble
    (matching.take topK)
  return scopedContext documentId fallbackScoreThreshold scopedChunks

/-- `generate_with_bounded_retry`. -/
def generateWithBoundedRetry (question documentId : String)
    (prefetchedContext : Option RetrievalContext := none) :
    Exc PyError σ (Option GenerationResult) := do
  let scope ← getScopedContext rt getAllChunks fullContextFn question documentId 5 (-4) true
    prefetchedContext
  match scope with
  | none => return none
  | some scope =>
    let result ← generateFn question scope.chunks
    if needsRetry result.claims then
      match reformulateQuery rt question with
      | none => return some result
      | some reformulated =>
        let widerScope ← getScopedContext rt getAllChunks fullContextFn reformulated documentId 12
        match widerScope with
        | none => return some result
        | some widerScope =>
          let retryResult ← generateFn question widerScope.chunks
          -- a retry that still lacks sources is thrown away
          return some (if needsRetry retryResult.claims then result else retryResult)
    else return some result

end

/-! ### Scoped contexts -/

theorem withPreamble_documentId {allChunks : List ChunkRecord} {documentId : String}
    {scopedChunks : List ChunkMatch} (h : ∀ c ∈ scopedChunks, c.documentId = documentId) :
    ∀ c ∈ withPreamble allChunks documentId scopedChunks, c.documentId = documentId := by
  intro c hc
  rw [withPreamble] at hc
  -- the preamble is added only if it is found, under this document id, and is not there yet
  split at hc
  · exact h c hc
  · split_ifs at hc
    · exact h c hc
    · rcases List.mem_append.mp hc with hc | hc
      · exact h c hc
      · rw [List.mem_singleton.mp hc]

theorem scopedContext_eq_some {documentId : String} {threshold : ℚ} {chunks : List ChunkMatch}
    {context : RetrievalContext} (h : scopedContext documentId threshold chunks = some context) :
    context.chunks = chunks ∧ chunks ≠ [] := by
  cases chunks with
  | nil => cases h
  | cons c cs =>
    cases h
    exact ⟨rfl, List.cons_ne_nil c cs⟩

/-- A scoped context of some chunks has these chunks. -/
theorem exists_scopedContext (documentId : String) (threshold : ℚ) {chunks : List ChunkMatch}
    (hne : chunks ≠ []) :
    ∃ scope, scopedContext documentId threshold chunks = some scope ∧ scope.chunks = chunks := by
  cases chunks with
  | nil => exact absurd rfl hne
  | cons c cs => exact ⟨_, rfl, rfl⟩

section

variable {σ : Type} {rt : Runtime} {getAllChunks : Exc PyError σ (List ChunkRecord)}
  {generateFn : String → List ChunkMatch → Exc PyError σ GenerationResult}
  {fullContextFn : String → Exc PyError σ RetrievalContext} {question documentId : String}
  {topK : ℕ} {threshold : ℚ} {includePreamble : Bool} {prefetched : Option RetrievalContext}

theorem includePreambleChunk_documentId {s s' : σ} {chunks chunks' : List ChunkMatch}
    (hchunks : ∀ c ∈ chunks, c.documentId = documentId)
    (h : includePreambleChunk getAllChunks documentId includePreamble chunks s =
      (.ok chunks', s')) : ∀ c ∈ chunks', c.documentId = documentId := by
  unfold includePreambleChunk at h
  split_ifs at h
  · obtain ⟨allChunks, s₁, -, hpre⟩ := Exc.bind_eq_ok_iff.mp h
    obtain rfl : withPreamble allChunks documentId chunks = chunks' :=
      Except.ok.inj (congrArg Prod.fst hpre)
    exact withPreamble_documentId hchunks
  · obtain rfl : chunks = chunks' := Except.ok.inj (congrArg Prod.fst h)
    exact hchunks

/-- **A scoped context holds chunks of its document only.** -/
theorem getScopedContext_documentId {s s' : σ} {context : RetrievalContext}
    (h : getScopedContext rt getAllChunks fullContextFn question documentId topK threshold
      includePreamble prefetched s = (.ok (some context), s')) :
    ∀ c ∈ context.chunks, c.documentId = documentId := by
  unfold getScopedContext at h
  obtain ⟨fullContext, s₁, -, h⟩ := Exc.bind_eq_ok_iff.mp h
  obtain ⟨scopedChunks, s₂, hscoped, h⟩ := Exc.bind_eq_ok_iff.mp h
  have hcontext : scopedContext documentId threshold scopedChunks = some context :=
    Except.ok.inj (congrArg Prod.fst h)
  rw [(scopedContext_eq_some hcontext).1]
  exact includePreambleChunk_documentId (fun c hc =>
    of_decide_eq_true (List.mem_filter.mp (List.mem_of_mem_take hc)).2) hscoped

variable {R : σ → σ → Prop} [IsPreorder σ R]

theorem getScopedContext_moves (hall : getAllChunks.Moves R)
    (hfull : ∀ q, Exc.Moves R (fullContextFn q)) :
    Exc.Moves R (getScopedContext rt getAllChunks fullContextFn question documentId topK threshold
      includePreamble prefetched) := by
  unfold getScopedContext
  refine Exc.Moves.bind ?_ fun fullContext => Exc.Moves.bind ?_ fun _ => Exc.moves_pure _
  · cases prefetched with
    | none => exact (hfull question).handle fun e => Exc.moves_raise _
    | some context => exact Exc.moves_pure _
  · unfold includePreambleChunk
    split_ifs
    · exact hall.bind fun _ => Exc.moves_pure _
    · exact Exc.moves_pure _

/-- A run of the layer moves the state only through its callbacks, and hands the generator the
original question and chunks of the document only. -/
theorem generateWithBoundedRetry_moves (hall : Exc.Moves R getAllChunks)
    (hfull : ∀ q, Exc.Moves R (fullContextFn q))
    (hgen : ∀ chunks, (∀ c ∈ chunks, c.documentId = documentId) →
      Exc.Moves R (generateFn question chunks)) :
    Exc.Moves R (generateWithBoundedRetry rt getAllChunks generateFn fullContextFn question
      documentId prefetched) := by
  have hscope : ∀ q topK ctx, Exc.Moves R
      (getScopedContext rt getAllChunks fullContextFn q documentId topK (-4) true ctx) :=
    fun q topK ctx => getScopedContext_moves hall hfull
  unfold generateWithBoundedRetry
  refine (hscope question 5 prefetched).bind_of_ok fun scope s s' hs => ?_
  cases scope with
  | none => exact Exc.moves_pure _
  | some scope =>
    -- the generator runs on a scope that was returned, hence on chunks of the document
    refine (hgen scope.chunks (getScopedContext_documentId hs)).bind fun result => ?_
    split_ifs
    · cases reformulateQuery rt question with
      | none => exact Exc.moves_pure _
      | some reformulated =>
        refine (hscope reformulated 12 none).bind_of_ok fun wider s s' hw => ?_
        cases wider with
        | none => exact Exc.moves_pure _
        | some wider =>
          exact (hgen wider.chunks (getScopedContext_documentId hw)).bind fun _ =>
            Exc.moves_pure _
    · exact Exc.moves_pure _

end

end AuditFlow
