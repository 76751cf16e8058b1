import AuditFlow.Foundation.Shortlist
import AuditFlow.Orchestration.RetryLayer
import AuditFlow.Retrieval.Retrieve

/-!
# What scoping leaves of a retrieval

`get_scoped_context` selects the chunks of one document from a retrieval that has already been
**cut to five chunks of all documents** (`cross_encoder_rank(query, candidates, top_k=5)`). Its own
`top_k` counts chunks of the document, so the two cuts stand in the wrong order: whatever `top_k`
says, no more than five chunks are handed over, and the document gets its best candidates only if
the other documents leave them among those five (`scoped_best_iff`).
-/

namespace AuditFlow

open Foundation

/-- The chunks that a call hands over: those of its context, and none without a context. -/
def handedOver : Except PyError (Option RetrievalContext) → Option (List ChunkMatch)
  | .ok (some context) => some context.chunks
  | .ok none => some []
  | .error _ => none

/-- A ranked candidate is one of the document's. -/
def ofDocument (documentId : String) (r : ChunkRecord × ℚ) : Bool :=
  decide (r.1.documentId = documentId)

/-- The best `topK` candidates of the document, of all that were ranked. -/
def bestCandidates (ranked : List (ChunkRecord × ℚ)) (documentId : String) (topK : ℕ) :
    List ChunkMatch :=
  (shortlist (ofDocument documentId) topK ranked).map fun r => toChunkMatch r.1 r.2

theorem length_bestCandidates {ranked : List (ChunkRecord × ℚ)} {documentId : String} {topK : ℕ} :
    (bestCandidates ranked documentId topK).length =
      min topK (ranked.countP (ofDocument documentId)) := by
  rw [bestCandidates, List.length_map, length_shortlist]

/-- The best candidates of a shortened ranking are those of the whole ranking exactly if it still
holds as many of them. -/
theorem bestCandidates_take_eq_iff {ranked : List (ChunkRecord × ℚ)} {documentId : String}
    {topK n : ℕ} :
    bestCandidates (ranked.take n) documentId topK = bestCandidates ranked documentId topK ↔
      min topK (ranked.countP (ofDocument documentId)) ≤
        (ranked.take n).countP (ofDocument documentId) := by
  constructor
  · intro h
    have hlength := congrArg List.length h
    rw [length_bestCandidates, length_bestCandidates] at hlength
    omega
  · intro h
    rw [bestCandidates, shortlist_take_eq_iff.mpr h, bestCandidates]

/-- Selecting after the conversion to chunk matches. -/
theorem shortlist_toChunkMatch {ranked : List (ChunkRecord × ℚ)} {documentId : String}
    {topK : ℕ} :
    shortlist (fun c => decide (c.documentId = documentId)) topK
        (ranked.map fun r => toChunkMatch r.1 r.2) =
      bestCandidates ranked documentId topK :=
  shortlist_map _ _

theorem handedOver_scopedContext {documentId : String} {threshold : ℚ} {chunks : List ChunkMatch} :
    handedOver (.ok (scopedContext documentId threshold chunks)) = some chunks := by
  cases chunks with
  | nil => rfl
  | cons c cs => rfl

section

variable {σ : Type} {rt : Runtime} {getAllChunks : Exc PyError σ (List ChunkRecord)}
  {fullContextFn : String → Exc PyError σ RetrievalContext} {question documentId : String}
  {topK : ℕ} {threshold : ℚ} {s s' : σ}

/-- Without the preamble, a scoped context is a shortlist of the full one. -/
theorem getScopedContext_of_ok {context : RetrievalContext}
    (h : fullContextFn question s = (.ok context, s')) :
    getScopedContext rt getAllChunks fullContextFn question documentId topK threshold false none s =
      (.ok (scopedContext documentId threshold
        (shortlist (fun c => decide (c.documentId = documentId)) topK context.chunks)), s') := by
  have hfetch : fetchContext rt fullContextFn question none s = (.ok context, s') :=
    Exc.handle_of_ok h
  rw [getScopedContext, Exc.bind_of_ok hfetch]
  rfl

theorem getScopedContext_of_error {e : PyError} {includePreamble : Bool}
    (h : fullContextFn question s = (.error e, s')) :
    getScopedContext rt getAllChunks fullContextFn question documentId topK threshold
        includePreamble none s =
      (.error { cls := .retrievalError, cause := some e.cls,
                message := s!"Retrieval failed for question: {rt.repr question}" }, s') := by
  have hfetch : fetchContext rt fullContextFn question none s =
      (.error { cls := .retrievalError, cause := some e.cls,
                message := s!"Retrieval failed for question: {rt.repr question}" }, s') :=
    Exc.handle_of_error h
  rw [getScopedContext, Exc.bind_of_error hfetch]

end

/-! ### Five chunks of all documents -/

section

variable {rt : Runtime} {indexes : Except PyError IndexSnapshot} {rerank : Reranker}
  {question : String}

/-- All fused candidates in descending order of their scores. -/
def rankedCandidates (candidates : List ChunkRecord) (scores : List ℚ) :
    List (ChunkRecord × ℚ) :=
  sortedDesc Prod.snd (candidates.zip scores)

theorem rankedFor_eq_ok {candidates : List ChunkRecord} {scores : List ℚ}
    (hcandidates : hybridRetrieve rt indexes question = .ok candidates)
    (hscores : rerank (candidates.map fun chunk => (question, chunk.embeddingText)) = .ok scores) :
    rankedFor rt indexes rerank question = .ok ((rankedCandidates candidates scores).take 5) := by
  simp only [rankedFor, hcandidates, crossEncoderRank, bind, Except.bind, hscores]
  rfl

/-- A ranking that is not empty is scored, and its chunks are the context. -/
theorem exists_context_of_ranked {ranked : List (ChunkRecord × ℚ)}
    (hranked : rankedFor rt indexes rerank question = .ok ranked) (hne : ranked ≠ []) :
    ∃ context, getVerificationContext rt indexes rerank question = .ok context ∧
      context.chunks = ranked.map fun r => toChunkMatch r.1 r.2 := by
  rw [getVerificationContext_of_ranked hranked]
  rcases hreport : checkDocementConsistency ranked with e | consistency
  · exact absurd (checkDocementConsistency_eq_error_iff.mp hreport).1 hne
  · exact ⟨_, rfl, rfl⟩

/-- `get_scoped_context(question, d, get_verification_context, top_k, include_preamble=False)`. -/
def scopedRetrieval {σ : Type} (rt : Runtime) (getAllChunks : Exc PyError σ (List ChunkRecord))
    (indexes : Except PyError IndexSnapshot) (rerank : Reranker) (question documentId : String)
    (topK : ℕ) : Exc PyError σ (Option RetrievalContext) :=
  getScopedContext rt getAllChunks
    (fun query => Exc.ofExcept (getVerificationContext rt indexes rerank query)) question documentId
    topK (-4) false none

variable {σ : Type} {getAllChunks : Exc PyError σ (List ChunkRecord)} {documentId : String}
  {topK : ℕ} {s : σ} {ranked : List (ChunkRecord × ℚ)}

/-- **What is handed over** are the best candidates among those that the retrieval kept. -/
theorem handedOver_of_ranked (hranked : rankedFor rt indexes rerank question = .ok ranked)
    (hne : ranked ≠ []) :
    handedOver (scopedRetrieval rt getAllChunks indexes rerank question documentId topK s).1 =
      some (bestCandidates ranked documentId topK) := by
  obtain ⟨context, hcontext, hchunks⟩ := exists_context_of_ranked hranked hne
  have hcall : (Exc.ofExcept (getVerificationContext rt indexes rerank question) :
      Exc PyError σ RetrievalContext) s = (.ok context, s) := by
    rw [Exc.ofExcept_apply, hcontext]
  rw [scopedRetrieval, getScopedContext_of_ok hcall, handedOver_scopedContext, hchunks,
    shortlist_toChunkMatch]

/-- An empty ranking cannot be scored, so that the call raises. -/
theorem handedOver_of_unranked (hranked : rankedFor rt indexes rerank question = .ok []) :
    handedOver (scopedRetrieval rt getAllChunks indexes rerank question documentId topK s).1 =
      none := by
  have hcall : (Exc.ofExcept (getVerificationContext rt indexes rerank question) :
      Exc PyError σ RetrievalContext) s =
        (.error { cls := .indexError, message := "list index out of range" }, s) := by
    rw [Exc.ofExcept_apply, getVerificationContext_of_ranked hranked]
    rfl
  rw [scopedRetrieval, getScopedContext_of_error hcall]
  rfl

/-- **When scoping returns the document's best candidates.** For any fused candidates and any
reranker scores, the chunks handed over are the first `topK` candidates of the document in
descending order exactly if there is a candidate at all, and the five best candidates of all
documents hold as many of the document's as that. In every case at most five chunks are handed
over. -/
theorem scoped_best_iff (rt : Runtime) (indexes : Except PyError IndexSnapshot)
    (rerank : Reranker) (getAllChunks : Exc PyError σ (List ChunkRecord))
    (question documentId : String) (topK : ℕ) (candidates : List ChunkRecord) (scores : List ℚ)
    (s : σ) (hcandidates : hybridRetrieve rt indexes question = .ok candidates)
    (hscores : rerank (candidates.map fun chunk => (question, chunk.embeddingText)) =
      .ok scores) :
    (handedOver (scopedRetrieval rt getAllChunks indexes rerank question documentId topK s).1 =
        some (bestCandidates (rankedCandidates candidates scores) documentId topK) ↔
      rankedCandidates candidates scores ≠ [] ∧
        min topK ((rankedCandidates candidates scores).countP (ofDocument documentId)) ≤
          ((rankedCandidates candidates scores).take 5).countP (ofDocument documentId)) ∧
      ∀ chunks, handedOver
        (scopedRetrieval rt getAllChunks indexes rerank question documentId topK s).1 =
          some chunks → chunks.length ≤ 5 := by
  have hranked := rankedFor_eq_ok hcandidates hscores
  by_cases hne : rankedCandidates candidates scores = []
  · -- nothing to rank: scoring raises, so that not even an empty list is handed over
    rw [hne, List.take_nil] at hranked
    rw [handedOver_of_unranked hranked]
    constructor
    · exact iff_of_false (fun h => nomatch h) fun h => h.1 hne
    · intro chunks h
      cases h
  · have hkept : (rankedCandidates candidates scores).take 5 ≠ [] := by
      rw [Ne, List.take_eq_nil_iff]
      exact fun h => h.elim (by decide) hne
    rw [handedOver_of_ranked hranked hkept, Option.some.injEq, bestCandidates_take_eq_iff]
    constructor
    · exact (and_iff_right hne).symm
    · intro chunks h
      obtain rfl := Option.some.inj h
      have hcount : ((rankedCandidates candidates scores).take 5).countP (ofDocument documentId) ≤
          ((rankedCandidates candidates scores).take 5).length := List.countP_le_length
      rw [List.length_take] at hcount
      rw [length_bestCandidates]
      omega

end

/-- The `i`-th of the sample's chunks, all of one document. -/
private def crowdedChunk (i : ℕ) : ChunkRecord where
  chunkId := "lease::" ++ toString i
  documentId := "lease"
  chunkIndex := i
  rawChunkText := "Section " ++ toString i
  embeddingText := "Section " ++ toString i
  contentHash := toString i

private def crowdedChunks : List ChunkRecord := (List.range 6).map crowdedChunk

/-- Indexes whose search finds six chunks of one document. -/
private def crowdedIndexes : Except PyError IndexSnapshot := .ok {
  similaritySearch := fun _ => .ok (crowdedChunks.map ChunkRecord.chunkId)
  bm25Ids := crowdedChunks.map ChunkRecord.chunkId
  bm25Scores := fun _ => .ok (crowdedChunks.map fun _ => 0)
  corpus := ⟨crowdedChunks.map fun chunk => (chunk.chunkId, chunk), by decide +kernel⟩ }

/-- A reranker to which all pairs are alike. -/
private def evenReranker : Reranker := fun pairs => .ok (pairs.map fun _ => 1)

private def crowdedRetrieval (topK : ℕ) : Exc PyError Unit (Option RetrievalContext) :=
  scopedRetrieval Runtime.example (pure crowdedChunks) crowdedIndexes evenReranker
    "When does the lease end?" "lease" topK

theorem scoped_best_five :
    handedOver (crowdedRetrieval 5 ()).1 =
      some (bestCandidates (rankedCandidates crowdedChunks [1, 1, 1, 1, 1, 1]) "lease" 5) := by
  have hiff := scoped_best_iff Runtime.example crowdedIndexes evenReranker
    (pure crowdedChunks : Exc PyError Unit (List ChunkRecord)) "When does the lease end?" "lease" 5
    crowdedChunks [1, 1, 1, 1, 1, 1] () (by decide +kernel) (by decide +kernel)
  exact hiff.1.mpr (by decide +kernel)

/-- The wider context of the retry has room for twelve chunks, and the document has six candidates,
but five are handed over. -/
theorem wider_scope_keeps_five :
    (rankedCandidates crowdedChunks [1, 1, 1, 1, 1, 1]).countP (ofDocument "lease") = 6 ∧
      handedOver (crowdedRetrieval 12 ()).1 ≠
        some (bestCandidates (rankedCandidates crowdedChunks [1, 1, 1, 1, 1, 1]) "lease" 12) ∧
      (handedOver (crowdedRetrieval 12 ()).1).map List.length = some 5 := by
  decide +kernel

end AuditFlow
