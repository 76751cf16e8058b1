import AuditFlow.Core.JsonExtraction
import AuditFlow.Foundation.Ranking
import AuditFlow.Foundation.Tally
import AuditFlow.Ingest.Models
import Mathlib.Algebra.Order.Field.Rat

/-!
# Cross-document retrieval

`retrieval/retrieve.py`: the two rankings of the hybrid index are fused, the fused candidates
reranked by a cross encoder, and the best of them scored per document; the report decides whether
one contract dominates.

The FAISS search, the BM25 scores and the cross encoder are parameters (`IndexSnapshot`,
`Reranker`); everything computed from their results is here. Scores are exact rationals and
`sorted` is insertion sort, which is stable as Python's is.
-/

namespace AuditFlow

open Foundation

/-- `sorted(xs, key=key, reverse=True)`: highest key first, ties in their original order. -/
def sortedDesc {α : Type} (key : α → ℚ) (xs : List α) : List α :=
  xs.insertionSort fun a b => key b ≤ key a

/-- The loaded indexes: FAISS search and BM25 scoring as functions, and the corpus. -/
structure IndexSnapshot where
  /-- The `chunk_id`s of `similarity_search_with_score(query, k=20)`. -/
  similaritySearch : String → Except PyError (List String)
  /-- The ids of the cached BM25 index, in corpus order. -/
  bm25Ids : List String
  /-- `get_scores(tokens)`, one score per id. -/
  bm25Scores : List String → Except PyError (List ℚ)
  corpus : Dict String ChunkRecord

/-- The cross encoder: one logit per (query, text) pair. -/
abbrev Reranker : Type := List (String × String) → Except PyError (List ℚ)

/-- `get_all_chunks`. -/
def getAllChunks (indexes : Except PyError IndexSnapshot) : Except PyError (List ChunkRecord) :=
  indexes.map fun index => index.corpus.values

/-- `_reciprocal_rank_fusion`, with `k = 60`. -/
def reciprocalRankFusion (rankedIdLists : List (List String)) : List String :=
  let scores : Dict String ℚ := rankedIdLists.foldl (fun scores rankedIds =>
    rankedIds.zipIdx.foldl (fun scores (chunkId, rank) =>
      scores.set chunkId ((scores.get? chunkId).getD 0 + 1 / (60 + (rank : ℚ) + 1))) scores) .empty
  (sortedDesc Prod.snd scores.entries).map Prod.fst

/-- `query.lower().split()`. -/
def tokenize (rt : Runtime) (query : String) : List String :=
  (Text.words (rt.unicode.lower query.toList)).map String.ofList

/-- `hybrid_retrieve`: at most `topN` fused candidates; ids that the corpus snapshot does not have
are skipped. -/
def hybridRetrieve (rt : Runtime) (indexes : Except PyError IndexSnapshot) (query : String)
    (topN : ℕ := 20) : Except PyError (List ChunkRecord) := do
  let index ← indexes
  let faissRankedIds ← index.similaritySearch query
  let bm25Scores ← index.bm25Scores (tokenize rt query)
  let bm25TopIndices := (sortedDesc Prod.fst bm25Scores.zipIdx).take 20
  let bm25RankedIds ← bm25TopIndices.mapM fun (_, i) =>
    match index.bm25Ids[i]? with
    | some chunkId => .ok chunkId
    | none => .error { cls := .indexError, message := "list index out of range" }
  let fusedIds := (reciprocalRankFusion [faissRankedIds, bm25RankedIds]).take topN
  return fusedIds.filterMap index.corpus.get?

/-- `cross_encoder_rank`. -/
def crossEncoderRank (rerank : Reranker) (query : String) (candidates : List ChunkRecord)
    (topK : ℕ := 15) : Except PyError (List (ChunkRecord × ℚ)) := do
  let scores ← rerank (candidates.map fun chunk => (query, chunk.embeddingText))
  return (sortedDesc Prod.snd (candidates.zip scores)).take topK

/-- One document's share of the reranked chunks. -/
structure DocumentStats where
  totalScore : ℚ := 0
  chunkCount : ℕ := 0

/-- The table `scores_by_doc`: total score and chunk count per document, in the order of first
occurrence. -/
def scoresByDoc (rerankedResults : List (ChunkRecord × ℚ)) : Dict String DocumentStats :=
  rerankedResults.foldl (fun scores (chunk, score) =>
    let entry := (scores.get? chunk.documentId).getD {}
    scores.set chunk.documentId
      { totalScore := entry.totalScore + score, chunkCount := entry.chunkCount + 1 }) .empty

/-- `check_docement_consistency`, with `concentration_threshold = 0.6` and
`score_threshold = 0.355`; there is no first document in an empty ranking. -/
def checkDocementConsistency (rerankedResults : List (ChunkRecord × ℚ)) :
    Except PyError ConsistencyReport :=
  let scores := scoresByDoc rerankedResults
  match sortedDesc (fun kv => kv.2.totalScore) scores.entries with
  | [] => .error { cls := .indexError, message := "list index out of range" }
  | (topDoc, topStats) :: rest =>
    let concentration := (topStats.chunkCount : ℚ) / rerankedResults.length
    let avgTopScore := topStats.totalScore / topStats.chunkCount
    .ok {
      topContract := some topDoc
      concentration
      avgTopScore
      margin := match rest with
        | [] => ⊤
        | (_, second) :: _ => (topStats.totalScore - second.totalScore : ℚ)
      isConfident := decide (3 / 5 ≤ concentration) && decide (71 / 200 ≤ avgTopScore)
      contractBreakdown := ⟨scores.entries.map fun kv => (kv.1, kv.2.chunkCount), by
        rw [List.map_map]
        exact scores.nodup⟩ }

/-- `_to_chunk_match`. -/
def toChunkMatch (chunk : ChunkRecord) (score : ℚ) : ChunkMatch :=
  { chunkId := chunk.chunkId, documentId := chunk.documentId,
    rawChunkText := chunk.rawChunkText, score }

/-- `get_verification_context`: what the search raises is a `RetrievalError`; what the scoring of
an empty ranking raises is not. -/
def getVerificationContext (rt : Runtime) (indexes : Except PyError IndexSnapshot)
    (rerank : Reranker) (query : String) : Except PyError RetrievalContext := do
  let reranked ←
    match (do crossEncoderRank rerank query (← hybridRetrieve rt indexes query 20) 5) with
    | .ok reranked => Except.ok reranked
    | .error e =>
      .error { cls := .retrievalError, cause := some e.cls,
               message := s!"Retrieval failed for query: {rt.repr query}" }
  let consistency ← checkDocementConsistency reranked
  return { chunks := reranked.map fun r => toChunkMatch r.1 r.2, consistency }

/-! ### The report -/

theorem checkDocementConsistency_topContract {results : List (ChunkRecord × ℚ)}
    {report : ConsistencyReport} (h : checkDocementConsistency results = .ok report) :
    ∃ topDoc, report.topContract = some topDoc := by
  rw [checkDocementConsistency] at h
  split at h
  · cases h
  · cases h
    exact ⟨_, rfl⟩

/-- A report is confident only when one document holds three fifths of the chunks. -/
theorem checkDocementConsistency_concentration {results : List (ChunkRecord × ℚ)}
    {report : ConsistencyReport} (h : checkDocementConsistency results = .ok report)
    (hconf : report.isConfident = true) : 3 / 5 ≤ report.concentration := by
  rw [checkDocementConsistency] at h
  split at h
  · cases h
  · cases h
    exact of_decide_eq_true (Bool.and_eq_true_iff.mp hconf).1

/-! ### The table of scores -/

/-- One more chunk of a document. -/
def DocumentStats.add (stats : DocumentStats) (r : ChunkRecord × ℚ) : DocumentStats :=
  { totalScore := stats.totalScore + r.2, chunkCount := stats.chunkCount + 1 }

/-- The table is a tally of the chunks by document. -/
theorem scoresByDoc_eq (results : List (ChunkRecord × ℚ)) :
    scoresByDoc results =
      Dict.tally (fun r => r.1.documentId) {} DocumentStats.add .empty results := rfl

/-- The documents that are scored. -/
theorem mem_keys_scoresByDoc {results : List (ChunkRecord × ℚ)} {d : String} :
    d ∈ (scoresByDoc results).keys ↔ ∃ r ∈ results, r.1.documentId = d := by
  rw [scoresByDoc_eq, Dict.mem_keys_tally]
  exact or_iff_right List.not_mem_nil

/-- The stats of a document, of its chunks alone. -/
theorem get?_scoresByDoc {results : List (ChunkRecord × ℚ)} {d : String}
    (h : ∃ r ∈ results, r.1.documentId = d) :
    (scoresByDoc results).get? d =
      some ((results.filter fun r => r.1.documentId = d).foldl DocumentStats.add {}) := by
  rw [scoresByDoc_eq]
  exact Dict.get?_tally_empty _ _ _ h

/-- The stats of a document are the sum of its scores and their number. -/
theorem foldl_add_eq (results : List (ChunkRecord × ℚ)) (stats : DocumentStats) :
    results.foldl DocumentStats.add stats =
      { totalScore := stats.totalScore + (results.map Prod.snd).sum,
        chunkCount := stats.chunkCount + results.length } := by
  induction results generalizing stats with
  | nil =>
    rw [List.foldl_nil, List.map_nil, List.sum_nil, add_zero, List.length_nil, Nat.add_zero]
  | cons r results ih =>
    rw [List.foldl_cons, ih, DocumentStats.add, List.map_cons, List.sum_cons, List.length_cons,
      DocumentStats.mk.injEq]
    constructor
    · rw [add_assoc]
    · dsimp only
      omega

/-- **Scoring fails exactly on an empty ranking.** -/
theorem checkDocementConsistency_eq_error_iff {results : List (ChunkRecord × ℚ)} {e : PyError} :
    checkDocementConsistency results = .error e ↔
      results = [] ∧ e = { cls := .indexError, message := "list index out of range" } := by
  constructor
  · intro h
    rw [checkDocementConsistency] at h
    split at h
    · rename_i hsorted
      refine ⟨?_, (Except.error.inj h).symm⟩
      cases results with
      | nil => rfl
      | cons r results =>
        -- the document of a chunk has been scored, so there is something to sort
        have hscored : r.1.documentId ∈ (scoresByDoc (r :: results)).keys :=
          mem_keys_scoresByDoc.mpr ⟨r, List.mem_cons_self, rfl⟩
        obtain ⟨stats, hget⟩ := Dict.mem_keys_iff.mp hscored
        have hmem : (r.1.documentId, stats) ∈
            sortedDesc (fun kv => kv.2.totalScore) (scoresByDoc (r :: results)).entries := by
          rw [sortedDesc, List.mem_insertionSort]
          exact Dict.mem_entries_iff.mpr hget
        rw [hsorted] at hmem
        cases hmem
    · cases h
  · rintro ⟨rfl, rfl⟩
    rfl

/-- The breakdown lists the documents of the ranking, each once. -/
theorem checkDocementConsistency_keys {results : List (ChunkRecord × ℚ)}
    {report : ConsistencyReport} (h : checkDocementConsistency results = .ok report) (d : String) :
    d ∈ report.contractBreakdown.keys ↔ ∃ r ∈ results, r.1.documentId = d := by
  rw [checkDocementConsistency] at h
  split at h
  · cases h
  · cases h
    have hkeys : Dict.keys (⟨(scoresByDoc results).entries.map fun kv => (kv.1, kv.2.chunkCount), by
        rw [List.map_map]
        exact (scoresByDoc results).nodup⟩ : Dict String ℕ) = (scoresByDoc results).keys :=
      List.map_map
    rw [hkeys]
    exact mem_keys_scoresByDoc

/-- The concentration is the share of the chunks that the top document has. -/
theorem checkDocementConsistency_share {results : List (ChunkRecord × ℚ)}
    {report : ConsistencyReport} (h : checkDocementConsistency results = .ok report) :
    ∃ d ∈ report.contractBreakdown.keys, report.topContract = some d ∧ report.concentration =
      (results.countP fun r => r.1.documentId = d : ℕ) / (results.length : ℚ) := by
  have hkeys := checkDocementConsistency_keys h
  rw [checkDocementConsistency] at h
  split at h
  · cases h
  · rename_i topDoc topStats rest hsorted
    have hmem : (topDoc, topStats) ∈ (scoresByDoc results).entries := by
      have hhead : (topDoc, topStats) ∈
          sortedDesc (fun kv => kv.2.totalScore) (scoresByDoc results).entries := by
        rw [hsorted]
        exact List.mem_cons_self
      rwa [sortedDesc, List.mem_insertionSort] at hhead
    have hget : (scoresByDoc results).get? topDoc = some topStats := Dict.mem_entries_iff.mp hmem
    have hscored : ∃ r ∈ results, r.1.documentId = topDoc :=
      mem_keys_scoresByDoc.mp (Dict.mem_keys_iff.mpr ⟨_, hget⟩)
    have hcount : topStats.chunkCount = results.countP fun r => r.1.documentId = topDoc := by
      rw [get?_scoresByDoc hscored] at hget
      rw [← Option.some.inj hget, foldl_add_eq, Nat.zero_add, List.countP_eq_length_filter]
    cases h
    exact ⟨topDoc, (hkeys topDoc).mpr hscored, rfl, by rw [hcount]⟩

/-- A retrieval context carries the report on its own chunks. -/
theorem getVerificationContext_eq_ok {rt : Runtime} {indexes : Except PyError IndexSnapshot}
    {rerank : Reranker} {query : String} {context : RetrievalContext}
    (h : getVerificationContext rt indexes rerank query = .ok context) :
    ∃ reranked, checkDocementConsistency reranked = .ok context.consistency ∧
      context.chunks = reranked.map fun r => toChunkMatch r.1 r.2 := by
  rw [getVerificationContext] at h
  rcases hr : (do crossEncoderRank rerank query (← hybridRetrieve rt indexes query 20) 5) with
    e | reranked
  · rw [hr] at h
    cases h
  · rw [hr] at h
    rcases hc : checkDocementConsistency reranked with e | consistency
    · simp [bind, Except.bind, hc] at h
    · simp only [bind, Except.bind, hc, pure, Except.pure, Except.ok.injEq] at h
      subst h
      exact ⟨reranked, hc, rfl⟩

/-- The reranked candidates, as `get_verification_context` scores them. -/
def rankedFor (rt : Runtime) (indexes : Except PyError IndexSnapshot) (rerank : Reranker)
    (query : String) : Except PyError (List (ChunkRecord × ℚ)) := do
  crossEncoderRank rerank query (← hybridRetrieve rt indexes query 20) 5

theorem getVerificationContext_of_ranked {rt : Runtime}
    {indexes : Except PyError IndexSnapshot} {rerank : Reranker} {query : String}
    {reranked : List (ChunkRecord × ℚ)} (h : rankedFor rt indexes rerank query = .ok reranked) :
    getVerificationContext rt indexes rerank query = (checkDocementConsistency reranked).map
      fun consistency => { chunks := reranked.map fun r => toChunkMatch r.1 r.2, consistency } := by
  rw [rankedFor] at h
  rw [getVerificationContext, h]
  rcases hc : checkDocementConsistency reranked with e | consistency
  · simp only [bind, Except.bind, hc]
    rfl
  · simp only [bind, Except.bind, hc]
    rfl

private theorem getVerificationContext_of_unranked {rt : Runtime}
    {indexes : Except PyError IndexSnapshot} {rerank : Reranker} {query : String} {e : PyError}
    (h : rankedFor rt indexes rerank query = .error e) :
    getVerificationContext rt indexes rerank query =
      .error { cls := .retrievalError, cause := some e.cls,
               message := s!"Retrieval failed for query: {rt.repr query}" } := by
  rw [rankedFor] at h
  rw [getVerificationContext, h]
  rfl

/-- **What the search raises is labelled**; an unlabelled exception comes from scoring an empty
ranking. -/
theorem getVerificationContext_eq_error_iff {rt : Runtime} {indexes : Except PyError IndexSnapshot}
    {rerank : Reranker} {query : String} {e : PyError} (he : e.Unlabelled) :
    getVerificationContext rt indexes rerank query = .error e ↔
      rankedFor rt indexes rerank query = .ok [] ∧
        e = { cls := .indexError, message := "list index out of range" } := by
  rcases hr : rankedFor rt indexes rerank query with e' | reranked
  · rw [getVerificationContext_of_unranked hr]
    simp only [Except.error.injEq, reduceCtorEq, false_and, iff_false]
    rintro rfl
    cases he
  · rw [getVerificationContext_of_ranked hr, Except.ok.injEq,
      ← checkDocementConsistency_eq_error_iff]
    rcases checkDocementConsistency reranked with e' | consistency
    · simp [Except.map]
    · simp [Except.map]

/-! ### Where the chunks come from -/

/-- The corpus has the text under the chunk id. -/
def Offers (corpus : Dict String ChunkRecord) (chunkId text : String) : Prop :=
  ∃ chunk ∈ corpus.values, chunk.chunkId = chunkId ∧ chunk.rawChunkText = text

/-- Candidates are chunks of the corpus. -/
theorem mem_corpus_of_hybridRetrieve {rt : Runtime} {indexes : Except PyError IndexSnapshot}
    {query : String} {topN : ℕ} {candidates : List ChunkRecord}
    (h : hybridRetrieve rt indexes query topN = .ok candidates) :
    ∃ index, indexes = .ok index ∧ ∀ chunk ∈ candidates, chunk ∈ index.corpus.values := by
  rcases indexes with e | index
  · cases h
  refine ⟨index, rfl, fun chunk hchunk => ?_⟩
  simp only [hybridRetrieve, bind, Except.bind] at h
  split at h
  · cases h
  · split at h
    · cases h
    · split at h
      · cases h
      · obtain rfl := Except.ok.inj h
        obtain ⟨id, -, hget⟩ := List.mem_filterMap.mp hchunk
        exact Dict.mem_values_iff.mpr ⟨id, hget⟩

/-- Reranking makes no new chunks. -/
theorem mem_candidates_of_crossEncoderRank {rerank : Reranker} {query : String} {topK : ℕ}
    {candidates : List ChunkRecord} {ranked : List (ChunkRecord × ℚ)}
    (h : crossEncoderRank rerank query candidates topK = .ok ranked) :
    ∀ r ∈ ranked, r.1 ∈ candidates := by
  intro r hr
  simp only [crossEncoderRank, bind, Except.bind] at h
  split at h
  · cases h
  · obtain rfl := Except.ok.inj h
    have hmem := List.mem_of_mem_take hr
    rw [sortedDesc, List.mem_insertionSort] at hmem
    exact (List.of_mem_zip hmem).1

/-- **What is retrieved is in the corpus.** -/
theorem mem_corpus_of_getVerificationContext {rt : Runtime}
    {indexes : Except PyError IndexSnapshot} {rerank : Reranker} {query : String}
    {context : RetrievalContext}
    (h : getVerificationContext rt indexes rerank query = .ok context) :
    ∃ index, indexes = .ok index ∧
      ∀ m ∈ context.chunks, ∃ chunk ∈ index.corpus.values, m = toChunkMatch chunk m.score := by
  rw [getVerificationContext] at h
  rcases hcandidates : hybridRetrieve rt indexes query 20 with e | candidates
  · rw [hcandidates] at h
    cases h
  · rw [hcandidates] at h
    rcases hranked : crossEncoderRank rerank query candidates 5 with e | reranked
    · simp only [bind, Except.bind, hranked] at h
      cases h
    · obtain ⟨index, hindex, hcorpus⟩ := mem_corpus_of_hybridRetrieve hcandidates
      refine ⟨index, hindex, fun m hm => ?_⟩
      rcases hreport : checkDocementConsistency reranked with e | consistency
      · simp only [bind, Except.bind, hranked, hreport] at h
        cases h
      · simp only [bind, Except.bind, hranked, hreport] at h
        obtain rfl := Except.ok.inj h
        obtain ⟨r, hr, rfl⟩ := List.mem_map.mp hm
        exact ⟨r.1, hcorpus r.1 (mem_candidates_of_crossEncoderRank hranked r hr), rfl⟩

/-- What is retrieved is in the corpus under the same id and with the same text. -/
theorem offers_of_getVerificationContext {rt : Runtime} {indexes : Except PyError IndexSnapshot}
    {rerank : Reranker} {query : String} {context : RetrievalContext}
    (h : getVerificationContext rt indexes rerank query = .ok context) :
    ∃ index, indexes = .ok index ∧
      ∀ m ∈ context.chunks, Offers index.corpus m.chunkId m.rawChunkText := by
  obtain ⟨index, hindex, hcorpus⟩ := mem_corpus_of_getVerificationContext h
  refine ⟨index, hindex, fun m hm => ?_⟩
  obtain ⟨chunk, hchunk, hm⟩ := hcorpus m hm
  rw [hm]
  exact ⟨chunk, hchunk, rfl, rfl⟩

end AuditFlow
