import AuditFlow.Orchestration.Answers
import AuditFlow.Orchestration.Passes

/-!
# Confident retrievals are answered

`_generate_and_verify` has a branch for a top contract without chunks. It is **unreachable**: the
top contract of a report is the document of one of the chunks that were scored
(`exists_chunk_of_topContract`), these chunks are the context that the first pass is handed, and a
scoped context is only missing where the context has no chunk of the document
(`getScopedContext_prefetched_ne_none`). So a confident retrieval is answered for its top contract,
unless the call raises.
-/

namespace AuditFlow

open Foundation

/-- The top contract of a report is the document of a chunk that was scored. -/
theorem exists_chunk_of_topContract {reranked : List (ChunkRecord × ℚ)}
    {report : ConsistencyReport} (h : checkDocementConsistency reranked = .ok report) :
    ∃ d, report.topContract = some d ∧
      ∃ m ∈ reranked.map fun r => toChunkMatch r.1 r.2, m.documentId = d := by
  obtain ⟨d, hd, htop, -⟩ := checkDocementConsistency_share h
  obtain ⟨r, hr, hdocument⟩ := (checkDocementConsistency_keys h d).mp hd
  exact ⟨d, htop, toChunkMatch r.1 r.2, List.mem_map_of_mem hr, hdocument⟩

section

variable {σ : Type} {rt : Runtime} {getAllChunks : Exc PyError σ (List ChunkRecord)}
  {fullContextFn : String → Exc PyError σ RetrievalContext} {question documentId : String}
  {topK : ℕ} {threshold : ℚ} {includePreamble : Bool} {context : RetrievalContext} {s s' : σ}

/-- The preamble step only adds chunks. -/
theorem includePreambleChunk_ne_nil {chunks chunks' : List ChunkMatch} (hne : chunks ≠ [])
    (h : includePreambleChunk getAllChunks documentId includePreamble chunks s =
      (.ok chunks', s')) : chunks' ≠ [] := by
  unfold includePreambleChunk at h
  split_ifs at h
  · obtain ⟨allChunks, s₁, -, hadd⟩ := Exc.bind_eq_ok_iff.mp h
    obtain ⟨rfl, -⟩ := Exc.pure_eq_ok_iff.mp hadd
    rcases withPreamble_cases allChunks documentId chunks with ⟨hkept, -⟩ | ⟨p, -, -, hadded⟩
    · rwa [hkept]
    · rw [hadded]
      exact List.append_ne_nil_of_left_ne_nil hne _
  · obtain ⟨rfl, -⟩ := Exc.pure_eq_ok_iff.mp h
    exact hne

/-- **A prefetched context with a chunk of the document** leaves something to generate from. -/
theorem getScopedContext_prefetched_ne_none (hk : topK ≠ 0)
    (hchunk : ∃ m ∈ context.chunks, m.documentId = documentId) :
    getScopedContext rt getAllChunks fullContextFn question documentId topK threshold
      includePreamble (some context) s ≠ (.ok none, s') := by
  intro h
  unfold getScopedContext at h
  obtain ⟨fullContext, s₁, hfetch, h⟩ := Exc.bind_eq_ok_iff.mp h
  obtain ⟨rfl, rfl⟩ := Exc.pure_eq_ok_iff.mp hfetch
  obtain ⟨chunks, s₂, hpreamble, h⟩ := Exc.bind_eq_ok_iff.mp h
  have hscoped : shortlist (fun m => decide (m.documentId = documentId)) topK context.chunks ≠
      [] := by
    obtain ⟨m, hm, hdocument⟩ := hchunk
    intro hnil
    exact (shortlist_eq_nil_iff hk).mp hnil m hm (decide_eq_true hdocument)
  obtain ⟨scope, hsome, -⟩ := exists_scopedContext documentId threshold
    (includePreambleChunk_ne_nil hscoped hpreamble)
  rw [hsome] at h
  cases (Prod.mk.inj h).1

end

section

variable {w : World} {question : String} {c c' : Ctx} {reranked : List (ChunkRecord × ℚ)}
  {report : ConsistencyReport}

/-- The context that a ranking and its report make. -/
def rankedContext (reranked : List (ChunkRecord × ℚ)) (report : ConsistencyReport) :
    RetrievalContext where
  chunks := reranked.map fun r => toChunkMatch r.1 r.2
  consistency := report

theorem retrieveContext_of_report
    (hranked : rankedFor w.rt (w.indexes c.trace.length) (w.rerank c.trace.length) question =
      .ok reranked) (hreport : checkDocementConsistency reranked = .ok report) :
    retrieveContext w question c =
      (.ok (rankedContext reranked report),
        { c with trace := c.trace ++ [.retrieve question] }) := by
  rw [retrieveContext, call, getVerificationContext_of_ranked hranked, hreport]
  rfl

/-- `answer_with_retry` on the ranking's own context finds something for the top contract. -/
theorem answerWithRetry_topContract_ne_none {d asked : String}
    (hreport : checkDocementConsistency reranked = .ok report)
    (htop : report.topContract = some d) :
    answerWithRetry w asked d (some (rankedContext reranked report)) c ≠ (.ok none, c') := by
  intro h
  obtain ⟨d', htop', hchunk⟩ := exists_chunk_of_topContract hreport
  obtain rfl : d' = d := Option.some.inj (htop'.symm.trans htop)
  unfold answerWithRetry at h
  obtain ⟨result, c₁, hgenerate, h⟩ := Exc.bind_eq_ok_iff.mp h
  obtain ⟨-, c₂, -, h⟩ := Exc.bind_eq_ok_iff.mp h
  obtain ⟨rfl, -⟩ := Exc.pure_eq_ok_iff.mp h
  exact getScopedContext_prefetched_ne_none (by decide) hchunk
    (generateWithBoundedRetry_eq_none hgenerate)

/-- **The branch without scoped chunks is unreachable.** -/
theorem generateConfident_ne_none {d : String}
    (hreport : checkDocementConsistency reranked = .ok report)
    (htop : report.topContract = some d) :
    generateConfident w question (rankedContext reranked report) report.topContract c ≠
      (.ok none, c') := by
  intro h
  rw [htop] at h
  rcases Exc.handle_eq_ok_iff.mp h with hanswer | ⟨e, c₁, -, hraise⟩
  · exact answerWithRetry_topContract_ne_none hreport htop hanswer
  · cases (Prod.mk.inj hraise).1

end

/-- **A confident retrieval is never answered with low relevance.** Whatever was ranked, and
whatever the corpus, the generator and the judge do: if the message is no selection and the ranking
is confident, a call that returns has answered for the top contract, and the generation step of the
confident route never returns without a result. -/
theorem confident_is_answered (w : World) (question : String) (c : Ctx)
    (reranked : List (ChunkRecord × ℚ)) (report : ConsistencyReport)
    (hfresh : ∀ pending, ¬Selects w question c pending)
    (hranked : rankedFor w.rt (w.indexes c.trace.length) (w.rerank c.trace.length) question =
      .ok reranked)
    (hreport : checkDocementConsistency reranked = .ok report)
    (hconfident : report.isConfident = true) :
    ∃ d, report.topContract = some d ∧
      (∀ response c', ask w question c = (.ok response, c') →
        ∃ claims, response = .answered claims d) ∧
      ∀ c₁ c₂, generateConfident w question (rankedContext reranked report) report.topContract c₁ ≠
        (.ok none, c₂) := by
  obtain ⟨d, htop⟩ := checkDocementConsistency_topContract hreport
  refine ⟨d, htop, fun response c' hask => ?_, fun c₁ c₂ => generateConfident_ne_none hreport htop⟩
  have hretrieves : Retrieves w question c (rankedContext reranked report)
      { c with trace := c.trace ++ [.retrieve question] } :=
    ⟨hfresh, retrieveContext_of_report hranked hreport⟩
  -- the one context of the message is confident, which leaves the confident route only
  have hhigh {context : RetrievalContext} {c₁ : Ctx} (h : Retrieves w question c context c₁) :
      context.consistency.isConfident ≠ false := by
    obtain ⟨rfl, -⟩ := h.unique hretrieves
    rw [rankedContext, hconfident]
    decide
  cases ask_exit hask with
  | rejected hselects hunknown => exact absurd hselects (hfresh _)
  | answered hroute hanswer hverify =>
    obtain ⟨claims, rfl, -⟩ := verifyAnswer_eq_ok hverify
    cases hroute with
    | selection hselects hoffered => exact absurd hselects (hfresh _)
    | confident h hconf htop' =>
      obtain ⟨rfl, -⟩ := h.unique hretrieves
      obtain rfl := Option.some.inj (htop'.symm.trans htop)
      exact ⟨claims, rfl⟩
    | mentioned h hlow => exact absurd hlow (hhigh h)
    | active h hlow => exact absurd hlow (hhigh h)
  | unanswered hroute hnone hclears =>
    cases hroute with
    | selection hselects hoffered => exact absurd hselects (hfresh _)
    | confident h hconf htop' =>
      obtain ⟨rfl, -⟩ := h.unique hretrieves
      exact absurd hnone (answerWithRetry_topContract_ne_none hreport htop')
    | mentioned h hlow => exact absurd hlow (hhigh h)
    | active h hlow => exact absurd hlow (hhigh h)
  | clarifies hfalls hspread =>
    obtain ⟨c₁, c₂, h, -, -⟩ := hfalls.retrieves
    exact absurd hfalls.low (hhigh h)
  | declines hfalls hfocused =>
    obtain ⟨c₁, c₂, h, -, -⟩ := hfalls.retrieves
    exact absurd hfalls.low (hhigh h)

theorem confident_is_answered_sample :
    ∃ claims, (ask citesInside "Which law governs?" { session := {} }).1 =
      .ok (.answered claims "A") := by
  have hranked : rankedFor Runtime.example (citesInside.indexes 0) (citesInside.rerank 0)
      "Which law governs?" = .ok (sampleChunks.zip [1, 1, 1, 0, 0]) := by
    decide +kernel
  have hscores : (checkDocementConsistency (sampleChunks.zip [1, 1, 1, 0, 0])).map
      (fun report => (report.topContract, report.isConfident)) = .ok (some "A", true) := by
    decide +kernel
  have hreturns : (ask citesInside "Which law governs?" { session := {} }).1.toOption.isSome =
      true := by
    decide +kernel
  rcases hreport : checkDocementConsistency (sampleChunks.zip [1, 1, 1, 0, 0]) with e | report
  · rw [hreport] at hscores
    cases hscores
  · rw [hreport] at hscores
    obtain ⟨htop, hconfident⟩ := Prod.mk.inj (Except.ok.inj hscores)
    have hfresh : ∀ pending,
        ¬Selects citesInside "Which law governs?" { session := {} } pending := by
      rintro pending ⟨hnone, -⟩
      cases hnone
    obtain ⟨d, htop', hanswers, -⟩ := confident_is_answered citesInside "Which law governs?"
      { session := {} } (sampleChunks.zip [1, 1, 1, 0, 0]) report hfresh hranked hreport hconfident
    obtain rfl : d = "A" := Option.some.inj (htop'.symm.trans htop)
    rcases hask : ask citesInside "Which law governs?" { session := {} } with ⟨e | response, c'⟩
    · rw [hask] at hreturns
      cases hreturns
    · obtain ⟨claims, rfl⟩ := hanswers response c' hask
      exact ⟨claims, rfl⟩

end AuditFlow
