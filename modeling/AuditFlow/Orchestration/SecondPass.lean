import AuditFlow.Orchestration.RetryLayer

/-!
# The second pass of the retry layer

Once the first pass has a result, what `generate_with_bounded_retry` still does is its second pass
(`secondPass`): nothing if every claim has a source or the question has no second phrasing, and
otherwise one wider retrieval and one more generation.

* The second pass is **not guarded**: what the wider retrieval or the second generation raises is
  raised by the layer, and the first result is lost (`retry_raises_iff`).
* The second result replaces the first one **if none of its claims lacks a source**, however many
  claims it has. It may have fewer sourced claims than the first one, in particular none
  (`retry_sourced_iff`).
-/

namespace AuditFlow

open Foundation

/-- How many of the claims have a source. -/
def sourcedCount (claims : List Claim) : ℕ := claims.countP fun c => c.sourceChunkId.isSome

theorem sourcedCount_le (claims : List Claim) : sourcedCount claims ≤ claims.length :=
  List.countP_le_length

/-- There is nothing to retry exactly if all claims have a source. -/
theorem needsRetry_eq_false_iff {claims : List Claim} :
    needsRetry claims = false ↔ ∀ c ∈ claims, c.sourceChunkId ≠ none := by
  rw [needsRetry, List.any_eq_false]
  refine forall₂_congr fun c hc => ?_
  cases c.sourceChunkId with
  | none => exact iff_of_false (fun h => h rfl) fun h => h rfl
  | some id => exact iff_of_true Bool.false_ne_true (Option.some_ne_none id)

theorem sourcedCount_of_sourced {claims : List Claim}
    (h : ∀ c ∈ claims, c.sourceChunkId ≠ none) : sourcedCount claims = claims.length := by
  rw [sourcedCount, List.countP_eq_length]
  exact fun c hc => Option.isSome_iff_ne_none.mpr (h c hc)

section

variable {σ : Type} (rt : Runtime) (getAllChunks : Exc PyError σ (List ChunkRecord))
  (generateFn : String → List ChunkMatch → Exc PyError σ GenerationResult)
  (fullContextFn : String → Exc PyError σ RetrievalContext)

/-- What is done with the result of the first pass where a source is missing and the question has a
second phrasing. -/
def retryWith (question documentId reformulated : String) (result : GenerationResult) :
    Exc PyError σ (Option GenerationResult) := do
  let widerScope ← getScopedContext rt getAllChunks fullContextFn reformulated documentId 12
  match widerScope with
  | none => return some result
  | some widerScope =>
    let retryResult ← generateFn question widerScope.chunks
    return some (if needsRetry retryResult.claims then result else retryResult)

/-- What is done with the result of the first pass. -/
def secondPass (question documentId : String) (result : GenerationResult) :
    Exc PyError σ (Option GenerationResult) :=
  if needsRetry result.claims then
    match reformulateQuery rt question with
    | none => return some result
    | some reformulated =>
      retryWith rt getAllChunks generateFn fullContextFn question documentId reformulated result
  else return some result

/-- The first generation has returned `result`, from the chunks of the first scoped context, and
left the state `s'`. -/
def FirstPass (question documentId : String) (prefetched : Option RetrievalContext) (s : σ)
    (result : GenerationResult) (s' : σ) : Prop :=
  ∃ scope s₁,
    getScopedContext rt getAllChunks fullContextFn question documentId 5 (-4) true prefetched s =
        (.ok (some scope), s₁) ∧
      generateFn question scope.chunks s₁ = (.ok result, s')

/-- The wider retrieval through the second phrasing returned chunks, in the state `s'`. -/
def WiderScope (documentId reformulated : String) (s : σ) (scope : RetrievalContext) (s' : σ) :
    Prop :=
  getScopedContext rt getAllChunks fullContextFn reformulated documentId 12 (-4) true none s =
    (.ok (some scope), s')

/-- The retry, begun in the state `s`, answers with `r`, in which every claim has a source. -/
def RetryAnswers (question documentId : String) (s : σ) (r : GenerationResult) (s' : σ) : Prop :=
  ∃ reformulated scope s₁, reformulateQuery rt question = some reformulated ∧
    WiderScope rt getAllChunks fullContextFn documentId reformulated s scope s₁ ∧
    generateFn question scope.chunks s₁ = (.ok r, s') ∧ needsRetry r.claims = false

/-- The second pass, begun in the state `s` with the result of the first one, raises `e`: a retry is
made, and the wider retrieval raises or the generation from its chunks does. -/
def RetryRaises (question documentId : String) (result : GenerationResult) (s : σ) (e : PyError) :
    Prop :=
  needsRetry result.claims = true ∧ ∃ reformulated,
    reformulateQuery rt question = some reformulated ∧
    (Exc.Raises (getScopedContext rt getAllChunks fullContextFn reformulated documentId 12) s e ∨
      ∃ scope s', WiderScope rt getAllChunks fullContextFn documentId reformulated s scope s' ∧
        Exc.Raises (generateFn question scope.chunks) s' e)

end

section

variable {σ : Type} {rt : Runtime} {getAllChunks : Exc PyError σ (List ChunkRecord)}
  {generateFn : String → List ChunkMatch → Exc PyError σ GenerationResult}
  {fullContextFn : String → Exc PyError σ RetrievalContext} {question documentId : String}
  {prefetched : Option RetrievalContext} {result : GenerationResult} {s s' : σ} {e : PyError}

/-- **After the first pass** the layer is its second pass. -/
theorem generateWithBoundedRetry_of_firstPass
    (h : FirstPass rt getAllChunks generateFn fullContextFn question documentId prefetched s result
      s') :
    generateWithBoundedRetry rt getAllChunks generateFn fullContextFn question documentId prefetched
        s =
      secondPass rt getAllChunks generateFn fullContextFn question documentId result s' := by
  obtain ⟨scope, s₁, hscope, hgenerate⟩ := h
  rw [generateWithBoundedRetry, Exc.bind_of_ok hscope]
  exact Exc.bind_of_ok hgenerate

theorem raises_retryWith_iff {reformulated : String} :
    Exc.Raises (retryWith rt getAllChunks generateFn fullContextFn question documentId reformulated
        result) s e ↔
      Exc.Raises (getScopedContext rt getAllChunks fullContextFn reformulated documentId 12) s e ∨
        ∃ scope s', WiderScope rt getAllChunks fullContextFn documentId reformulated s scope s' ∧
          Exc.Raises (generateFn question scope.chunks) s' e := by
  rw [retryWith, Exc.raises_bind_iff]
  refine or_congr_right ?_
  constructor
  · rintro ⟨wider, s', hwider, hraises⟩
    cases wider with
    | none => exact absurd hraises Exc.not_raises_pure
    | some scope =>
      refine ⟨scope, s', hwider, ?_⟩
      rwa [Exc.raises_bind_left_iff fun _ _ => Exc.not_raises_pure] at hraises
  · rintro ⟨scope, s', hwider, hraises⟩
    exact ⟨some scope, s', hwider, hraises.of_bind_left⟩

theorem raises_secondPass_iff :
    Exc.Raises (secondPass rt getAllChunks generateFn fullContextFn question documentId result) s
        e ↔
      RetryRaises rt getAllChunks generateFn fullContextFn question documentId result s e := by
  rw [secondPass, RetryRaises]
  split_ifs with hretry
  · rw [and_iff_right hretry]
    cases reformulateQuery rt question with
    | none =>
      refine iff_of_false Exc.not_raises_pure ?_
      rintro ⟨_, hnone, -⟩
      cases hnone
    | some reformulated =>
      constructor
      · intro h
        exact ⟨reformulated, rfl, raises_retryWith_iff.mp h⟩
      · rintro ⟨_, hsome, h⟩
        obtain rfl := Option.some.inj hsome
        exact raises_retryWith_iff.mpr h
  · exact iff_of_false Exc.not_raises_pure fun h => hretry h.1

/-- **What the layer raises**, pass by pass. -/
theorem raises_generateWithBoundedRetry_iff :
    Exc.Raises (generateWithBoundedRetry rt getAllChunks generateFn fullContextFn question
        documentId prefetched) s e ↔
      Exc.Raises (getScopedContext rt getAllChunks fullContextFn question documentId 5 (-4) true
          prefetched) s e ∨
      (∃ scope s₁, getScopedContext rt getAllChunks fullContextFn question documentId 5 (-4) true
          prefetched s = (.ok (some scope), s₁) ∧
        Exc.Raises (generateFn question scope.chunks) s₁ e) ∨
      ∃ result s₁, FirstPass rt getAllChunks generateFn fullContextFn question documentId prefetched
          s result s₁ ∧
        RetryRaises rt getAllChunks generateFn fullContextFn question documentId result s₁ e := by
  constructor
  · intro h
    rcases Exc.raises_bind_iff.mp h with h | ⟨scope, s₁, hscope, h⟩
    · exact Or.inl h
    · cases scope with
      | none => exact absurd h Exc.not_raises_pure
      | some scope =>
        rcases Exc.raises_bind_iff.mp h with h | ⟨result, s₂, hgenerate, h⟩
        · exact Or.inr (Or.inl ⟨scope, s₁, hscope, h⟩)
        · have hretry := raises_secondPass_iff.mp h
          exact Or.inr (Or.inr ⟨result, s₂, ⟨scope, s₁, hscope, hgenerate⟩, hretry⟩)
  · rintro (h | ⟨scope, s₁, hscope, h⟩ | ⟨result, s₁, hfirst, h⟩)
    · exact h.of_bind_left
    · exact (Exc.raises_bind_of_ok hscope).mpr h.of_bind_left
    · rw [Exc.Raises, generateWithBoundedRetry_of_firstPass hfirst]
      exact raises_secondPass_iff.mpr h

/-- What a second pass that returns has returned: the first result, or the answer of the retry. -/
theorem secondPass_eq_ok {r : Option GenerationResult}
    (h : secondPass rt getAllChunks generateFn fullContextFn question documentId result s =
      (.ok r, s')) :
    ∃ r', r = some r' ∧ (r' = result ∨
      RetryAnswers rt getAllChunks generateFn fullContextFn question documentId s r' s') := by
  rw [secondPass] at h
  split_ifs at h
  · rcases hphrase : reformulateQuery rt question with _ | reformulated
    · rw [hphrase] at h
      exact ⟨result, (Exc.pure_eq_ok_iff.mp h).1.symm, Or.inl rfl⟩
    · rw [hphrase] at h
      obtain ⟨wider, s₁, hwider, h⟩ := Exc.bind_eq_ok_iff.mp h
      cases wider with
      | none => exact ⟨result, (Exc.pure_eq_ok_iff.mp h).1.symm, Or.inl rfl⟩
      | some scope =>
        obtain ⟨retryResult, s₂, hgenerate, h⟩ := Exc.bind_eq_ok_iff.mp h
        obtain ⟨rfl, rfl⟩ := Exc.pure_eq_ok_iff.mp h
        by_cases hagain : needsRetry retryResult.claims = true
        · refine ⟨result, ?_, Or.inl rfl⟩
          rw [if_pos hagain]
        · refine ⟨retryResult, ?_, Or.inr ⟨reformulated, scope, s₁, hphrase, hwider, hgenerate, ?_⟩⟩
          · rw [if_neg hagain]
          · exact Bool.eq_false_iff.mpr hagain
  · exact ⟨result, (Exc.pure_eq_ok_iff.mp h).1.symm, Or.inl rfl⟩

/-- Where the layer finds nothing, it stopped at the first scoped context. -/
theorem generateWithBoundedRetry_eq_none
    (h : generateWithBoundedRetry rt getAllChunks generateFn fullContextFn question documentId
      prefetched s = (.ok none, s')) :
    getScopedContext rt getAllChunks fullContextFn question documentId 5 (-4) true prefetched s =
      (.ok none, s') := by
  obtain ⟨scope, s₁, hscope, h⟩ := Exc.bind_eq_ok_iff.mp h
  cases scope with
  | none =>
    obtain ⟨-, rfl⟩ := Prod.mk.inj h
    exact hscope
  | some scope =>
    obtain ⟨result, s₂, -, hpass⟩ := Exc.bind_eq_ok_iff.mp h
    obtain ⟨r, hr, -⟩ := secondPass_eq_ok hpass
    cases hr

end

/-! ### What the retry can lose -/

/-- A retrieval that finds one chunk of a lease. -/
private def leaseContext : RetrievalContext where
  chunks := [{ chunkId := "lease::1", documentId := "lease", rawChunkText := "Rent is due monthly.",
               score := 1 }]
  consistency := {
    topContract := some "lease"
    concentration := 1
    bestScore := some 1
    isConfident := true }

private def sourcedClaim : Claim :=
  { text := "Rent is due monthly.", sourceChunkId := some "lease::1" }

private def unsourcedClaim : Claim := { text := "The lease does not say." }

/-- A search that answers the question and then breaks down. -/
private def searchOnce (question query : String) : Exc PyError ℕ RetrievalContext :=
  if query = question then pure leaseContext
  else Exc.raise { cls := .external "faiss", message := "index unavailable" }

/-- A generator with two answers, the second one for all calls after the first. -/
private def answerInTurn (first second : List Claim) (_ : String) (_ : List ChunkMatch) :
    Exc PyError ℕ GenerationResult :=
  fun calls => (.ok { claims := if calls = 0 then first else second }, calls + 1)

section

variable {σ : Type} (rt : Runtime) (getAllChunks : Exc PyError σ (List ChunkRecord))
  (generateFn : String → List ChunkMatch → Exc PyError σ GenerationResult)
  (fullContextFn : String → Exc PyError σ RetrievalContext) (question documentId : String)
  (prefetched : Option RetrievalContext) (result : GenerationResult) (s s' : σ)

/-- **What an error of the retry does.** Once the first generation has returned, the layer raises
exactly what the wider retrieval or the second generation raises, if a retry is made; otherwise it
returns the first result or the answer of the retry. -/
theorem retry_raises_iff
    (hfirst : FirstPass rt getAllChunks generateFn fullContextFn question documentId prefetched s
      result s') :
    (∀ e, Exc.Raises (generateWithBoundedRetry rt getAllChunks generateFn fullContextFn question
        documentId prefetched) s e ↔
      RetryRaises rt getAllChunks generateFn fullContextFn question documentId result s' e) ∧
    ((∀ e, ¬RetryRaises rt getAllChunks generateFn fullContextFn question documentId result s' e) →
      ∃ r s'', generateWithBoundedRetry rt getAllChunks generateFn fullContextFn question documentId
          prefetched s = (.ok (some r), s'') ∧
        (r = result ∨
          RetryAnswers rt getAllChunks generateFn fullContextFn question documentId s' r s'')) := by
  have hrun := generateWithBoundedRetry_of_firstPass hfirst
  have hraises (e : PyError) : Exc.Raises (generateWithBoundedRetry rt getAllChunks generateFn
      fullContextFn question documentId prefetched) s e ↔
        RetryRaises rt getAllChunks generateFn fullContextFn question documentId result s' e := by
    rw [Exc.Raises, hrun]
    exact raises_secondPass_iff
  refine ⟨hraises, fun hquiet => ?_⟩
  rcases hpass : secondPass rt getAllChunks generateFn fullContextFn question documentId result s'
    with ⟨e | r, s''⟩
  · exact absurd (raises_secondPass_iff.mp ⟨s'', hpass⟩) (hquiet e)
  · obtain ⟨r', rfl, hr⟩ := secondPass_eq_ok hpass
    exact ⟨r', s'', hrun.trans hpass, hr⟩

theorem retry_raises_unphrased :
    ∃ r s'', generateWithBoundedRetry Runtime.example (pure [])
        (answerInTurn [unsourcedClaim] [sourcedClaim]) (searchOnce "What is the rent?")
        "What is the rent?" "lease" none 0 = (.ok (some r), s'') ∧
      (r = { claims := [unsourcedClaim] } ∨ RetryAnswers Runtime.example (pure [])
        (answerInTurn [unsourcedClaim] [sourcedClaim]) (searchOnce "What is the rent?")
        "What is the rent?" "lease" 1 r s'') := by
  refine (retry_raises_iff Runtime.example (pure []) (answerInTurn [unsourcedClaim] [sourcedClaim])
    (searchOnce "What is the rent?") "What is the rent?" "lease" none
    { claims := [unsourcedClaim] } 0 1 ⟨leaseContext, 0, rfl, rfl⟩).2 ?_
  rintro e ⟨-, reformulated, hphrase, -⟩
  have hnone : reformulateQuery Runtime.example "What is the rent?" = none := by decide +kernel
  rw [hnone] at hphrase
  cases hphrase

/-- The first generation has answered, and the index is gone when the retry searches it: the layer
raises. -/
theorem retry_loses_first_answer :
    FirstPass Runtime.example (pure []) (answerInTurn [unsourcedClaim] [sourcedClaim])
        (searchOnce "Is there a renewal clause?") "Is there a renewal clause?" "lease" none 0
        { claims := [unsourcedClaim] } 1 ∧
      (generateWithBoundedRetry Runtime.example (pure [])
          (answerInTurn [unsourcedClaim] [sourcedClaim]) (searchOnce "Is there a renewal clause?")
          "Is there a renewal clause?" "lease" none 0).1 =
        .error { cls := .retrievalError, cause := some (.external "faiss"),
                 message := "Retrieval failed for question: 'shall automatically renew'" } := by
  refine ⟨⟨leaseContext, 0, rfl, rfl⟩, ?_⟩
  decide +kernel

/-- **What the retry keeps.** The layer returns the first result, or one in which every claim has a
source; it has at least as many sourced claims as the first result exactly if it has as many claims
at all. -/
theorem retry_sourced_iff (r : GenerationResult) (s'' : σ)
    (hfirst : FirstPass rt getAllChunks generateFn fullContextFn question documentId prefetched s
      result s')
    (hrun : generateWithBoundedRetry rt getAllChunks generateFn fullContextFn question documentId
      prefetched s = (.ok (some r), s'')) :
    (r = result ∨ ∀ c ∈ r.claims, c.sourceChunkId ≠ none) ∧
      (sourcedCount result.claims ≤ sourcedCount r.claims ↔
        sourcedCount result.claims ≤ r.claims.length) := by
  rw [generateWithBoundedRetry_of_firstPass hfirst] at hrun
  obtain ⟨r', hr, hcases⟩ := secondPass_eq_ok hrun
  obtain rfl := Option.some.inj hr
  rcases hcases with rfl | ⟨-, -, -, -, -, -, hsourced⟩
  · exact ⟨Or.inl rfl, iff_of_true le_rfl (sourcedCount_le r.claims)⟩
  · have hall := needsRetry_eq_false_iff.mp hsourced
    refine ⟨Or.inr hall, ?_⟩
    rw [sourcedCount_of_sourced hall]

theorem retry_sourced_found :
    sourcedCount [unsourcedClaim, unsourcedClaim] ≤ sourcedCount [sourcedClaim] := by
  have hrun : generateWithBoundedRetry Runtime.example (pure [])
      (answerInTurn [unsourcedClaim, unsourcedClaim] [sourcedClaim]) (fun _ => pure leaseContext)
      "Is there a renewal clause?" "lease" none 0 =
        (.ok (some { claims := [sourcedClaim] }), 2) := by
    decide +kernel
  exact (retry_sourced_iff Runtime.example (pure [])
    (answerInTurn [unsourcedClaim, unsourcedClaim] [sourcedClaim]) (fun _ => pure leaseContext)
    "Is there a renewal clause?" "lease" none { claims := [unsourcedClaim, unsourcedClaim] } 0 1
    { claims := [sourcedClaim] } 2 ⟨leaseContext, 0, rfl, rfl⟩ hrun).2.mpr (by decide)

/-- A retry without claims lacks no source, and replaces a first result that had one. -/
theorem retry_loses_source :
    FirstPass Runtime.example (pure []) (answerInTurn [sourcedClaim, unsourcedClaim] [])
        (fun _ => pure leaseContext) "Is there a renewal clause?" "lease" none 0
        { claims := [sourcedClaim, unsourcedClaim] } 1 ∧
      generateWithBoundedRetry Runtime.example (pure [])
          (answerInTurn [sourcedClaim, unsourcedClaim] []) (fun _ => pure leaseContext)
          "Is there a renewal clause?" "lease" none 0 = (.ok (some { claims := [] }), 2) ∧
        sourcedCount [] < sourcedCount [sourcedClaim, unsourcedClaim] := by
  refine ⟨⟨leaseContext, 0, rfl, rfl⟩, ?_, by decide⟩
  decide +kernel

end

end AuditFlow
