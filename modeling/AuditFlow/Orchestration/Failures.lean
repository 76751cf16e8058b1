import AuditFlow.Orchestration.Answers

/-!
# Which failures of `ask` are labelled

Every stage of the pipeline is meant to raise one of the application's own exceptions. Retrieval
labels what the search raises, a generator labels running out of attempts, verification and the
confident route label everything. What is **not** labelled is found by following every call to the
top:

* scoring an **empty ranking** indexes into an empty list, outside the handler of the search (an
  empty corpus does not get there, since its BM25 index cannot be built, inside of the handler);
* on the three routes other than the confident one nothing surrounds `answer_with_retry`, so reading
  the corpus, or a reply of the generator that is not even retried, is raised as it is
  (`AnswerEscapes`).

`ask_raises_iff` says that **these are all**, in terms of what the world answers at the moments of
the calls.
-/

namespace AuditFlow

open Foundation

/-! ### The callbacks of the retry layer -/

section

variable (w : World)

/-- The prompt of the generator in use. -/
def World.generatorPrompt (question : String) (chunks : List ChunkMatch) : String :=
  (if w.useLocalGeneration then generationPrompt else generationPromptGroq)
    (formatContext chunks) question

/-- Called at the moment `t`, the generator raises `e` for a reply that it does not retry. -/
def GeneratorBreaks (t : ℕ) (question : String) (chunks : List ChunkMatch) (e : PyError) : Prop :=
  FirstBroken w.rt GenerationResult.schema (w.generator t) (w.generatorPrompt question chunks) 3 e

/-- Called at the moment `t`, the generator answers with `result`. -/
def GeneratorAnswers (t : ℕ) (question : String) (chunks : List ChunkMatch)
    (result : GenerationResult) : Prop :=
  FirstAccepted w.rt GenerationResult.schema (w.generator t) (w.generatorPrompt question chunks) 3
    result

/-- The context that a retrieval at the moment `t` returns. -/
def World.Retrieved (t : ℕ) (query : String) (context : RetrievalContext) : Prop :=
  getVerificationContext w.rt (w.indexes t) (w.rerank t) query = .ok context

/-- The chunks of a context scoped to the document, retrieved at the moment `t`, with the preamble
that is read at the next moment. -/
def World.Scopes (t : ℕ) (query documentId : String) (topK : ℕ) (chunks : List ChunkMatch) : Prop :=
  ∃ context index, w.Retrieved t query context ∧ w.indexes (t + 1) = .ok index ∧
    withPreamble index.corpus.values documentId
      ((context.chunks.filter fun c => decide (c.documentId = documentId)).take topK) = chunks

/-- After a retrieval at the moment `t`, reading the corpus raises `e`. -/
def World.CorpusFails (t : ℕ) (query : String) (e : PyError) : Prop :=
  (∃ context, w.Retrieved t query context) ∧ w.indexes (t + 1) = .error e

/-- The first answer, generated from the moment `t` on, lacks a source, and the question has a
second phrasing. -/
def World.RetriesAs (t : ℕ) (question documentId reformulated : String) : Prop :=
  ∃ chunks result, w.Scopes t question documentId 5 chunks ∧ chunks ≠ [] ∧
    GeneratorAnswers w (t + 2) question chunks result ∧ needsRetry result.claims = true ∧
    reformulateQuery w.rt question = some reformulated

/-- **What escapes from `answer_with_retry`** without a label, called at the moment `t` without a
prefetched context. -/
inductive AnswerEscapes (question documentId : String) (t : ℕ) : PyError → Prop
  | corpus {e : PyError} (hfails : w.CorpusFails t question e) :
      AnswerEscapes question documentId t e
  | generator {e : PyError} {chunks : List ChunkMatch}
      (hscopes : w.Scopes t question documentId 5 chunks) (hne : chunks ≠ [])
      (hbreaks : GeneratorBreaks w (t + 2) question chunks e) :
      AnswerEscapes question documentId t e
  | widerCorpus {e : PyError} {reformulated : String}
      (hretries : w.RetriesAs t question documentId reformulated)
      (hfails : w.CorpusFails (t + 3) reformulated e) :
      AnswerEscapes question documentId t e
  | widerGenerator {e : PyError} {reformulated : String} {chunks : List ChunkMatch}
      (hretries : w.RetriesAs t question documentId reformulated)
      (hscopes : w.Scopes (t + 3) reformulated documentId 12 chunks) (hne : chunks ≠ [])
      (hbreaks : GeneratorBreaks w (t + 5) question chunks e) :
      AnswerEscapes question documentId t e

end

section

variable {w : World} {question documentId : String} {topK : ℕ} {c c' : Ctx} {e : PyError}

theorem raises_call_iff {α : Type} {event : Event} {outcome : ℕ → Except PyError α} :
    Exc.Raises (call event outcome) c e ↔ outcome c.trace.length = .error e := by
  simp [Exc.Raises, call]

theorem raises_look_bind {α β : Type} {table : ℕ → α} {f : α → Ask β} :
    Exc.Raises (look table >>= f) c e ↔ Exc.Raises (f (table c.trace.length)) c e :=
  Iff.rfl

theorem raises_setState_bind {α : Type} {g : SessionState → SessionState} {f : Unit → Ask α} :
    Exc.Raises (setState g >>= f) c e ↔ Exc.Raises (f ()) (c.withSession g) e :=
  Iff.rfl

theorem raises_getState_bind {α : Type} {f : SessionState → Ask α} :
    Exc.Raises (getState >>= f) c e ↔ Exc.Raises (f c.session) c e :=
  Iff.rfl

private theorem callGenerator_raises_iff {chunks : List ChunkMatch} (he : e.Unlabelled) :
    Exc.Raises (callGenerator w question chunks) c e ↔
      GeneratorBreaks w c.trace.length question chunks e := by
  rw [callGenerator, raises_call_iff, GeneratorBreaks, World.generatorPrompt]
  split_ifs
  · exact generateWith_eq_error_iff he
  · exact generateWith_eq_error_iff he

private theorem callGenerator_eq_ok_iff {chunks : List ChunkMatch} {result : GenerationResult} :
    callGenerator w question chunks c = (.ok result, c') ↔
      GeneratorAnswers w c.trace.length question chunks result ∧
        c' = { c with trace := c.trace ++ [.generate question chunks] } := by
  rw [callGenerator, call_eq_ok_iff, GeneratorAnswers, World.generatorPrompt]
  refine and_congr_left fun _ => ?_
  split_ifs
  · exact generateWith_eq_ok_iff
  · exact generateWith_eq_ok_iff

/-- The full context is the retrieval of the moment. -/
private theorem fetchContext_eq_ok_iff {context : RetrievalContext} :
    fetchContext w.rt (retrieveContext w) question none c = (.ok context, c') ↔
      w.Retrieved c.trace.length question context ∧
        c' = { c with trace := c.trace ++ [.retrieve question] } := by
  rw [fetchContext, Exc.handle_eq_ok_iff, retrieveContext, call_eq_ok_iff, World.Retrieved]
  refine or_iff_left ?_
  rintro ⟨e, s', -, h⟩
  cases (Prod.mk.inj h).1

private theorem readAllChunks_eq_ok_iff {allChunks : List ChunkRecord} :
    readAllChunks w c = (.ok allChunks, c') ↔
      (∃ index, w.indexes c.trace.length = .ok index ∧ index.corpus.values = allChunks) ∧
        c' = { c with trace := c.trace ++ [.readChunks] } := by
  rw [readAllChunks, call_eq_ok_iff, getAllChunks]
  refine and_congr_left fun _ => ?_
  rcases w.indexes c.trace.length with e | index
  · simp [Except.map]
  · simp [Except.map]

private theorem readAllChunks_raises_iff :
    Exc.Raises (readAllChunks w) c e ↔ w.indexes c.trace.length = .error e := by
  rw [readAllChunks, raises_call_iff, getAllChunks]
  rcases w.indexes c.trace.length with e' | index
  · simp [Except.map]
  · simp [Except.map]

/-- A scoped context holds the chunks of its scope, if there are any. -/
private theorem getScopedContext_eq_ok_iff {threshold : ℚ} {scope : Option RetrievalContext} :
    getScopedContext w.rt (readAllChunks w) (retrieveContext w) question documentId topK threshold
        true none c = (.ok scope, c') ↔
      (∃ chunks, w.Scopes c.trace.length question documentId topK chunks ∧
        scopedContext documentId threshold chunks = scope) ∧
        c' = { c with trace := c.trace ++ [.retrieve question, .readChunks] } := by
  simp only [getScopedContext, includePreambleChunk, if_true]
  constructor
  · intro h
    obtain ⟨context, c₁, hcontext, h⟩ := Exc.bind_eq_ok_iff.mp h
    obtain ⟨hretrieved, rfl⟩ := fetchContext_eq_ok_iff.mp hcontext
    obtain ⟨scopedChunks, c₂, hscoped, h⟩ := Exc.bind_eq_ok_iff.mp h
    obtain ⟨allChunks, c₃, hread, hscoped⟩ := Exc.bind_eq_ok_iff.mp hscoped
    obtain ⟨⟨index, hindex, rfl⟩, rfl⟩ := readAllChunks_eq_ok_iff.mp hread
    obtain ⟨rfl, rfl⟩ := Exc.pure_eq_ok_iff.mp hscoped
    obtain ⟨rfl, rfl⟩ := Exc.pure_eq_ok_iff.mp h
    rw [List.length_append] at hindex
    exact ⟨⟨_, ⟨context, index, hretrieved, hindex, rfl⟩, rfl⟩, by simp⟩
  · rintro ⟨⟨chunks, ⟨context, index, hretrieved, hindex, rfl⟩, rfl⟩, rfl⟩
    refine Exc.bind_eq_ok_iff.mpr ⟨context, _, fetchContext_eq_ok_iff.mpr ⟨hretrieved, rfl⟩, ?_⟩
    refine Exc.bind_eq_ok_iff.mpr ⟨_, _, Exc.bind_eq_ok_iff.mpr ⟨_, _,
      readAllChunks_eq_ok_iff.mpr ⟨⟨index, ?_, rfl⟩, rfl⟩, rfl⟩, ?_⟩
    · rw [List.length_append]
      exact hindex
    · simp

/-- **Failures of the retrieval inside a scoped context are labelled**; those of reading the corpus
are not. -/
private theorem getScopedContext_raises_iff {threshold : ℚ} (he : e.Unlabelled) :
    Exc.Raises (getScopedContext w.rt (readAllChunks w) (retrieveContext w) question documentId topK
        threshold true none) c e ↔ w.CorpusFails c.trace.length question e := by
  simp only [getScopedContext, includePreambleChunk, if_true]
  rw [Exc.raises_bind_iff, or_iff_right ?_]
  · constructor
    · rintro ⟨context, c₁, hcontext, h⟩
      obtain ⟨hretrieved, rfl⟩ := fetchContext_eq_ok_iff.mp hcontext
      have hread := (Exc.raises_bind_left_iff fun _ _ => Exc.not_raises_pure).mp
        ((Exc.raises_bind_left_iff fun _ _ => Exc.not_raises_pure).mp h)
      have hindex := readAllChunks_raises_iff.mp hread
      rw [List.length_append] at hindex
      exact ⟨⟨context, hretrieved⟩, hindex⟩
    · rintro ⟨⟨context, hretrieved⟩, hindex⟩
      refine ⟨context, _, fetchContext_eq_ok_iff.mpr ⟨hretrieved, rfl⟩, ?_⟩
      refine Exc.Raises.of_bind_left (Exc.Raises.of_bind_left (readAllChunks_raises_iff.mpr ?_))
      rw [List.length_append]
      exact hindex
  · intro h
    obtain ⟨e', -, rfl⟩ := Exc.raises_handle_raise_iff.mp h
    cases he

/-- A scope that was returned holds the chunks of its moment. -/
private theorem scopes_of_scopedContext {scope : RetrievalContext}
    (h : getScopedContext w.rt (readAllChunks w) (retrieveContext w) question documentId topK (-4)
      true none c = (.ok (some scope), c')) :
    w.Scopes c.trace.length question documentId topK scope.chunks ∧ scope.chunks ≠ [] ∧
      c'.trace.length = c.trace.length + 2 := by
  obtain ⟨⟨chunks, hscopes, hscope⟩, rfl⟩ := getScopedContext_eq_ok_iff.mp h
  obtain ⟨rfl, hne⟩ := scopedContext_eq_some hscope
  exact ⟨hscopes, hne, List.length_append⟩

/-- Chunks in scope are returned as a scope. -/
private theorem exists_scope {chunks : List ChunkMatch}
    (hscopes : w.Scopes c.trace.length question documentId topK chunks) (hne : chunks ≠ []) :
    ∃ scope c', getScopedContext w.rt (readAllChunks w) (retrieveContext w) question documentId topK
        (-4) true none c = (.ok (some scope), c') ∧
      scope.chunks = chunks ∧ c'.trace.length = c.trace.length + 2 := by
  obtain ⟨scope, hscope, hchunks⟩ := exists_scopedContext documentId (-4) hne
  exact ⟨scope, _, getScopedContext_eq_ok_iff.mpr ⟨⟨chunks, hscopes, hscope⟩, rfl⟩, hchunks,
    List.length_append⟩

/-- A question is put a second time when its first pass has returned with a source missing. -/
private theorem retriesAs_of_firstPass {result : GenerationResult} {reformulated : String}
    (hfirst : FirstPass w.rt (readAllChunks w) (callGenerator w) (retrieveContext w) question
      documentId none c result c')
    (hneeds : needsRetry result.claims = true)
    (hphrase : reformulateQuery w.rt question = some reformulated) :
    w.RetriesAs c.trace.length question documentId reformulated ∧
      c'.trace.length = c.trace.length + 3 := by
  obtain ⟨scope, c₁, hscope, hgenerate⟩ := hfirst
  obtain ⟨hscopes, hne, hlength⟩ := scopes_of_scopedContext hscope
  obtain ⟨hanswers, rfl⟩ := callGenerator_eq_ok_iff.mp hgenerate
  rw [hlength] at hanswers
  refine ⟨⟨scope.chunks, result, hscopes, hne, hanswers, hneeds, hphrase⟩, ?_⟩
  rw [List.length_append, hlength]
  rfl

private theorem exists_firstPass {reformulated : String}
    (h : w.RetriesAs c.trace.length question documentId reformulated) :
    ∃ result c', FirstPass w.rt (readAllChunks w) (callGenerator w) (retrieveContext w) question
        documentId none c result c' ∧ needsRetry result.claims = true ∧
      reformulateQuery w.rt question = some reformulated ∧
      c'.trace.length = c.trace.length + 3 := by
  obtain ⟨chunks, result, hscopes, hne, hanswers, hneeds, hphrase⟩ := h
  obtain ⟨scope, c₁, hscope, rfl, hlength⟩ := exists_scope hscopes hne
  rw [← hlength] at hanswers
  refine ⟨result, _, ⟨scope, c₁, hscope, callGenerator_eq_ok_iff.mpr ⟨hanswers, rfl⟩⟩, hneeds,
    hphrase, ?_⟩
  rw [List.length_append, hlength]
  rfl

/-- **What escapes from `answer_with_retry`** without a prefetched context. -/
private theorem answerWithRetry_raises_iff (he : e.Unlabelled) :
    Exc.Raises (answerWithRetry w question documentId) c e ↔
      AnswerEscapes w question documentId c.trace.length e := by
  have hrecord : Exc.Raises (answerWithRetry w question documentId) c e ↔
      Exc.Raises (generateWithBoundedRetry w.rt (readAllChunks w) (callGenerator w)
        (retrieveContext w) question documentId none) c e := by
    unfold answerWithRetry
    refine Exc.raises_bind_left_iff fun result c₁ h => ?_
    cases raises_call_iff.mp ((Exc.raises_bind_left_iff fun _ _ => Exc.not_raises_pure).mp h)
  rw [hrecord, raises_generateWithBoundedRetry_iff]
  constructor
  · rintro (h | ⟨scope, c₁, hscope, h⟩ | ⟨result, c₁, hfirst, hneeds, reformulated, hphrase, h⟩)
    · exact .corpus ((getScopedContext_raises_iff he).mp h)
    · obtain ⟨hscopes, hne, hlength⟩ := scopes_of_scopedContext hscope
      have hbreaks := (callGenerator_raises_iff he).mp h
      rw [hlength] at hbreaks
      exact .generator hscopes hne hbreaks
    · obtain ⟨hretries, hlength⟩ := retriesAs_of_firstPass hfirst hneeds hphrase
      rcases h with h | ⟨wider, c₂, hwider, h⟩
      · have hfails := (getScopedContext_raises_iff he).mp h
        rw [hlength] at hfails
        exact .widerCorpus hretries hfails
      · obtain ⟨hscopes, hne, hlength'⟩ := scopes_of_scopedContext hwider
        have hbreaks := (callGenerator_raises_iff he).mp h
        rw [hlength', hlength] at hbreaks
        rw [hlength] at hscopes
        exact .widerGenerator hretries hscopes hne hbreaks
  · intro h
    cases h with
    | corpus hfails => exact Or.inl ((getScopedContext_raises_iff he).mpr hfails)
    | generator hscopes hne hbreaks =>
      obtain ⟨scope, c₁, hscope, rfl, hlength⟩ := exists_scope hscopes hne
      rw [← hlength] at hbreaks
      exact Or.inr (Or.inl ⟨scope, c₁, hscope, (callGenerator_raises_iff he).mpr hbreaks⟩)
    | widerCorpus hretries hfails =>
      obtain ⟨result, c₁, hfirst, hneeds, hphrase, hlength⟩ := exists_firstPass hretries
      rw [← hlength] at hfails
      exact Or.inr (Or.inr ⟨result, c₁, hfirst, hneeds, _, hphrase,
        Or.inl ((getScopedContext_raises_iff he).mpr hfails)⟩)
    | widerGenerator hretries hscopes hne hbreaks =>
      obtain ⟨result, c₁, hfirst, hneeds, hphrase, hlength⟩ := exists_firstPass hretries
      rw [← hlength] at hscopes
      obtain ⟨wider, c₂, hwider, rfl, hlength'⟩ := exists_scope hscopes hne
      have hmoment : c.trace.length + 5 = c₂.trace.length := by omega
      rw [hmoment] at hbreaks
      exact Or.inr (Or.inr ⟨result, c₁, hfirst, hneeds, _, hphrase,
        Or.inr ⟨wider, c₂, hwider, (callGenerator_raises_iff he).mpr hbreaks⟩⟩)

/-- Everything that verification raises is labelled. -/
private theorem not_raises_verifyAnswer {result : GenerationResult} (he : e.Unlabelled) :
    ¬Exc.Raises (verifyAnswer w result documentId) c e := by
  unfold verifyAnswer
  rw [raises_look_bind, Exc.raises_bind_left_iff fun _ _ => Exc.not_raises_pure]
  intro h
  obtain ⟨e', -, rfl⟩ := Exc.raises_handle_raise_iff.mp h
  cases he

end

/-! ### The routes -/

/-- `answer_with_retry` is called with nothing around it: for an offered contract, for a contract
that the question names, or for the active one. `t` is the moment of the call. -/
inductive Unguarded (w : World) (question : String) (c : Ctx) :
    (asked documentId : String) → (t : ℕ) → Prop
  | selection {pending : String} (hselects : Selects w question c pending)
      (hoffered : chosenDocumentId question ∈ c.session.pendingCandidates) :
      Unguarded w question c pending (chosenDocumentId question) c.trace.length
  | mentioned {context : RetrievalContext} {d : String}
      (hfresh : ∀ pending, ¬Selects w question c pending)
      (hretrieved : w.Retrieved c.trace.length question context)
      (hlow : context.consistency.isConfident = false)
      (hnamed : truthy (mentionsDifferentContract w.rt question (w.identities (c.trace.length + 1))
        c.session.activeContract) = some d)
      (hother : some d ≠ c.session.activeContract) :
      Unguarded w question c question d (c.trace.length + 1)
  | active {context : RetrievalContext} {d : String}
      (hfresh : ∀ pending, ¬Selects w question c pending)
      (hretrieved : w.Retrieved c.trace.length question context)
      (hlow : context.consistency.isConfident = false)
      (hunnamed : ∀ d', truthy (mentionsDifferentContract w.rt question
        (w.identities (c.trace.length + 1)) c.session.activeContract) = some d' →
          some d' = c.session.activeContract)
      (hactive : truthy c.session.activeContract = some d) :
      Unguarded w question c question d (c.trace.length + 1)

/-- **What escapes from `ask`** without a label. -/
inductive AskEscapes (w : World) (question : String) (c : Ctx) : PyError → Prop
  | emptyRanking (hfresh : ∀ pending, ¬Selects w question c pending)
      (hempty : rankedFor w.rt (w.indexes c.trace.length) (w.rerank c.trace.length) question =
        .ok []) :
      AskEscapes w question c { cls := .indexError, message := "list index out of range" }
  | answer {asked d : String} {t : ℕ} {e : PyError} (hunguarded : Unguarded w question c asked d t)
      (hescapes : AnswerEscapes w asked d t e) : AskEscapes w question c e

section

variable {w : World} {question : String} {c c' : Ctx} {e : PyError}

private theorem resolvePendingSelection_raises_iff {pending : String} (he : e.Unlabelled) :
    Exc.Raises (resolvePendingSelection w question pending) c e ↔
      chosenDocumentId question ∈ c.session.pendingCandidates ∧
        AnswerEscapes w pending (chosenDocumentId question) c.trace.length e := by
  unfold resolvePendingSelection
  rw [raises_getState_bind]
  dsimp only
  split_ifs with hoffered
  · rw [raises_setState_bind, Exc.raises_bind_left_iff ?_]
    · exact (answerWithRetry_raises_iff he).trans (and_iff_right hoffered).symm
    · rintro (- | result) c₁ h
      · exact Exc.not_raises_pure h
      · exact not_raises_verifyAnswer he (raises_setState_bind.mp h)
  · exact iff_of_false Exc.not_raises_pure fun h => hoffered h.1

/-- What trying a named contract raises. -/
private theorem answerMentioned_raises_iff (he : e.Unlabelled) :
    Exc.Raises (answerMentioned w question) c e ↔
      ∃ d, namedContract w question c = some d ∧ some d ≠ c.session.activeContract ∧
        AnswerEscapes w question d c.trace.length e := by
  unfold answerMentioned
  rw [raises_look_bind, raises_getState_bind, namedContract]
  rcases truthy (mentionsDifferentContract w.rt question (w.identities c.trace.length)
      c.session.activeContract) with - | d
  · exact iff_of_false Exc.not_raises_pure (by simp)
  · simp only [Option.some.injEq, exists_eq_left']
    split_ifs with hsame
    · exact iff_of_false Exc.not_raises_pure fun h => h.1 hsame
    · rw [raises_setState_bind, and_iff_right hsame, Exc.raises_bind_left_iff ?_]
      · exact answerWithRetry_raises_iff he
      · rintro (- | result) c₁ h
        · exact Exc.not_raises_pure h
        · exact not_raises_verifyAnswer he
            ((Exc.raises_bind_left_iff fun _ _ => Exc.not_raises_pure).mp
              (raises_setState_bind.mp h))

/-- What trying the active contract raises. -/
private theorem answerActive_raises_iff (he : e.Unlabelled) :
    Exc.Raises (answerActive w question) c e ↔
      ∃ d, truthy c.session.activeContract = some d ∧
        AnswerEscapes w question d c.trace.length e := by
  unfold answerActive
  rw [raises_getState_bind]
  rcases truthy c.session.activeContract with - | d
  · exact iff_of_false Exc.not_raises_pure (by simp)
  · simp only [Option.some.injEq, exists_eq_left']
    rw [Exc.raises_bind_left_iff ?_]
    · exact answerWithRetry_raises_iff he
    · rintro (- | result) c₁ h
      · exact Exc.not_raises_pure h
      · exact not_raises_verifyAnswer he
          ((Exc.raises_bind_left_iff fun _ _ => Exc.not_raises_pure).mp h)

/-- A message that names no other contract leaves the active one to be tried. -/
private theorem answerMentioned_of_unnamed
    (h : ∀ d, namedContract w question c = some d → some d = c.session.activeContract) :
    answerMentioned w question c = (.ok none, c) := by
  unfold answerMentioned
  rw [look_bind, getState_bind]
  rw [namedContract] at h
  rcases hnamed : truthy (mentionsDifferentContract w.rt question (w.identities c.trace.length)
      c.session.activeContract) with - | d
  · rfl
  · simp only
    rw [if_pos (h d hnamed)]
    rfl

/-- What the answer to a retrieval of low confidence raises: a contract that is named is tried, or
else the active one, but not both. -/
private theorem handleLowConfidence_raises_iff {consistency : ConsistencyReport}
    (he : e.Unlabelled) : Exc.Raises (handleLowConfidence w question consistency) c e ↔
      (∃ d, namedContract w question c = some d ∧ some d ≠ c.session.activeContract ∧
        AnswerEscapes w question d c.trace.length e) ∨
      ((∀ d, namedContract w question c = some d → some d = c.session.activeContract) ∧
        ∃ d, truthy c.session.activeContract = some d ∧
          AnswerEscapes w question d c.trace.length e) := by
  have hclarify (c₂ : Ctx) : ¬Exc.Raises (clarifyOrDecline question consistency) c₂ e := by
    unfold clarifyOrDecline
    split_ifs
    · exact Exc.not_raises_pure
    · exact Exc.not_raises_pure
  unfold handleLowConfidence
  rw [Exc.raises_bind_iff, answerMentioned_raises_iff he]
  refine or_congr_right ?_
  constructor
  · rintro ⟨response, c₁, hmentioned, h⟩
    cases response with
    | some response => exact absurd h Exc.not_raises_pure
    | none =>
      have hactive : Exc.Raises (answerActive w question) c₁ e := by
        refine (Exc.raises_bind_left_iff ?_).mp h
        rintro (- | response) c₂
        · exact hclarify c₂
        · exact Exc.not_raises_pure
      have hraises := (answerActive_raises_iff he).mp hactive
      rcases answerMentioned_eq_none hmentioned with ⟨rfl, hunnamed⟩ | ⟨d, -, -, hanswer⟩
      · exact ⟨hunnamed, hraises⟩
      · -- a named contract that was tried has taken the place of the active one
        obtain ⟨d', hd', -⟩ := hraises
        rw [(answerWithRetry_eq_none hanswer).1] at hd'
        cases hd'
  · rintro ⟨hunnamed, hraises⟩
    refine ⟨none, c, answerMentioned_of_unnamed hunnamed, ?_⟩
    exact Exc.Raises.of_bind_left ((answerActive_raises_iff he).mpr hraises)

/-- The confident route labels whatever its generation raises. -/
private theorem not_raises_generateAndVerify {context : RetrievalContext} (he : e.Unlabelled) :
    ¬Exc.Raises (generateAndVerify w question context) c e := by
  unfold generateAndVerify
  intro h
  rcases Exc.raises_bind_iff.mp h with h | ⟨result, c₁, -, h⟩
  · unfold generateConfident at h
    split at h
    · obtain ⟨e', -, rfl⟩ := Exc.raises_handle_raise_iff.mp h
      cases he
    · obtain ⟨e', -, rfl⟩ := Exc.raises_handle_raise_iff.mp h
      cases he
  · split at h
    · exact not_raises_verifyAnswer he h
    · exact Exc.not_raises_pure h

private theorem askFresh_raises_iff (he : e.Unlabelled)
    (hfresh : ∀ pending, ¬Selects w question c pending) :
    Exc.Raises (askFresh w question) c e ↔ AskEscapes w question c e := by
  unfold askFresh
  rw [Exc.raises_bind_iff, retrieveContext, raises_call_iff,
    getVerificationContext_eq_error_iff he]
  constructor
  · rintro (⟨hempty, rfl⟩ | ⟨context, c₁, hcall, h⟩)
    · exact .emptyRanking hfresh hempty
    · obtain ⟨hretrieved, rfl⟩ := call_eq_ok_iff.mp hcall
      dsimp only at h
      split_ifs at h with hconfident
      · exact absurd (raises_setState_bind.mp h) (not_raises_generateAndVerify he)
      · have hlow := Bool.eq_false_of_not_eq_true hconfident
        rcases (handleLowConfidence_raises_iff he).mp h with
          ⟨d, hnamed, hother, hescapes⟩ | ⟨hunnamed, d, hactive, hescapes⟩
        · rw [List.length_append] at hescapes
          rw [namedContract, List.length_append] at hnamed
          exact .answer (.mentioned hfresh hretrieved hlow hnamed hother) hescapes
        · rw [List.length_append] at hescapes
          simp only [namedContract, List.length_append] at hunnamed
          exact .answer (.active hfresh hretrieved hlow hunnamed hactive) hescapes
  · intro h
    cases h with
    | emptyRanking _ hempty => exact Or.inl ⟨hempty, rfl⟩
    | answer hunguarded hescapes =>
      cases hunguarded with
      | selection hselects _ => exact absurd hselects (hfresh _)
      | mentioned _ hretrieved hlow hnamed hother =>
        refine Or.inr ⟨_, _, call_eq_ok_iff.mpr ⟨hretrieved, rfl⟩, ?_⟩
        dsimp only
        rw [if_neg (Bool.eq_false_iff.mp hlow), handleLowConfidence_raises_iff he]
        simp only [namedContract, List.length_append, List.length_singleton]
        exact Or.inl ⟨_, hnamed, hother, hescapes⟩
      | active _ hretrieved hlow hunnamed hactive =>
        refine Or.inr ⟨_, _, call_eq_ok_iff.mpr ⟨hretrieved, rfl⟩, ?_⟩
        dsimp only
        rw [if_neg (Bool.eq_false_iff.mp hlow), handleLowConfidence_raises_iff he]
        simp only [namedContract, List.length_append, List.length_singleton]
        exact Or.inr ⟨hunnamed, _, hactive, hescapes⟩

/-- **What `ask` raises without a label** is an empty ranking, or what escapes from an unguarded
`answer_with_retry`. -/
theorem ask_raises_iff (he : e.Unlabelled) :
    Exc.Raises (ask w question) c e ↔ AskEscapes w question c e := by
  unfold ask
  rw [raises_getState_bind]
  rcases hpending : truthy c.session.pendingQuestion with - | pending
  · refine askFresh_raises_iff he fun pending hselects => ?_
    rw [hselects.1] at hpending
    cases hpending
  · dsimp only
    split_ifs with hlooks
    · have hselects : Selects w question c pending := ⟨hpending, hlooks⟩
      rw [resolvePendingSelection_raises_iff he]
      constructor
      · rintro ⟨hoffered, hescapes⟩
        exact .answer (.selection hselects hoffered) hescapes
      · intro h
        cases h with
        | emptyRanking hfresh _ => exact absurd hselects (hfresh _)
        | answer hunguarded hescapes =>
          cases hunguarded with
          | selection hselects' hoffered =>
            obtain rfl := Option.some.inj (hpending.symm.trans hselects'.1)
            exact ⟨hoffered, hescapes⟩
          | mentioned hfresh | active hfresh => exact absurd hselects (hfresh _)
    · exact askFresh_raises_iff he fun _ hselects => hlooks hselects.2

/-- Every exception that the call raises is one of the application's own. -/
def FailsLabelled (w : World) (question : String) (c : Ctx) : Prop :=
  ∀ e, Exc.Raises (ask w question) c e → e.cls.isAuditFlowError = true

/-- Nothing without a label can escape: a message of its own has a ranking that is not empty, and
where `answer_with_retry` is called unguarded, neither the corpus nor a reply of the generator
raises an exception of another class. -/
structure Shielded (w : World) (question : String) (c : Ctx) : Prop where
  ranked : (∀ pending, ¬Selects w question c pending) →
    rankedFor w.rt (w.indexes c.trace.length) (w.rerank c.trace.length) question ≠ .ok []
  answers : ∀ asked d t, Unguarded w question c asked d t →
    ∀ e, AnswerEscapes w asked d t e → e.cls.isAuditFlowError = true

/-- **Failures are labelled exactly where the call is shielded.** -/
theorem ask_failsLabelled_iff (w : World) (question : String) (c : Ctx) :
    FailsLabelled w question c ↔ Shielded w question c := by
  constructor
  · intro h
    have hnot {e : PyError} (he : e.Unlabelled) : ¬AskEscapes w question c e := by
      intro hescapes
      have hlabelled := h e ((ask_raises_iff he).mpr hescapes)
      rw [he] at hlabelled
      cases hlabelled
    refine ⟨fun hfresh hempty => absurd (AskEscapes.emptyRanking hfresh hempty) (hnot rfl), ?_⟩
    intro asked d t hunguarded e hescapes
    by_contra he
    exact hnot (Bool.eq_false_of_not_eq_true he) (.answer hunguarded hescapes)
  · intro h e hraises
    by_contra he
    cases (ask_raises_iff (Bool.eq_false_of_not_eq_true he)).mp hraises with
    | emptyRanking hfresh hempty => exact h.ranked hfresh hempty
    | answer hunguarded hescapes => exact he (h.answers _ _ _ hunguarded e hescapes)

end

/-! ### A concrete failure -/

/-- The generator replies with a message without content. -/
def nullReply : World :=
  { sampleWorld [1, 1, 1, 0, 0] "A::1" with generator := fun _ _ _ => .ok (.content none) }

/-- A user who was asked which of `B` and `A` was meant. -/
def askedWhich : Ctx :=
  { session := { pendingQuestion := some "Which law governs?", pendingCandidates := ["B", "A"] } }

/-- **A raw exception escapes**: an `AttributeError` from a null reply to a question about the
chosen contract. -/
theorem ask_raises_raw : ¬FailsLabelled nullReply "A" askedWhich := by
  have hnull : (ask nullReply "A" askedWhich).1 =
      .error { cls := .attributeError,
               message := "'NoneType' object has no attribute 'strip'" } := by
    decide +kernel
  intro h
  cases h _ ⟨_, Exc.eq_of_fst hnull⟩

end AuditFlow
