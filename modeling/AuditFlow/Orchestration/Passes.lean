import AuditFlow.Foundation.Shortlist
import AuditFlow.Orchestration.SecondPass

/-!
# What the generator is given

Run with callbacks that do not raise, the retry layer leaves a **trace** of its calls with what they
returned: a pass reads a context (unless it was prefetched) and the corpus, and generates from the
chunks scoped to the document. There are four kinds of runs (`LayerRun`), with at most two passes,
and `exists_layerRun` says that there are no others.

What the generator is given in a pass is determined by the context and the corpus of that pass
(`scopedChunks`), so what holds of all scoped chunks (`seesDocument_scopedChunks`) holds of every
call.
-/

namespace AuditFlow

open Foundation

/-! ### Scoped chunks -/

/-- The chunks that a pass generates from: the first `topK` chunks of the document in the context,
and its preamble. -/
def scopedChunks (corpus : List ChunkRecord) (documentId : String) (topK : ℕ)
    (context : RetrievalContext) : List ChunkMatch :=
  withPreamble corpus documentId
    (shortlist (fun c => decide (c.documentId = documentId)) topK context.chunks)

/-- The first preamble chunk of the document in the corpus. -/
def firstPreamble (corpus : List ChunkRecord) (documentId : String) : Option ChunkRecord :=
  corpus.find? fun c => decide (c.documentId = documentId) && c.isPreamble

/-- The chunks of the context have distinct ids. -/
def RetrievalContext.DistinctIds (context : RetrievalContext) : Prop :=
  (context.chunks.map ChunkMatch.chunkId).Nodup

instance (context : RetrievalContext) : Decidable context.DistinctIds :=
  inferInstanceAs (Decidable (List.Nodup _))

/-- What a chunk list for the document has to be, given the context and the corpus it was made
from. -/
structure SeesDocument (documentId : String) (topK : ℕ) (context : RetrievalContext)
    (corpus : List ChunkRecord) (chunks : List ChunkMatch) : Prop where
  nonempty : chunks ≠ []
  distinctIds : (chunks.map ChunkMatch.chunkId).Nodup
  ofDocument : ∀ c ∈ chunks, c.documentId = documentId
  /-- The document's first chunks in the order of the context, plus at most one more. -/
  retrieved : ∃ extra, extra.length ≤ 1 ∧ chunks =
    shortlist (fun c => decide (c.documentId = documentId)) topK context.chunks ++ extra
  preamble : ∀ p, firstPreamble corpus documentId = some p → ∃ c ∈ chunks, c.chunkId = p.chunkId

/-- The preamble is among the chunks afterwards; it is either added at the end or was there. -/
theorem withPreamble_cases (corpus : List ChunkRecord) (documentId : String)
    (chunks : List ChunkMatch) :
    (withPreamble corpus documentId chunks = chunks ∧
        ∀ p, firstPreamble corpus documentId = some p → ∃ c ∈ chunks, c.chunkId = p.chunkId) ∨
      ∃ p, firstPreamble corpus documentId = some p ∧ (∀ c ∈ chunks, c.chunkId ≠ p.chunkId) ∧
        withPreamble corpus documentId chunks = chunks ++
          [{ chunkId := p.chunkId, documentId, rawChunkText := p.rawChunkText, score := 0 }] := by
  rcases hfind : firstPreamble corpus documentId with _ | p
  · refine Or.inl ⟨?_, fun p hp => nomatch hp⟩
    rw [firstPreamble] at hfind
    rw [withPreamble, hfind]
  · have hunfold : withPreamble corpus documentId chunks =
        if chunks.any fun c => decide (c.chunkId = p.chunkId) then chunks else chunks ++
          [{ chunkId := p.chunkId, documentId, rawChunkText := p.rawChunkText, score := 0 }] := by
      rw [firstPreamble] at hfind
      rw [withPreamble, hfind]
    rw [hunfold]
    split_ifs with hany
    · refine Or.inl ⟨rfl, fun p' hp' => ?_⟩
      obtain rfl := Option.some.inj hp'
      obtain ⟨c, hc, hid⟩ := List.any_eq_true.mp hany
      exact ⟨c, hc, of_decide_eq_true hid⟩
    · refine Or.inr ⟨p, rfl, fun c hc hid => hany ?_, rfl⟩
      exact List.any_eq_true.mpr ⟨c, hc, decide_eq_true hid⟩

section

variable {corpus : List ChunkRecord} {documentId : String} {topK : ℕ} {context : RetrievalContext}

/-- **What a pass generates from** is right for the document, if there is anything. -/
theorem seesDocument_scopedChunks (hdistinct : context.DistinctIds)
    (hne : scopedChunks corpus documentId topK context ≠ []) :
    SeesDocument documentId topK context corpus (scopedChunks corpus documentId topK context) := by
  have hretrieved : ((shortlist (fun c => decide (c.documentId = documentId)) topK
      context.chunks).map ChunkMatch.chunkId).Nodup :=
    hdistinct.sublist (shortlist_sublist.map _)
  have hdocument : ∀ c ∈ scopedChunks corpus documentId topK context, c.documentId = documentId :=
    withPreamble_documentId fun c hc => by
      have hp := of_mem_shortlist hc
      exact of_decide_eq_true hp
  rcases withPreamble_cases corpus documentId
    (shortlist (fun c => decide (c.documentId = documentId)) topK context.chunks) with
    ⟨hkept, hpreamble⟩ | ⟨p, hfirst, hfresh, hadded⟩
  · rw [← scopedChunks] at hkept
    refine ⟨hne, ?_, hdocument, ⟨[], Nat.zero_le 1, ?_⟩, fun p hp => ?_⟩
    · rwa [hkept]
    · rw [hkept, List.append_nil]
    · rw [hkept]
      exact hpreamble p hp
  · rw [← scopedChunks] at hadded
    refine ⟨hne, ?_, hdocument, ⟨_, le_rfl, hadded⟩, fun p' hp' => ?_⟩
    · rw [hadded, List.map_append, List.map_singleton]
      refine List.nodup_append'.mpr ⟨hretrieved, List.nodup_singleton _, ?_⟩
      rw [List.disjoint_singleton]
      intro hmem
      obtain ⟨c, hc, hid⟩ := List.mem_map.mp hmem
      exact hfresh c hc hid
    · obtain rfl := Option.some.inj (hfirst.symm.trans hp')
      rw [hadded]
      exact ⟨_, List.mem_append_right _ List.mem_cons_self, rfl⟩

/-- A pass has nothing to generate from exactly if the context has no chunk of the document and the
corpus has no preamble of it. -/
theorem scopedChunks_eq_nil_iff (hk : topK ≠ 0) :
    scopedChunks corpus documentId topK context = [] ↔
      (∀ c ∈ context.chunks, c.documentId ≠ documentId) ∧
        ∀ c ∈ corpus, c.documentId = documentId → c.isPreamble = false := by
  have hshort : shortlist (fun c => decide (c.documentId = documentId)) topK context.chunks = [] ↔
      ∀ c ∈ context.chunks, c.documentId ≠ documentId := by
    rw [shortlist_eq_nil_iff hk]
    simp only [decide_eq_true_eq, ne_eq]
  have hnone : firstPreamble corpus documentId = none ↔
      ∀ c ∈ corpus, c.documentId = documentId → c.isPreamble = false := by
    rw [firstPreamble, List.find?_eq_none]
    simp only [Bool.and_eq_true, decide_eq_true_eq, not_and, Bool.not_eq_true]
  rw [← hshort, ← hnone]
  rcases withPreamble_cases corpus documentId
    (shortlist (fun c => decide (c.documentId = documentId)) topK context.chunks) with
    ⟨hkept, hpreamble⟩ | ⟨p, hfirst, -, hadded⟩
  · rw [← scopedChunks] at hkept
    rw [hkept]
    refine (and_iff_left_of_imp fun hnil => ?_).symm
    -- a preamble would have to be among no chunks
    rw [Option.eq_none_iff_forall_ne_some]
    intro p hp
    obtain ⟨c, hc, -⟩ := hpreamble p hp
    rw [hnil] at hc
    cases hc
  · rw [← scopedChunks] at hadded
    refine iff_of_false (fun h => ?_) fun h => ?_
    · rw [hadded] at h
      exact List.append_ne_nil_of_right_ne_nil _ (List.cons_ne_nil _ _) h
    · rw [hfirst] at h
      cases h.2

end

/-! ### Runs with callbacks that do not raise -/

/-- A call of the layer, with what it returned. -/
inductive LayerCall
  | allChunks (corpus : List ChunkRecord)
  | fullContext (query : String) (context : RetrievalContext)
  | generate (question : String) (chunks : List ChunkMatch) (result : GenerationResult)

/-- A call of the generator. -/
structure Generation where
  question : String
  chunks : List ChunkMatch
  result : GenerationResult

def LayerCall.corpus? : LayerCall → Option (List ChunkRecord)
  | .allChunks corpus => some corpus
  | _ => none

def LayerCall.context? : LayerCall → Option RetrievalContext
  | .fullContext _ context => some context
  | _ => none

def LayerCall.generation? : LayerCall → Option Generation
  | .generate question chunks result => some { question, chunks, result }
  | _ => none

/-- The calls of the generator. -/
def generations (trace : List LayerCall) : List Generation :=
  trace.filterMap LayerCall.generation?

/-- The corpora that were read, one in each pass. -/
def corporaRead (trace : List LayerCall) : List (List ChunkRecord) :=
  trace.filterMap LayerCall.corpus?

/-- The contexts that were used, one in each pass. -/
def contextsUsed (prefetched : Option RetrievalContext) (trace : List LayerCall) :
    List RetrievalContext :=
  prefetched.toList ++ trace.filterMap LayerCall.context?

/-- Callbacks that do not raise. -/
structure LayerCallbacks (σ : Type) where
  getAllChunks : σ → List ChunkRecord × σ
  generateFn : String → List ChunkMatch → σ → GenerationResult × σ
  fullContextFn : String → σ → RetrievalContext × σ

/-- A call that is entered in the trace. -/
def recorded {σ α : Type} (call : α → LayerCall) (f : σ → α × σ) :
    Exc PyError (σ × List LayerCall) α :=
  fun s => (.ok (f s.1).1, (f s.1).2, s.2 ++ [call (f s.1).1])

section

variable {σ : Type} (callbacks : LayerCallbacks σ)

/-- `get_all_chunks`, recorded. -/
def LayerCallbacks.readChunks : Exc PyError (σ × List LayerCall) (List ChunkRecord) :=
  recorded .allChunks callbacks.getAllChunks

/-- `generate_fn`, recorded. -/
def LayerCallbacks.generate (question : String) (chunks : List ChunkMatch) :
    Exc PyError (σ × List LayerCall) GenerationResult :=
  recorded (.generate question chunks) (callbacks.generateFn question chunks)

/-- `full_context_fn`, recorded. -/
def LayerCallbacks.retrieve (query : String) : Exc PyError (σ × List LayerCall) RetrievalContext :=
  recorded (.fullContext query) (callbacks.fullContextFn query)

/-- A run of the layer with the trace of its calls. -/
def LayerCallbacks.run (rt : Runtime) (question documentId : String)
    (prefetched : Option RetrievalContext) (s : σ) :
    Except PyError (Option GenerationResult) × σ × List LayerCall :=
  generateWithBoundedRetry rt callbacks.readChunks callbacks.generate callbacks.retrieve question
    documentId prefetched (s, [])

end

/-- What a pass reads: a context, unless it was prefetched, and the corpus. -/
def passReads (prefetched : Option RetrievalContext) (query : String) (context : RetrievalContext)
    (corpus : List ChunkRecord) : List LayerCall :=
  match prefetched with
  | some _ => [.allChunks corpus]
  | none => [.fullContext query context, .allChunks corpus]

/-- The context is the prefetched one, if there is one. -/
def Uses (prefetched : Option RetrievalContext) (context : RetrievalContext) : Prop :=
  ∀ c, prefetched = some c → context = c

/-- The traces that a run leaves, with what it returns. -/
inductive LayerRun (rt : Runtime) (question documentId : String)
    (prefetched : Option RetrievalContext) :
    List LayerCall → Option GenerationResult → Prop
  | unscoped {context : RetrievalContext} {corpus : List ChunkRecord}
      (huses : Uses prefetched context) (hnone : scopedChunks corpus documentId 5 context = []) :
      LayerRun rt question documentId prefetched (passReads prefetched question context corpus) none
  | once {context : RetrievalContext} {corpus : List ChunkRecord} (result : GenerationResult)
      (huses : Uses prefetched context) (hne : scopedChunks corpus documentId 5 context ≠ []) :
      LayerRun rt question documentId prefetched
        (passReads prefetched question context corpus ++
          [.generate question (scopedChunks corpus documentId 5 context) result])
        (some result)
  | unwidened {context wider : RetrievalContext} {corpus corpus' : List ChunkRecord}
      (result : GenerationResult) (reformulated : String) (huses : Uses prefetched context)
      (hne : scopedChunks corpus documentId 5 context ≠ []) :
      LayerRun rt question documentId prefetched
        (passReads prefetched question context corpus ++
          [.generate question (scopedChunks corpus documentId 5 context) result] ++
          passReads none reformulated wider corpus')
        (some result)
  | retried {context wider : RetrievalContext} {corpus corpus' : List ChunkRecord}
      (result retryResult : GenerationResult) (reformulated : String)
      (huses : Uses prefetched context) (hne : scopedChunks corpus documentId 5 context ≠ [])
      (hwider : scopedChunks corpus' documentId 12 wider ≠ []) :
      LayerRun rt question documentId prefetched
        (passReads prefetched question context corpus ++
          [.generate question (scopedChunks corpus documentId 5 context) result] ++
          passReads none reformulated wider corpus' ++
          [.generate question (scopedChunks corpus' documentId 12 wider) retryResult])
        (some (if needsRetry retryResult.claims then result else retryResult))

section

variable {σ : Type} (rt : Runtime) (callbacks : LayerCallbacks σ) (question documentId : String)
  (prefetched : Option RetrievalContext)

/-- What a recorded scoping reads and returns. -/
theorem getScopedContext_recorded (query : String) (topK : ℕ) (s : σ) (trace : List LayerCall) :
    ∃ context corpus s', Uses prefetched context ∧
      getScopedContext rt callbacks.readChunks callbacks.retrieve query documentId topK (-4) true
          prefetched (s, trace) =
        (.ok (scopedContext documentId (-4) (scopedChunks corpus documentId topK context)), s',
          trace ++ passReads prefetched query context corpus) := by
  cases prefetched with
  | some context =>
    exact ⟨context, (callbacks.getAllChunks s).1, (callbacks.getAllChunks s).2,
      fun c hc => Option.some.inj hc, rfl⟩
  | none =>
    refine ⟨(callbacks.fullContextFn query s).1,
      (callbacks.getAllChunks (callbacks.fullContextFn query s).2).1,
      (callbacks.getAllChunks (callbacks.fullContextFn query s).2).2, ?_, ?_⟩
    · intro c hc
      cases hc
    · rw [passReads, List.append_cons]
      rfl

/-- A recorded retry: it finds nothing, or generates from the wider scope. -/
theorem retryWith_recorded (reformulated : String) (result : GenerationResult) (s : σ)
    (trace : List LayerCall) :
    ∃ wider corpus s', (scopedChunks corpus documentId 12 wider = [] ∧
        retryWith rt callbacks.readChunks callbacks.generate callbacks.retrieve question documentId
            reformulated result (s, trace) =
          (.ok (some result), s', trace ++ passReads none reformulated wider corpus)) ∨
      ∃ retryResult, scopedChunks corpus documentId 12 wider ≠ [] ∧
        retryWith rt callbacks.readChunks callbacks.generate callbacks.retrieve question documentId
            reformulated result (s, trace) =
          (.ok (some (if needsRetry retryResult.claims then result else retryResult)), s',
            trace ++ passReads none reformulated wider corpus ++
              [.generate question (scopedChunks corpus documentId 12 wider) retryResult]) := by
  obtain ⟨wider, corpus, s₁, -, hscope⟩ :=
    getScopedContext_recorded rt callbacks documentId none reformulated 12 s trace
  by_cases hnone : scopedChunks corpus documentId 12 wider = []
  · refine ⟨wider, corpus, s₁, Or.inl ⟨hnone, ?_⟩⟩
    rw [hnone, scopedContext] at hscope
    rw [retryWith, Exc.bind_of_ok hscope]
    rfl
  · obtain ⟨scope, hsome, hchunks⟩ := exists_scopedContext documentId (-4) hnone
    rw [hsome] at hscope
    refine ⟨wider, corpus, (callbacks.generateFn question scope.chunks s₁).2,
      Or.inr ⟨(callbacks.generateFn question scope.chunks s₁).1, hnone, ?_⟩⟩
    rw [retryWith, Exc.bind_of_ok hscope, ← hchunks]
    rfl

/-- **There are no other runs.** -/
theorem exists_layerRun (s : σ) :
    ∃ r s' trace, callbacks.run rt question documentId prefetched s = (.ok r, s', trace) ∧
      LayerRun rt question documentId prefetched trace r := by
  obtain ⟨context, corpus, s₁, huses, hscope⟩ :=
    getScopedContext_recorded rt callbacks documentId prefetched question 5 s []
  rw [List.nil_append] at hscope
  by_cases hnone : scopedChunks corpus documentId 5 context = []
  · refine ⟨none, s₁, passReads prefetched question context corpus, ?_, .unscoped huses hnone⟩
    rw [hnone, scopedContext] at hscope
    rw [LayerCallbacks.run, generateWithBoundedRetry, Exc.bind_of_ok hscope]
    rfl
  · obtain ⟨scope, hsome, hchunks⟩ := exists_scopedContext documentId (-4) hnone
    rw [hsome] at hscope
    obtain ⟨⟨result, s₂⟩, hgenerate⟩ : ∃ answer, callbacks.generateFn question scope.chunks s₁ =
      answer := ⟨_, rfl⟩
    have hfirst : FirstPass rt callbacks.readChunks callbacks.generate callbacks.retrieve question
        documentId prefetched (s, []) result (s₂, passReads prefetched question context corpus ++
          [.generate question (scopedChunks corpus documentId 5 context) result]) := by
      refine ⟨scope, _, hscope, ?_⟩
      rw [LayerCallbacks.generate, recorded, hgenerate, hchunks]
    rw [LayerCallbacks.run, generateWithBoundedRetry_of_firstPass hfirst, secondPass]
    split_ifs with hretry
    · cases reformulateQuery rt question with
      | none => exact ⟨_, _, _, rfl, .once result huses hnone⟩
      | some reformulated =>
        obtain ⟨wider, corpus', s', ⟨-, hrun⟩ | ⟨retryResult, hwider, hrun⟩⟩ :=
          retryWith_recorded rt callbacks question documentId reformulated result s₂
            (passReads prefetched question context corpus ++
              [.generate question (scopedChunks corpus documentId 5 context) result])
        · exact ⟨_, _, _, hrun, .unwidened result reformulated huses hnone⟩
        · exact ⟨_, _, _, hrun, .retried result retryResult reformulated huses hnone hwider⟩
    · exact ⟨_, _, _, rfl, .once result huses hnone⟩

end

/-! ### Reading a trace -/

/-- How many chunks of the document a pass takes from its context. -/
def passTopK : ℕ → ℕ
  | 0 => 5
  | _ => 12

@[simp] theorem generations_append (trace trace' : List LayerCall) :
    generations (trace ++ trace') = generations trace ++ generations trace' :=
  List.filterMap_append

@[simp] theorem corporaRead_append (trace trace' : List LayerCall) :
    corporaRead (trace ++ trace') = corporaRead trace ++ corporaRead trace' :=
  List.filterMap_append

@[simp] theorem contextsUsed_append (prefetched : Option RetrievalContext)
    (trace trace' : List LayerCall) :
    contextsUsed prefetched (trace ++ trace') =
      contextsUsed prefetched trace ++ contextsUsed none trace' := by
  rw [contextsUsed, contextsUsed, contextsUsed, List.filterMap_append, List.append_assoc]
  rfl

section

variable {rt : Runtime} {question documentId query : String} {prefetched : Option RetrievalContext}
  {context : RetrievalContext} {corpus : List ChunkRecord} {chunks : List ChunkMatch}
  {result : GenerationResult} {trace : List LayerCall} {r : Option GenerationResult}

@[simp] theorem generations_generate :
    generations (.generate question chunks result :: trace) =
      { question, chunks, result } :: generations trace := rfl

@[simp] theorem corporaRead_generate :
    corporaRead (.generate question chunks result :: trace) = corporaRead trace := rfl

@[simp] theorem contextsUsed_generate :
    contextsUsed none (.generate question chunks result :: trace) = contextsUsed none trace := rfl

@[simp] theorem generations_nil : generations [] = [] := rfl

@[simp] theorem corporaRead_nil : corporaRead [] = [] := rfl

@[simp] theorem contextsUsed_nil : contextsUsed none [] = [] := rfl

@[simp] theorem generations_passReads :
    generations (passReads prefetched query context corpus) = [] := by
  cases prefetched with
  | none => rfl
  | some c => rfl

@[simp] theorem corporaRead_passReads :
    corporaRead (passReads prefetched query context corpus) = [corpus] := by
  cases prefetched with
  | none => rfl
  | some c => rfl

theorem contextsUsed_passReads (huses : Uses prefetched context) :
    contextsUsed prefetched (passReads prefetched query context corpus) = [context] := by
  cases prefetched with
  | none => rfl
  | some c =>
    rw [huses c rfl]
    rfl

@[simp] theorem contextsUsed_passReads_none :
    contextsUsed none (passReads none query context corpus) = [context] := rfl

/-- At most two calls, both with the original question. -/
theorem LayerRun.questions (h : LayerRun rt question documentId prefetched trace r) :
    (generations trace).length ≤ 2 ∧ ∀ g ∈ generations trace, g.question = question := by
  cases h with
  | unscoped huses hnone => simp
  | once result huses hne => simp
  | unwidened result reformulated huses hne => simp
  | retried result retryResult reformulated huses hne hwider => simp

/-- The first pass reads a context and the corpus; the run returns nothing exactly if they have
nothing of the document. -/
theorem LayerRun.eq_none_iff (h : LayerRun rt question documentId prefetched trace r) :
    ∃ context corpus, (contextsUsed prefetched trace)[0]? = some context ∧
      (corporaRead trace)[0]? = some corpus ∧
      (r = none ↔ scopedChunks corpus documentId 5 context = []) := by
  cases h with
  | @unscoped context corpus huses hnone =>
    refine ⟨context, corpus, ?_, ?_, iff_of_true rfl hnone⟩
    · rw [contextsUsed_passReads huses]
      rfl
    · rw [corporaRead_passReads]
      rfl
  | @once context corpus result huses hne =>
    refine ⟨context, corpus, ?_, ?_, iff_of_false (Option.some_ne_none _) hne⟩
    · simp [contextsUsed_passReads huses]
    · simp
  | @unwidened context wider corpus corpus' result reformulated huses hne =>
    refine ⟨context, corpus, ?_, ?_, iff_of_false (Option.some_ne_none _) hne⟩
    · simp [contextsUsed_passReads huses]
    · simp
  | @retried context wider corpus corpus' result retryResult reformulated huses hne hwider =>
    refine ⟨context, corpus, ?_, ?_, iff_of_false (Option.some_ne_none _) hne⟩
    · simp [contextsUsed_passReads huses]
    · simp

/-- A call is given the scoped chunks of its pass. -/
theorem LayerRun.chunks_eq (h : LayerRun rt question documentId prefetched trace r) {i : ℕ}
    {g : Generation} (hg : (generations trace)[i]? = some g) :
    ∃ context corpus, (contextsUsed prefetched trace)[i]? = some context ∧
      (corporaRead trace)[i]? = some corpus ∧ g.chunks ≠ [] ∧
      g.chunks = scopedChunks corpus documentId (passTopK i) context := by
  cases h with
  | unscoped huses hnone => simp at hg
  | @once context corpus result huses hne =>
    rcases i with _ | i
    · obtain rfl : Generation.mk _ _ _ = g := by simpa using hg
      refine ⟨context, corpus, ?_, ?_, hne, rfl⟩
      · simp [contextsUsed_passReads huses]
      · simp
    · simp at hg
  | @unwidened context wider corpus corpus' result reformulated huses hne =>
    rcases i with _ | i
    · obtain rfl : Generation.mk _ _ _ = g := by simpa using hg
      refine ⟨context, corpus, ?_, ?_, hne, rfl⟩
      · simp [contextsUsed_passReads huses]
      · simp
    · simp at hg
  | @retried context wider corpus corpus' result retryResult reformulated huses hne hwider =>
    rcases i with _ | _ | i
    · obtain rfl : Generation.mk _ _ _ = g := by simpa using hg
      refine ⟨context, corpus, ?_, ?_, hne, rfl⟩
      · simp [contextsUsed_passReads huses]
      · simp
    · obtain rfl : Generation.mk _ _ _ = g := by simpa using hg
      refine ⟨wider, corpus', ?_, ?_, hwider, rfl⟩
      · simp [contextsUsed_passReads huses]
      · simp
    · simp at hg

/-- The result of the second call is returned only if all of its claims have a source. -/
theorem LayerRun.sourced_of_second (h : LayerRun rt question documentId prefetched trace r)
    {g₁ g₂ : Generation} (hg : generations trace = [g₁, g₂]) :
    r = some g₁.result ∨ r = some g₂.result ∧ ∀ c ∈ g₂.result.claims, c.sourceChunkId ≠ none := by
  cases h with
  | unscoped huses hnone => simp at hg
  | once result huses hne => simp at hg
  | unwidened result reformulated huses hne => simp at hg
  | retried result retryResult reformulated huses hne hwider =>
    obtain ⟨rfl, rfl⟩ : Generation.mk _ _ _ = g₁ ∧ Generation.mk _ _ _ = g₂ := by simpa using hg
    split_ifs with hagain
    · exact Or.inl rfl
    · exact Or.inr ⟨rfl, needsRetry_eq_false_iff.mp (Bool.eq_false_iff.mpr hagain)⟩

end

/-! ### The document's chunks only -/

/-- **The generator sees the right document.** Run with callbacks that do not raise and contexts of
distinct chunk ids, the layer returns; it calls the generator at most twice, always with the
original question, and with chunks that are right for the document given the context and the corpus
of the pass; it returns nothing exactly if the first context has no chunk of the document and the
corpus no preamble of it; and it returns the result of a second call only if all of its claims have
a source. -/
theorem generator_sees_document {σ : Type} (rt : Runtime) (callbacks : LayerCallbacks σ)
    (question documentId : String) (prefetched : Option RetrievalContext) (s s' : σ)
    (outcome : Except PyError (Option GenerationResult)) (trace : List LayerCall)
    (hrun : callbacks.run rt question documentId prefetched s = (outcome, s', trace))
    (hdistinct : ∀ context ∈ contextsUsed prefetched trace, context.DistinctIds) :
    ((generations trace).length ≤ 2 ∧ ∀ g ∈ generations trace, g.question = question) ∧
      (∀ i g, (generations trace)[i]? = some g → ∃ context corpus,
        (contextsUsed prefetched trace)[i]? = some context ∧
          (corporaRead trace)[i]? = some corpus ∧
          SeesDocument documentId (passTopK i) context corpus g.chunks) ∧
      ∃ r, outcome = .ok r ∧
        (∃ context corpus, (contextsUsed prefetched trace)[0]? = some context ∧
          (corporaRead trace)[0]? = some corpus ∧
          (r = none ↔ (∀ c ∈ context.chunks, c.documentId ≠ documentId) ∧
            ∀ c ∈ corpus, c.documentId = documentId → c.isPreamble = false)) ∧
        ∀ g₁ g₂, generations trace = [g₁, g₂] →
          r = some g₁.result ∨
            r = some g₂.result ∧ ∀ c ∈ g₂.result.claims, c.sourceChunkId ≠ none := by
  obtain ⟨r, s'', trace', hrun', hlayer⟩ :=
    exists_layerRun rt callbacks question documentId prefetched s
  rw [hrun] at hrun'
  obtain ⟨rfl, rfl, rfl⟩ : outcome = .ok r ∧ s' = s'' ∧ trace = trace' := by
    simpa only [Prod.mk.injEq] using hrun'
  refine ⟨hlayer.questions, fun i g hg => ?_, r, rfl, ?_, fun g₁ g₂ => hlayer.sourced_of_second⟩
  · obtain ⟨context, corpus, hcontext, hcorpus, hne, hchunks⟩ := hlayer.chunks_eq hg
    refine ⟨context, corpus, hcontext, hcorpus, ?_⟩
    rw [hchunks] at hne ⊢
    exact seesDocument_scopedChunks (hdistinct context (List.mem_of_getElem? hcontext)) hne
  · obtain ⟨context, corpus, hcontext, hcorpus, hnone⟩ := hlayer.eq_none_iff
    exact ⟨context, corpus, hcontext, hcorpus, hnone.trans (scopedChunks_eq_nil_iff (by decide))⟩

/-- Callbacks that find one chunk of a lease, and answer without a source. -/
private def leaseCallbacks : LayerCallbacks Unit where
  getAllChunks s :=
    ([{ chunkId := "lease::0", documentId := "lease", chunkIndex := 0,
        rawChunkText := "This lease is made between", embeddingText := "", contentHash := "",
        isPreamble := true }], s)
  generateFn _ _ s := ({ claims := [{ text := "The lease does not say." }] }, s)
  fullContextFn _ s :=
    ({ chunks := [{ chunkId := "lease::1", documentId := "lease",
                    rawChunkText := "Rent is due monthly.", score := 1 }]
       consistency := { concentration := 1, isConfident := true } }, s)

private def leaseRun : Except PyError (Option GenerationResult) × Unit × List LayerCall :=
  leaseCallbacks.run Runtime.example "Is there a renewal clause?" "lease" none ()

theorem generator_sees_lease :
    ∃ g, (generations leaseRun.2.2)[1]? = some g ∧ ∃ context corpus,
      (contextsUsed none leaseRun.2.2)[1]? = some context ∧
        (corporaRead leaseRun.2.2)[1]? = some corpus ∧
        SeesDocument "lease" 12 context corpus g.chunks := by
  have hdistinct : ∀ context ∈ contextsUsed none leaseRun.2.2, context.DistinctIds := by
    decide +kernel
  have hcalls : ((generations leaseRun.2.2)[1]?).isSome = true := by decide +kernel
  obtain ⟨g, hg⟩ := Option.isSome_iff_exists.mp hcalls
  have heta (x : Except PyError (Option GenerationResult) × Unit × List LayerCall) :
      x = (x.1, x.2.1, x.2.2) := rfl
  have hrun : leaseCallbacks.run Runtime.example "Is there a renewal clause?" "lease" none () =
      (leaseRun.1, leaseRun.2.1, leaseRun.2.2) := heta leaseRun
  have hsees := (generator_sees_document Runtime.example leaseCallbacks
    "Is there a renewal clause?" "lease" none () leaseRun.2.1 leaseRun.1 leaseRun.2.2 hrun
    hdistinct).2.1
  exact ⟨g, hg, hsees 1 g hg⟩

end AuditFlow
