import AuditFlow.Foundation.Triple
import AuditFlow.Orchestration.Answers
import AuditFlow.Retrieval.CacheWatcher

/-!
# Can what was shown be verified?

Between the generator, which is shown chunks of the index, and the judge, who looks the cited chunks
up in `chunk_lookup`, a worker may reload: the index is swapped first, and the lookup some time
later. `ask_grounded` holds of `Sessions.ask` with no regard to reloads, on all its paths, also on
those that raise: **every chunk that is shown was in the corpus at an earlier read of the same
call**, and verification comes last, with the lookup of its moment.

So a shown chunk can be verified **if and only if it was served when the lookup was last built**,
which is not when it was read (`shown_verifiable_iff`): the index may have been swapped for one with
new chunks whose lookup is not there yet (`shown_before_the_lookup`), or a chunk may have been
dropped or changed by a reload behind the reads. What a reload must not do meanwhile is said step by
step in `looksUp_of_keeps`.
-/

namespace AuditFlow

open Foundation

/-! ### The retry layer -/

section

variable {σ : Type} {R : σ → σ → Prop} {I E : σ → Prop} {Shown : String → String → σ → Prop}
  {rt : Runtime} {getAllChunks : Exc PyError σ (List ChunkRecord)}
  {generateFn : String → List ChunkMatch → Exc PyError σ GenerationResult}
  {fullContextFn : String → Exc PyError σ RetrievalContext} {question documentId : String}
  {prefetched : Option RetrievalContext}

/-- Every chunk is known, by its id and its text. -/
def AllShown (Shown : String → String → σ → Prop) (chunks : List ChunkMatch) (s : σ) : Prop :=
  ∀ m ∈ chunks, Shown m.chunkId m.rawChunkText s

/-- Every chunk of the context, if there is one, is known. -/
def ContextShown (Shown : String → String → σ → Prop) (context : Option RetrievalContext)
    (s : σ) : Prop :=
  ∀ c ∈ context, AllShown Shown c.chunks s

/-- The preamble is one of the chunks. -/
private theorem allShown_withPreamble {allChunks : List ChunkRecord}
    {scopedChunks : List ChunkMatch} {s : σ}
    (hall : ∀ chunk ∈ allChunks, Shown chunk.chunkId chunk.rawChunkText s)
    (hscoped : AllShown Shown scopedChunks s) :
    AllShown Shown (withPreamble allChunks documentId scopedChunks) s := by
  intro m hm
  rw [withPreamble] at hm
  split at hm
  · exact hscoped m hm
  · rename_i preamble hpreamble
    split_ifs at hm
    · exact hscoped m hm
    · rcases List.mem_append.mp hm with hm | hm
      · exact hscoped m hm
      · rw [List.mem_singleton.mp hm]
        exact hall preamble (List.mem_of_find?_eq_some hpreamble)

private theorem allShown_scopedContext {threshold : ℚ} {chunks : List ChunkMatch} {s : σ}
    (h : AllShown Shown chunks s) :
    ContextShown Shown (scopedContext documentId threshold chunks) s := by
  intro context hcontext
  rw [(scopedContext_eq_some hcontext).1]
  exact h

variable [IsPreorder σ R]
  (hstable : ∀ id text s s', R s s' → Shown id text s → Shown id text s')
  (hall : Exc.Triple R I getAllChunks
    (fun chunks s => I s ∧ ∀ chunk ∈ chunks, Shown chunk.chunkId chunk.rawChunkText s) E)
  (hfull : ∀ q, Exc.Triple R I (fullContextFn q)
    (fun context s => I s ∧ AllShown Shown context.chunks s) E)

include hstable hall hfull

/-- **A scoped context** holds known chunks only. -/
private theorem triple_getScopedContext (question : String) (topK : ℕ) (threshold : ℚ)
    (includePreamble : Bool) (prefetched : Option RetrievalContext) :
    Exc.Triple R (fun s => I s ∧ ContextShown Shown prefetched s)
      (getScopedContext rt getAllChunks fullContextFn question documentId topK threshold
        includePreamble prefetched)
      (fun scope s => I s ∧ ContextShown Shown scope s) E := by
  have hfetch : Exc.Triple R (fun s => I s ∧ ContextShown Shown prefetched s)
      (fetchContext rt fullContextFn question prefetched)
      (fun context s => I s ∧ AllShown Shown context.chunks s) E := by
    cases prefetched with
    | none =>
      have hfresh : Exc.Triple R (fun s => I s ∧ ContextShown Shown none s)
          (fullContextFn question) (fun context s => I s ∧ AllShown Shown context.chunks s) E :=
        (hfull question).pre fun s hs => hs.1
      exact hfresh.handle fun e => Exc.Triple.raise _ fun s hs => hs
    | some context => exact Exc.Triple.pure context fun s hs => ⟨hs.1, hs.2 context rfl⟩
  unfold getScopedContext
  refine hfetch.bind fun context => ?_
  -- what is matched and taken are chunks of the full context
  have hscoped : ∀ s, AllShown Shown context.chunks s → AllShown Shown
      ((context.chunks.filter fun c => decide (c.documentId = documentId)).take topK) s :=
    fun s h m hm => h m (List.mem_of_mem_filter (List.mem_of_mem_take hm))
  refine Exc.Triple.bind (Q := fun chunks s => I s ∧ AllShown Shown chunks s) ?_ fun chunks =>
    Exc.Triple.pure _ fun s hs => ⟨hs.1, allShown_scopedContext hs.2⟩
  unfold includePreambleChunk
  split_ifs
  · refine (hall.frame (F := AllShown Shown context.chunks) ?_).bind fun chunks =>
      Exc.Triple.pure _ fun s hs => ⟨hs.1.1, allShown_withPreamble hs.1.2 (hscoped s hs.2)⟩
    exact fun s s' hgrows h m hm => hstable _ _ s s' hgrows (h m hm)
  · exact Exc.Triple.pure _ fun s hs => ⟨hs.1, hscoped s hs.2⟩

/-- **The retry layer** hands known chunks only to the generator. -/
theorem triple_generateWithBoundedRetry
    (hgen : ∀ chunks, Exc.Triple R (fun s => I s ∧ AllShown Shown chunks s)
      (generateFn question chunks) (fun _ s => I s) E) :
    Exc.Triple R (fun s => I s ∧ ContextShown Shown prefetched s)
      (generateWithBoundedRetry rt getAllChunks generateFn fullContextFn question documentId
        prefetched) (fun _ s => I s) E := by
  unfold generateWithBoundedRetry
  refine (triple_getScopedContext hstable hall hfull question 5 (-4) true prefetched).bind
    fun scope => ?_
  cases scope with
  | none => exact Exc.Triple.pure none fun s hs => hs.1
  | some scope =>
    refine Exc.Triple.bind (Q := fun _ s => I s) ?_ fun result => ?_
    · exact (hgen scope.chunks).pre fun s hs => ⟨hs.1, hs.2 scope rfl⟩
    split_ifs
    · cases reformulateQuery rt question with
      | none => exact Exc.Triple.pure _ fun s hs => hs
      | some reformulated =>
        have hwider : Exc.Triple R I (getScopedContext rt getAllChunks fullContextFn reformulated
            documentId 12) (fun scope s => I s ∧ ContextShown Shown scope s) E :=
          (triple_getScopedContext hstable hall hfull reformulated 12 (-4) true none).pre
            fun s hs => ⟨hs, fun _ h => nomatch h⟩
        refine hwider.bind fun wider => ?_
        cases wider with
        | none => exact Exc.Triple.pure _ fun s hs => hs.1
        | some wider =>
          refine Exc.Triple.bind (Q := fun _ s => I s) ?_ fun _ => Exc.Triple.pure _ fun s hs => hs
          exact (hgen wider.chunks).pre fun s hs => ⟨hs.1, hs.2 wider rfl⟩
    · exact Exc.Triple.pure _ fun s hs => hs

end

/-! ### The trace of a call -/

/-- The trace grows. -/
def Ctx.Grows (c c' : Ctx) : Prop := c.trace <+: c'.trace

instance : IsPreorder Ctx Ctx.Grows where
  refl c := List.prefix_refl c.trace
  trans _ _ _ h h' := List.IsPrefix.trans h h'

section

variable (w : World)

/-- The corpus offered the chunk, with this text, at a read that is in the trace. -/
def ReadIn (chunkId text : String) (past : List Event) : Prop :=
  ∃ t event index, past[t]? = some event ∧ event.IsRetrieval ∧ w.indexes t = .ok index ∧
    Offers index.corpus chunkId text

/-- Whatever is shown to the generator has been read. -/
def ShownRead (past : List Event) : Prop :=
  ∀ question chunks, .generate question chunks ∈ past →
    AllShown (fun chunkId text _ => ReadIn w chunkId text past) chunks ()

/-- Nothing has been verified yet. -/
structure Unverified (past : List Event) : Prop where
  shown : ShownRead w past
  unverified : ∀ claims chunkLookup, .verify claims chunkLookup ∉ past

/-- Verification comes last, with the lookup of its moment. -/
structure Grounded (past : List Event) : Prop where
  shown : ShownRead w past
  last : ∀ j claims chunkLookup, past[j]? = some (.verify claims chunkLookup) →
    past.length = j + 1 ∧ chunkLookup = w.chunkLookup j

variable {w} {past : List Event} {event : Event} {chunkId text : String}

theorem Unverified.grounded (h : Unverified w past) : Grounded w past :=
  ⟨h.shown, fun _ claims chunkLookup hj =>
    absurd (List.mem_of_getElem? hj) (h.unverified claims chunkLookup)⟩

/-- What has been read stays read. -/
theorem ReadIn.append (h : ReadIn w chunkId text past) (events : List Event) :
    ReadIn w chunkId text (past ++ events) := by
  obtain ⟨t, event, index, hevent, hread, hindex, hoffers⟩ := h
  have ht : t < past.length := (List.getElem?_eq_some_iff.mp hevent).1
  refine ⟨t, event, index, ?_, hread, hindex, hoffers⟩
  rw [List.getElem?_append_left ht]
  exact hevent

/-- A read makes what it returns known. -/
theorem readIn_concat (hread : event.IsRetrieval) {index : IndexSnapshot}
    (hindex : w.indexes past.length = .ok index) (hoffers : Offers index.corpus chunkId text) :
    ReadIn w chunkId text (past ++ [event]) :=
  ⟨past.length, event, index, List.getElem?_concat_length, hread, hindex, hoffers⟩

/-- One more event: what it shows must have been read. -/
theorem ShownRead.concat (h : ShownRead w past)
    (hevent : ∀ question chunks, event = .generate question chunks →
      AllShown (fun chunkId text _ => ReadIn w chunkId text past) chunks ()) :
    ShownRead w (past ++ [event]) := by
  intro question chunks hmem m hm
  rcases List.mem_append.mp hmem with hmem | hmem
  · exact (h question chunks hmem m hm).append [event]
  · have heq := (List.mem_singleton.mp hmem).symm
    exact (hevent question chunks heq m hm).append [event]

/-- One more event that verifies nothing. -/
theorem Unverified.concat (h : Unverified w past)
    (hshown : ∀ question chunks, event = .generate question chunks →
      AllShown (fun chunkId text _ => ReadIn w chunkId text past) chunks ())
    (hverify : ∀ claims chunkLookup, event ≠ .verify claims chunkLookup) :
    Unverified w (past ++ [event]) := by
  refine ⟨h.shown.concat hshown, fun claims chunkLookup hmem => ?_⟩
  rcases List.mem_append.mp hmem with hmem | hmem
  · exact h.unverified claims chunkLookup hmem
  · exact hverify claims chunkLookup (List.mem_singleton.mp hmem).symm

/-- The verification. -/
theorem Unverified.verified (h : Unverified w past) (claims : List Claim) :
    Grounded w (past ++ [.verify claims (w.chunkLookup past.length)]) := by
  refine ⟨h.shown.concat fun _ _ heq => (nomatch heq), fun j claims' chunkLookup hj => ?_⟩
  rcases Nat.lt_or_ge j past.length with hlt | hge
  · rw [List.getElem?_append_left hlt] at hj
    exact absurd (List.mem_of_getElem? hj) (h.unverified claims' chunkLookup)
  · have hlt := (List.getElem?_eq_some_iff.mp hj).1
    rw [List.length_append, List.length_singleton] at hlt
    obtain rfl : j = past.length := by omega
    have hlast := Option.some.inj (List.getElem?_concat_length.symm.trans hj)
    obtain ⟨rfl, rfl⟩ := Event.verify.inj hlast
    exact ⟨by rw [List.length_append, List.length_singleton], rfl⟩

/-! ### The parts of `ask` -/

/-- A call outwards grows the trace by its event. -/
theorem triple_call {α : Type} {outcome : ℕ → Except PyError α} {P E : Ctx → Prop}
    {Q : α → Ctx → Prop}
    (hok : ∀ c a, P c → outcome c.trace.length = .ok a →
      Q a { c with trace := c.trace ++ [event] })
    (herror : ∀ c, P c → E { c with trace := c.trace ++ [event] }) :
    Exc.Triple Ctx.Grows P (call event outcome) Q E :=
  fun c hc => ⟨List.prefix_append c.trace [event], fun a ha => hok c a hc ha,
    fun _ _ => herror c hc⟩

/-- The session does not matter here. -/
theorem triple_setState {f : SessionState → SessionState} {P : List Event → Prop}
    {E : Ctx → Prop} : Exc.Triple Ctx.Grows (fun c => P c.trace) (setState f)
      (fun _ c => P c.trace) E :=
  fun c hc => ⟨List.prefix_refl c.trace, fun _ _ => hc, fun _ he => nomatch he⟩

theorem triple_getState {P E : Ctx → Prop} :
    Exc.Triple Ctx.Grows P getState (fun _ => P) E :=
  fun c hc => ⟨List.prefix_refl c.trace, fun _ _ => hc, fun _ he => nomatch he⟩

/-- What is looked up is what stands there at this moment. -/
theorem triple_look {α : Type} {read : ℕ → α} {P E : Ctx → Prop} :
    Exc.Triple Ctx.Grows P (look read) (fun a c => P c ∧ a = read c.trace.length) E :=
  fun c hc => ⟨List.prefix_refl c.trace, fun _ ha => ⟨hc, (Except.ok.inj ha).symm⟩,
    fun _ he => nomatch he⟩

private theorem stable_readIn (chunkId text : String) (c c' : Ctx) (hgrows : c.Grows c')
    (h : ReadIn w chunkId text c.trace) : ReadIn w chunkId text c'.trace := by
  obtain ⟨events, hevents⟩ := hgrows
  rw [← hevents]
  exact h.append events

/-- Retrieval returns what the index of the moment offers. -/
private theorem triple_retrieveContext (query : String) :
    Exc.Triple Ctx.Grows (fun c => Unverified w c.trace) (retrieveContext w query)
      (fun context c => Unverified w c.trace ∧
        AllShown (fun chunkId text c => ReadIn w chunkId text c.trace) context.chunks c)
      fun c => Unverified w c.trace := by
  have hkept : ∀ c : Ctx, Unverified w c.trace → Unverified w (c.trace ++ [.retrieve query]) :=
    fun c hc => hc.concat (fun _ _ heq => nomatch heq) fun _ _ heq => nomatch heq
  refine triple_call (fun c context hc hcontext => ⟨hkept c hc, fun m hm => ?_⟩) hkept
  obtain ⟨index, hindex, hoffers⟩ := offers_of_getVerificationContext hcontext
  exact readIn_concat trivial hindex (hoffers m hm)

/-- All chunks are those of the index of the moment. -/
private theorem triple_readAllChunks :
    Exc.Triple Ctx.Grows (fun c => Unverified w c.trace) (readAllChunks w)
      (fun chunks c => Unverified w c.trace ∧
        ∀ chunk ∈ chunks, ReadIn w chunk.chunkId chunk.rawChunkText c.trace)
      fun c => Unverified w c.trace := by
  have hkept : ∀ c : Ctx, Unverified w c.trace → Unverified w (c.trace ++ [.readChunks]) :=
    fun c hc => hc.concat (fun _ _ heq => nomatch heq) fun _ _ heq => nomatch heq
  refine triple_call (fun c chunks hc hchunks => ⟨hkept c hc, fun chunk hchunk => ?_⟩) hkept
  rw [getAllChunks] at hchunks
  rcases hindex : w.indexes c.trace.length with e | index
  · rw [hindex] at hchunks
    cases hchunks
  · rw [hindex] at hchunks
    obtain rfl := Except.ok.inj hchunks
    exact readIn_concat trivial hindex ⟨chunk, hchunk, rfl, rfl⟩

/-- The generator may be shown what has been read. -/
private theorem triple_callGenerator (question : String) (chunks : List ChunkMatch) :
    Exc.Triple Ctx.Grows (fun c => Unverified w c.trace ∧
        AllShown (fun chunkId text c => ReadIn w chunkId text c.trace) chunks c)
      (callGenerator w question chunks) (fun _ c => Unverified w c.trace)
      fun c => Unverified w c.trace := by
  have hkept : ∀ c : Ctx, Unverified w c.trace ∧
      AllShown (fun chunkId text c => ReadIn w chunkId text c.trace) chunks c →
      Unverified w (c.trace ++ [.generate question chunks]) := by
    rintro c ⟨hc, hshown⟩
    refine hc.concat (fun question' chunks' heq => ?_) fun _ _ heq => nomatch heq
    obtain ⟨-, rfl⟩ := Event.generate.inj heq
    exact hshown
  exact triple_call (fun c _ hc _ => hkept c hc) hkept

/-- **`answer_with_retry`** shows what has been read. -/
private theorem triple_answerWithRetry (question documentId : String)
    (prefetched : Option RetrievalContext) :
    Exc.Triple Ctx.Grows (fun c => Unverified w c.trace ∧
        ContextShown (fun chunkId text c => ReadIn w chunkId text c.trace) prefetched c)
      (answerWithRetry w question documentId prefetched) (fun _ c => Unverified w c.trace)
      fun c => Unverified w c.trace := by
  unfold answerWithRetry
  refine (triple_generateWithBoundedRetry stable_readIn triple_readAllChunks
    triple_retrieveContext (triple_callGenerator question)).bind fun result => ?_
  refine Exc.Triple.bind (Q := fun _ c => Unverified w c.trace) ?_ fun _ =>
    Exc.Triple.pure result fun c hc => hc
  have hkept : ∀ c : Ctx, Unverified w c.trace →
      Unverified w (c.trace ++ [.answer documentId result]) :=
    fun c hc => hc.concat (fun _ _ heq => nomatch heq) fun _ _ heq => nomatch heq
  exact triple_call (fun c _ hc _ => hkept c hc) hkept

/-- **`_verify`** uses the lookup of its moment, and comes last. -/
private theorem triple_verifyAnswer (result : GenerationResult) (documentId : String) :
    Exc.Triple Ctx.Grows (fun c => Unverified w c.trace) (verifyAnswer w result documentId)
      (fun _ c => Grounded w c.trace) fun c => Grounded w c.trace := by
  unfold verifyAnswer
  refine triple_look.bind fun chunkLookup => ?_
  have hverified : ∀ c : Ctx, Unverified w c.trace ∧ chunkLookup = w.chunkLookup c.trace.length →
      Grounded w (c.trace ++ [.verify result.claims chunkLookup]) := by
    rintro c ⟨hc, rfl⟩
    exact hc.verified result.claims
  have hverify : Exc.Triple Ctx.Grows
      (fun c => Unverified w c.trace ∧ chunkLookup = w.chunkLookup c.trace.length)
      (verify w result.claims chunkLookup) (fun _ c => Grounded w c.trace)
      fun c => Grounded w c.trace := by
    have hcall : Exc.Triple Ctx.Grows
        (fun c => Unverified w c.trace ∧ chunkLookup = w.chunkLookup c.trace.length)
        (call (.verify result.claims chunkLookup) fun t =>
          verifyAllClaims w.rt (w.judge t) result.claims chunkLookup)
        (fun _ c => Grounded w c.trace) fun c => Grounded w c.trace :=
      triple_call (fun c _ hc _ => hverified c hc) hverified
    exact hcall.handle fun e => Exc.Triple.raise _ fun c hc => hc
  exact hverify.bind fun claims => Exc.Triple.pure _ fun c hc => hc

/-- Without a prefetched context, nothing is assumed of it. -/
private theorem triple_answerAfresh (question documentId : String) :
    Exc.Triple Ctx.Grows (fun c => Unverified w c.trace) (answerWithRetry w question documentId)
      (fun _ c => Unverified w c.trace) fun c => Grounded w c.trace :=
  (triple_answerWithRetry question documentId none).mono
    (fun _ hc => ⟨hc, fun _ h => nomatch h⟩) (fun _ _ hc => hc) fun _ hc => hc.grounded

private theorem triple_resolvePendingSelection (question resolvedQuestion : String) :
    Exc.Triple Ctx.Grows (fun c => Unverified w c.trace)
      (resolvePendingSelection w question resolvedQuestion) (fun _ c => Grounded w c.trace)
      fun c => Grounded w c.trace := by
  unfold resolvePendingSelection
  refine triple_getState.bind fun state => ?_
  dsimp only
  split_ifs
  · refine triple_setState.bind fun _ => ?_
    refine (triple_answerAfresh resolvedQuestion _).bind fun result => ?_
    cases result with
    | none => exact Exc.Triple.pure _ fun c hc => hc.grounded
    | some result => exact triple_setState.bind fun _ => triple_verifyAnswer result _
  · exact Exc.Triple.pure _ fun c hc => hc.grounded

/-- Falling through leaves everything unverified. -/
private theorem triple_fallsThrough :
    Exc.Triple Ctx.Grows (fun c => Unverified w c.trace) (pure none : Ask (Option AskResponse))
      (fun response c => Grounded w c.trace ∧ (response = none → Unverified w c.trace))
      fun c => Grounded w c.trace :=
  Exc.Triple.pure none fun _ hc => ⟨hc.grounded, fun _ => hc⟩

private theorem triple_answerMentioned (question : String) :
    Exc.Triple Ctx.Grows (fun c => Unverified w c.trace) (answerMentioned w question)
      (fun response c => Grounded w c.trace ∧ (response = none → Unverified w c.trace))
      fun c => Grounded w c.trace := by
  unfold answerMentioned
  refine triple_look.bind fun identities => ?_
  refine (triple_getState.pre fun c hc => hc.1).bind fun state => ?_
  split
  · exact triple_fallsThrough
  · split_ifs
    · exact triple_fallsThrough
    · refine triple_setState.bind fun _ => ?_
      refine (triple_answerAfresh question _).bind fun result => ?_
      cases result with
      | none => exact triple_fallsThrough
      | some result =>
        refine triple_setState.bind fun _ => (triple_verifyAnswer result _).bind fun response => ?_
        exact Exc.Triple.pure _ fun _ hc => ⟨hc, fun h => nomatch h⟩

private theorem triple_answerActive (question : String) :
    Exc.Triple Ctx.Grows (fun c => Unverified w c.trace) (answerActive w question)
      (fun response c => Grounded w c.trace ∧ (response = none → Unverified w c.trace))
      fun c => Grounded w c.trace := by
  unfold answerActive
  refine triple_getState.bind fun state => ?_
  split
  · exact triple_fallsThrough
  · refine (triple_answerAfresh question _).bind fun result => ?_
    cases result with
    | none => exact triple_fallsThrough
    | some result =>
      refine (triple_verifyAnswer result _).bind fun response => ?_
      exact Exc.Triple.pure _ fun _ hc => ⟨hc, fun h => nomatch h⟩

private theorem triple_clarifyOrDecline (question : String) (consistency : ConsistencyReport) :
    Exc.Triple Ctx.Grows (fun c => Unverified w c.trace) (clarifyOrDecline question consistency)
      (fun _ c => Grounded w c.trace) fun c => Grounded w c.trace := by
  unfold clarifyOrDecline
  split_ifs
  · exact triple_setState.bind fun _ => Exc.Triple.pure _ fun c hc => hc.grounded
  · exact triple_setState.bind fun _ => Exc.Triple.pure _ fun c hc => hc.grounded

private theorem triple_handleLowConfidence (question : String) (consistency : ConsistencyReport) :
    Exc.Triple Ctx.Grows (fun c => Unverified w c.trace)
      (handleLowConfidence w question consistency) (fun _ c => Grounded w c.trace)
      fun c => Grounded w c.trace := by
  unfold handleLowConfidence
  refine (triple_answerMentioned question).bind fun mentioned => ?_
  cases mentioned with
  | some response => exact Exc.Triple.pure _ fun c hc => hc.1
  | none =>
    refine ((triple_answerActive question).pre fun c hc => hc.2 rfl).bind fun active => ?_
    cases active with
    | some response => exact Exc.Triple.pure _ fun c hc => hc.1
    | none =>
      exact (triple_clarifyOrDecline question consistency).pre fun c hc => hc.2 rfl

/-- The generation step raises before anything is verified. -/
private theorem triple_generateConfident (question : String) (context : RetrievalContext)
    (topDoc : Option String) :
    Exc.Triple Ctx.Grows (fun c => Unverified w c.trace ∧
        AllShown (fun chunkId text c => ReadIn w chunkId text c.trace) context.chunks c)
      (generateConfident w question context topDoc) (fun _ c => Unverified w c.trace)
      fun c => Grounded w c.trace := by
  cases topDoc with
  | some topDoc =>
    have hanswer : Exc.Triple Ctx.Grows (fun c => Unverified w c.trace ∧
        AllShown (fun chunkId text c => ReadIn w chunkId text c.trace) context.chunks c)
        (answerWithRetry w question topDoc (some context)) (fun _ c => Unverified w c.trace)
        fun c => Unverified w c.trace := by
      refine (triple_answerWithRetry question topDoc (some context)).pre fun c hc => ⟨hc.1, ?_⟩
      intro prefetched hprefetched
      obtain rfl := Option.mem_some_iff.mp hprefetched
      exact hc.2
    exact hanswer.handle fun e => Exc.Triple.raise _ fun c hc => hc.grounded
  | none =>
    have hread : Exc.Triple Ctx.Grows (fun c => Unverified w c.trace ∧
        AllShown (fun chunkId text c => ReadIn w chunkId text c.trace) context.chunks c)
        (do let _ ← readAllChunks w; return none : Ask (Option GenerationResult))
        (fun _ c => Unverified w c.trace)
        fun c => Unverified w c.trace := by
      refine (triple_readAllChunks.pre fun c hc => hc.1).bind fun chunks => ?_
      exact Exc.Triple.pure _ fun c hc => hc.1
    exact hread.handle fun e => Exc.Triple.raise _ fun c hc => hc.grounded

private theorem triple_generateAndVerify (question : String) (context : RetrievalContext) :
    Exc.Triple Ctx.Grows (fun c => Unverified w c.trace ∧
        AllShown (fun chunkId text c => ReadIn w chunkId text c.trace) context.chunks c)
      (generateAndVerify w question context) (fun _ c => Grounded w c.trace)
      fun c => Grounded w c.trace := by
  unfold generateAndVerify
  refine (triple_generateConfident question context _).bind fun result => ?_
  split
  · exact triple_verifyAnswer _ _
  · exact Exc.Triple.pure _ fun c hc => hc.grounded

private theorem triple_askFresh (question : String) :
    Exc.Triple Ctx.Grows (fun c => Unverified w c.trace) (askFresh w question)
      (fun _ c => Grounded w c.trace) fun c => Grounded w c.trace := by
  unfold askFresh
  refine Exc.Triple.bind ((triple_retrieveContext question).mono (fun _ hc => hc)
    (fun _ _ hc => hc) fun _ hc => hc.grounded) fun context => ?_
  dsimp only
  split_ifs
  · have hset : Exc.Triple Ctx.Grows (fun c => Unverified w c.trace ∧
        AllShown (fun chunkId text c => ReadIn w chunkId text c.trace) context.chunks c)
        (setState fun state => { state with
          activeContract := context.consistency.topContract, pendingQuestion := none })
        (fun _ c => Unverified w c.trace ∧
          AllShown (fun chunkId text c => ReadIn w chunkId text c.trace) context.chunks c)
        fun c => Grounded w c.trace :=
      fun c hc => ⟨List.prefix_refl c.trace, fun _ _ => hc, fun _ he => nomatch he⟩
    exact hset.bind fun _ => triple_generateAndVerify question context
  · exact (triple_handleLowConfidence question _).pre fun c hc => hc.1

/-- **A call is grounded**, whether it returns or raises: what it shows to the generator has been
read from the index before, and verification comes last, with the lookup of its moment. -/
theorem ask_grounded (question : String) (session : SessionState) :
    Grounded w (ask w question { session }).2.trace := by
  have htriple : Exc.Triple Ctx.Grows (fun c => Unverified w c.trace) (ask w question)
      (fun _ c => Grounded w c.trace) fun c => Grounded w c.trace := by
    unfold ask
    refine triple_getState.bind fun state => ?_
    split
    · split_ifs
      · exact triple_resolvePendingSelection question _
      · exact triple_askFresh question
    · exact triple_askFresh question
  have hstart : Unverified w ({ session } : Ctx).trace :=
    ⟨(fun _ _ hmem => nomatch hmem), fun _ _ hmem => nomatch hmem⟩
  obtain ⟨-, hreturns, hraises⟩ := htriple { session } hstart
  rcases hrun : (ask w question { session }).1 with e | response
  · exact hraises e hrun
  · exact hreturns response hrun

end

/-! ### A call among reloads -/

/-- What has happened up to a moment and before the next one. -/
def upTo {ℓ : Type} (labels : ℕ → List ℓ) (t : ℕ) : List ℓ := (List.range (t + 1)).flatMap labels

/-- A call in a worker: at each of its moments it sees what the worker serves, and before each
moment the worker, the other requests and the ingestions around it take any steps. -/
structure Interleaved {ι : Type} [DecidableEq ι] (w : World) (p : Published)
    (labels : ℕ → List (WatchLabel ι)) (states : ℕ → WatchState ι) : Prop where
  run : ∀ t, exec watchStep (.start p) (upTo labels t) = some (states t)
  corpus : ∀ t index, w.indexes t = .ok index → index.corpus = (states t).worker.corpus.records
  chunkLookup : ∀ t, w.chunkLookup t = (states t).worker.chunkLookup
  identities : ∀ t, w.identities t = (states t).worker.identities

/-- The calls that `Sessions.ask` makes. -/
def askTrace (w : World) (question : String) (session : SessionState) : List Event :=
  (ask w question { session }).2.trace

/-- Every chunk that is shown to the generator is in the lookup that the claims are checked against,
with the same text, so that no claim that cites it is rejected for that. -/
def ShownVerifiable (trace : List Event) : Prop :=
  ∀ question chunks claims chunkLookup, .generate question chunks ∈ trace →
    .verify claims chunkLookup ∈ trace → ∀ m ∈ chunks,
      chunkLookup.get? m.chunkId = some m.rawChunkText ∧
        ∀ claim ∈ claims, claim.sourceChunkId = some (m.chunkId : Str) →
          ∀ v, preLlmVerdict claim chunkLookup = some v →
            v.reason ≠ "Cited source_chunk_id not found in corpus."

/-- The worker builds its tables: at the end of `Sessions.__init__`, or in `Sessions.reload`. -/
def BuildsLookup {ι : Type} (s : WatchState ι) (l : WatchLabel ι) : Prop :=
  l = .worker false ∧
    (s.worker.stage = .constructing ∨ ∃ current, s.worker.stage = .reloading current)

/-- When the worker last built its tables, it served the chunk. -/
def ServedWhenBuilt {ι : Type} [DecidableEq ι] (p : Published) (labels : List (WatchLabel ι))
    (chunkId text : String) : Prop :=
  LastStep watchStep BuildsLookup (fun s => Offers s.worker.corpus.records chunkId text) (.start p)
    labels

/-! ### The lookup of a worker -/

/-- **A lookup that is built** from a corpus has its chunks. -/
theorem get?_buildChunkLookup_iff {corpus : Corpus} {chunkId text : String} :
    (buildChunkLookup corpus.records.values).get? chunkId = some text ↔
      Offers corpus.records chunkId text := by
  have hfound : chunkId ∈ corpus.records.values.map ChunkRecord.chunkId →
      ∃ chunk ∈ corpus.records.values, chunk.chunkId = chunkId ∧
        (buildChunkLookup corpus.records.values).get? chunkId = some chunk.rawChunkText :=
    Dict.get?_setAll_of_mem
  constructor
  · intro hget
    by_cases hmem : chunkId ∈ corpus.records.values.map ChunkRecord.chunkId
    · obtain ⟨chunk, hchunk, hid, hlookup⟩ := hfound hmem
      exact ⟨chunk, hchunk, hid, Option.some.inj (hlookup.symm.trans hget)⟩
    · rw [buildChunkLookup, Dict.get?_setAll_of_notMem hmem] at hget
      cases hget
  · rintro ⟨chunk, hchunk, hid, htext⟩
    obtain ⟨chunk', hchunk', hid', hget⟩ := hfound (hid ▸ List.mem_map_of_mem hchunk)
    -- chunks stand under their ids, so there is one chunk only with this id
    obtain ⟨k, hk⟩ := Dict.mem_values_iff.mp hchunk
    obtain ⟨k', hk'⟩ := Dict.mem_values_iff.mp hchunk'
    obtain rfl : k = k' := by
      rw [← corpus.keyed k chunk hk, ← corpus.keyed k' chunk' hk', hid, hid']
    obtain rfl := Option.some.inj (hk.symm.trans hk')
    rw [hget, htext]

section

variable {worker : Worker} {p : Published} {now : ℕ}

private theorem chunkLookup_getIndexes (raises : Bool) (reload : Option ℕ) :
    (worker.getIndexes p now raises reload).chunkLookup = worker.chunkLookup := by
  rw [Worker.getIndexes]
  split_ifs <;> rfl

private theorem chunkLookup_poll : (worker.poll p).chunkLookup = worker.chunkLookup := by
  rw [Worker.poll]
  split
  · rfl
  · split_ifs <;> rfl

private theorem chunkLookup_swap {current : ℕ} {newFaiss : Copy (Option (List FaissEntry))}
    {newBm25 : Copy Corpus} :
    (worker.swap current newFaiss newBm25).chunkLookup = worker.chunkLookup := by
  rw [Worker.swap]
  split_ifs <;> rfl

/-- **The lookup is built in one place**, from the corpus that is served then. -/
theorem Worker.step_chunkLookup (raises : Bool) :
    (raises = false → (worker.stage = .constructing ∨
        ∃ current, worker.stage = .reloading current) →
      (worker.step p now raises).chunkLookup =
        buildChunkLookup worker.corpus.records.values) ∧
    (¬(raises = false ∧ (worker.stage = .constructing ∨
        ∃ current, worker.stage = .reloading current)) →
      (worker.step p now raises).chunkLookup = worker.chunkLookup) := by
  rw [Worker.step]
  cases hstage : worker.stage with
  | constructing =>
    refine ⟨fun hreturns _ => ?_, fun hnot => ?_⟩
    · rw [hreturns]
      rfl
    · have hraises : raises = true := by
        by_contra h
        exact hnot ⟨Bool.eq_false_of_not_eq_true h, Or.inl rfl⟩
      rw [hraises]
      rfl
  | reloading current =>
    refine ⟨fun hreturns _ => ?_, fun hnot => ?_⟩
    · rw [hreturns]
      rfl
    · have hraises : raises = true := by
        by_contra h
        exact hnot ⟨Bool.eq_false_of_not_eq_true h, Or.inr ⟨current, rfl⟩⟩
      rw [hraises]
      rfl
  | gettingIndexes reload =>
    exact ⟨fun _ hbuilds => absurd hbuilds (by simp), fun _ => chunkLookup_getIndexes raises reload⟩
  | polling =>
    refine ⟨fun _ hbuilds => absurd hbuilds (by simp), fun _ => ?_⟩
    dsimp only
    split_ifs
    · rfl
    · exact chunkLookup_poll
  | readingFaiss | readingBm25 | dead =>
    exact ⟨fun _ hbuilds => absurd hbuilds (by simp), fun _ => rfl⟩
  | swapping current newFaiss newBm25 =>
    refine ⟨fun _ hbuilds => absurd hbuilds (by simp), fun _ => ?_⟩
    dsimp only
    split_ifs
    · rfl
    · exact chunkLookup_swap

end

section

variable {ι : Type} [DecidableEq ι] {w : World} {p : Published} {labels : ℕ → List (WatchLabel ι)}
  {states : ℕ → WatchState ι} {s s' : WatchState ι} {l : WatchLabel ι} {chunkId text : String}

private theorem get?_of_builds (hbuilds : BuildsLookup s l) (hstep : watchStep s l = some s') :
    s'.worker.chunkLookup.get? chunkId = some text ↔
      Offers s.worker.corpus.records chunkId text := by
  obtain ⟨rfl, hstage⟩ := hbuilds
  obtain rfl := Option.some.inj hstep
  dsimp only
  rw [(Worker.step_chunkLookup false).1 rfl hstage]
  exact get?_buildChunkLookup_iff

private theorem chunkLookup_of_not_builds (hnot : ¬BuildsLookup s l)
    (hstep : watchStep s l = some s') : s'.worker.chunkLookup = s.worker.chunkLookup := by
  rcases watchStep_worker hstep with hsame | ⟨raises, rfl, hworker⟩ | ⟨bm25Index, hworker⟩
  · rw [hsame]
  · rw [hworker]
    refine (Worker.step_chunkLookup raises).2 fun hbuilds => hnot ?_
    exact ⟨by rw [hbuilds.1], hbuilds.2⟩
  · rw [hworker]
    rfl

/-- **What can be looked up** is what was served when the tables were last built. -/
theorem get?_chunkLookup_iff {run : List (WatchLabel ι)}
    (hrun : exec watchStep (.start p) run = some s) :
    s.worker.chunkLookup.get? chunkId = some text ↔ ServedWhenBuilt p run chunkId text := by
  refine iff_lastStep (I := fun s => s.worker.chunkLookup.get? chunkId = some text) ?_ ?_ ?_ hrun
  · exact fun hget => nomatch hget
  · exact fun s l s' hbuilds hstep => get?_of_builds hbuilds hstep
  · intro s l s' hnot hstep
    rw [chunkLookup_of_not_builds hnot hstep]

/-- A claim that cites a chunk of the lookup is not rejected for its citation. -/
private theorem reason_ne_of_get? {claim : Claim} {chunkLookup : Dict String String}
    (hcited : claim.sourceChunkId = some (chunkId : Str))
    (hget : chunkLookup.get? chunkId = some text) {v : VerifiedClaim}
    (h : preLlmVerdict claim chunkLookup = some v) :
    v.reason ≠ "Cited source_chunk_id not found in corpus." := by
  rw [preLlmVerdict, hcited] at h
  split_ifs at h with htext
  · obtain rfl := Option.some.inj h
    have hne : "Claim has no text content." ≠ "Cited source_chunk_id not found in corpus." := by
      decide
    exact fun heq => hne (Str.ofString_injective heq)
  · dsimp only at h
    rw [Dict.lookup_ofString, hget] at h
    cases h

/-- **What was shown can be verified** if and only if each of these chunks was served when the
worker last built its lookup before the verification: none of them came in by a swap that the lookup
has not followed yet, and none was dropped or changed by one that it has. -/
theorem shown_verifiable_iff (h : Interleaved w p labels states) (question : String)
    (session : SessionState) :
    ShownVerifiable (askTrace w question session) ↔
      ∀ asked chunks j claims chunkLookup, .generate asked chunks ∈ askTrace w question session →
        (askTrace w question session)[j]? = some (.verify claims chunkLookup) →
        ∀ m ∈ chunks, ServedWhenBuilt p (upTo labels j) m.chunkId m.rawChunkText := by
  have hgrounded : Grounded w (askTrace w question session) := ask_grounded question session
  -- the verification comes last, and its lookup is that of its moment
  have hlookup : ∀ {j claims chunkLookup id text},
      (askTrace w question session)[j]? = some (.verify claims chunkLookup) →
      (chunkLookup.get? id = some text ↔ ServedWhenBuilt p (upTo labels j) id text) := by
    intro j claims chunkLookup id text hj
    obtain ⟨-, rfl⟩ := hgrounded.last j claims chunkLookup hj
    rw [h.chunkLookup]
    exact get?_chunkLookup_iff (h.run j)
  constructor
  · intro hverifiable asked chunks j claims chunkLookup hshown hj m hm
    have hverify := List.mem_of_getElem? hj
    exact (hlookup hj).mp (hverifiable asked chunks claims chunkLookup hshown hverify m hm).1
  · intro hserved asked chunks claims chunkLookup hshown hverify m hm
    obtain ⟨j, hj⟩ := List.mem_iff_getElem?.mp hverify
    have hget : chunkLookup.get? m.chunkId = some m.rawChunkText :=
      (hlookup hj).mpr (hserved asked chunks j claims chunkLookup hshown hj m hm)
    exact ⟨hget, fun claim _ hcited v hv => reason_ne_of_get? hcited hget hv⟩

end

/-! ### What a reload must not do meanwhile -/

/-- The worker serves the chunk, and can look it up. -/
structure Worker.Serves (chunkId text : String) (w : Worker) : Prop where
  corpus : Offers w.corpus.records chunkId text
  chunkLookup : w.chunkLookup.get? chunkId = some text

/-- What a swap puts in place has the chunk. -/
def Worker.KeepsOnSwap (chunkId text : String) (w : Worker) : Prop :=
  ∀ current newFaiss newBm25, w.stage = .swapping current newFaiss newBm25 →
    Offers (w.swap current newFaiss newBm25).corpus.records chunkId text

section

variable {worker : Worker} {p : Published} {now : ℕ} {chunkId text : String}

private theorem serves_rebuilt (h : worker.Serves chunkId text) :
    (worker.rebuilt p).Serves chunkId text :=
  ⟨h.corpus, get?_buildChunkLookup_iff.mpr h.corpus⟩

/-- Where a chunk is served, the corpus has been loaded. -/
private theorem serves_getIndexes (h : worker.Serves chunkId text) (raises : Bool)
    (reload : Option ℕ) : (worker.getIndexes p now raises reload).Serves chunkId text := by
  rw [Worker.getIndexes]
  split_ifs with hraises hembedder hfaiss hbm25
  · exact ⟨h.corpus, h.chunkLookup⟩
  · exact ⟨h.corpus, h.chunkLookup⟩
  · exact ⟨h.corpus, h.chunkLookup⟩
  · obtain ⟨chunk, hchunk, -⟩ := h.corpus
    rw [Worker.corpus, Option.isNone_iff_eq_none.mp hbm25] at hchunk
    cases hchunk
  · exact ⟨h.corpus, h.chunkLookup⟩

/-- **One step of a worker** goes on to serve the chunk, unless it swaps in an index without it. -/
theorem Worker.Serves.step (h : worker.Serves chunkId text) (raises : Bool)
    (hswap : raises = false → worker.KeepsOnSwap chunkId text) :
    (worker.step p now raises).Serves chunkId text := by
  rw [Worker.step]
  cases hstage : worker.stage with
  | gettingIndexes reload => exact serves_getIndexes h raises reload
  | constructing =>
    dsimp only
    split_ifs with hraises
    · exact ⟨h.corpus, h.chunkLookup⟩
    · exact ⟨h.corpus, (serves_rebuilt (p := p) h).chunkLookup⟩
  | polling =>
    dsimp only
    split_ifs with hraises
    · exact h
    · rw [Worker.poll]
      split
      · exact ⟨h.corpus, h.chunkLookup⟩
      · split_ifs
        · exact ⟨h.corpus, h.chunkLookup⟩
        · exact ⟨h.corpus, h.chunkLookup⟩
        · exact h
  | readingFaiss | readingBm25 => exact ⟨h.corpus, h.chunkLookup⟩
  | swapping current newFaiss newBm25 =>
    dsimp only
    split_ifs with hraises
    · exact ⟨h.corpus, h.chunkLookup⟩
    · have hcorpus := hswap (Bool.eq_false_of_not_eq_true hraises) current newFaiss newBm25 hstage
      exact ⟨hcorpus, chunkLookup_swap.symm ▸ h.chunkLookup⟩
  | reloading current =>
    dsimp only
    split_ifs with hraises
    · exact ⟨h.corpus, h.chunkLookup⟩
    · exact ⟨h.corpus, (serves_rebuilt (p := p) h).chunkLookup⟩
  | dead => exact h

/-- **A run in which no swap drops or changes a chunk** that the worker serves and can look up
leaves it in the lookup, whatever else is ingested and reloaded. -/
theorem looksUp_of_keeps {ι : Type} [DecidableEq ι] {s s' : WatchState ι}
    (hrun : ReachWhere watchStep (fun s₁ l => l = .worker false →
      s₁.worker.KeepsOnSwap chunkId text) s s')
    (hserves : s.worker.Serves chunkId text) :
    s'.worker.chunkLookup.get? chunkId = some text := by
  have hserves' : s'.worker.Serves chunkId text := by
    refine hrun.invariant (P := fun s₁ => s₁.worker.Serves chunkId text) hserves
      fun s₁ l s₂ h hswap hstep => ?_
    rcases watchStep_worker hstep with hsame | ⟨raises, rfl, hworker⟩ | ⟨bm25Index, hworker⟩
    · rw [hsame]
      exact h
    · rw [hworker]
      refine h.step raises fun hraises => hswap ?_
      rw [hraises]
    · rw [hworker]
      exact ⟨h.corpus, h.chunkLookup⟩
  exact hserves'.chunkLookup

end

/-! ### A call between the two swaps -/

/-- A chunk of another document. -/
def otherChunk : ChunkRecord := { watchedChunk "B::1" "two" with documentId := "B" }

/-- A worker is imported with a chunk and polls once; another chunk is ingested, and the next poll
starts a reload, of which the index has been swapped in. -/
def upToTheSwap : List (WatchLabel ℕ) :=
  ingestChunk (watchedChunk "A::1" "one") ++ List.replicate 6 (.worker false) ++
    [.saveFaiss 0 [watchedEntry (watchedChunk "A::1" "one"), watchedEntry otherChunk],
     .saveBm25 0 (.ofChunks [watchedChunk "A::1" "one", otherChunk]), .writePostgres 0 .empty,
     .bumpIndexVersion 0] ++ List.replicate 4 (.worker false)

/-- Where a run leads. -/
def stateAfter (labels : List (WatchLabel ℕ)) : WatchState ℕ :=
  (exec watchStep (.start {}) labels).getD (.start {})

/-- A world that serves what a worker serves; the search returns every chunk, the generator cites
one of them, and the judge supports everything. -/
def servingWorld (s : WatchState ℕ) (cited : String) : World where
  rt := Runtime.example
  indexes _ := .ok {
    similaritySearch := fun _ => .ok s.worker.corpus.records.keys
    bm25Ids := s.worker.corpus.records.keys
    bm25Scores := fun _ => .ok (s.worker.corpus.records.keys.map fun _ => 0)
    corpus := s.worker.corpus.records }
  rerank _ pairs := .ok (pairs.map fun _ => 1)
  generator _ _ _ := .ok (.content (some
    s!"\x7b\"claims\": [\x7b\"text\": \"One.\", \"source_chunk_id\": \"{cited}\"\x7d]\x7d"))
  judge _ _ _ _ := .ok (.content (some "\x7b\"verdict\": \"SUPPORTED\", \"reason\": \"r\"\x7d"))
  chunkLookup _ := s.worker.chunkLookup
  identities _ := s.worker.identities

/-- The run up to the swap, before the first moment of a call. -/
def swappedBefore : ℕ → List (WatchLabel ℕ)
  | 0 => upToTheSwap
  | _ + 1 => []

theorem upTo_swappedBefore (t : ℕ) : upTo swappedBefore t = upToTheSwap := by
  have hrest : ∀ n, (List.range n).flatMap (fun k => swappedBefore (k + 1)) = [] :=
    fun n => List.flatMap_eq_nil_iff.mpr fun _ _ => rfl
  rw [upTo, List.range_succ_eq_map, List.flatMap_cons, List.flatMap_map, hrest, List.append_nil]
  rfl

/-- A call during which the worker stands still, between the two swaps. -/
private theorem interleaved_servingWorld (cited : String) :
    Interleaved (servingWorld (stateAfter upToTheSwap) cited) {} swappedBefore
      fun _ => stateAfter upToTheSwap := by
  have hrun : (exec watchStep (.start {}) upToTheSwap).isSome = true := by decide +kernel
  obtain ⟨s, hs⟩ := Option.isSome_iff_exists.mp hrun
  have hstate : stateAfter upToTheSwap = s := by rw [stateAfter, hs, Option.getD_some]
  refine ⟨fun t => ?_, fun _ index hindex => ?_, fun _ => rfl, fun _ => rfl⟩
  · rw [upTo_swappedBefore, hstate]
    exact hs
  · obtain rfl := Except.ok.inj hindex
    rfl

/-- A question for which one of the two documents has to be chosen. -/
def betweenTwo : SessionState where
  pendingQuestion := some "Which law governs?"
  pendingCandidates := ["A", "B"]

/-- The call between the two swaps in which a document is chosen, whose chunk is cited. -/
def traceBetween (chosen cited : String) : List Event :=
  askTrace (servingWorld (stateAfter upToTheSwap) cited) chosen betweenTwo

/-- The generator is shown the chunk. -/
def Event.shows (chunkId : String) : Event → Bool
  | .generate _ chunks => chunks.any fun m => decide (m.chunkId = chunkId)
  | _ => false

/-- The generator is shown nothing else. -/
def Event.showsOnly (chunkId text : String) : Event → Bool
  | .generate _ chunks =>
    chunks.all fun m => decide (m.chunkId = chunkId ∧ m.rawChunkText = text)
  | _ => true

/-- The claims are checked against a lookup without the chunk. -/
def Event.verifiesWithout (chunkId : String) : Event → Bool
  | .verify _ chunkLookup => (chunkLookup.get? chunkId).isNone
  | _ => false

/-- `shown_verifiable_iff` for a call between the two swaps that is shown the old chunk only. -/
theorem shown_verifiable_between :
    (traceBetween "A" "A::1").any (Event.shows "A::1") = true ∧
      (stateAfter upToTheSwap).worker.chunkLookup.get? "B::1" = none ∧
      ShownVerifiable (traceBetween "A" "A::1") := by
  refine ⟨by decide +kernel, by decide +kernel, ?_⟩
  have honly : (traceBetween "A" "A::1").all (Event.showsOnly "A::1" "one") = true := by
    decide +kernel
  have hrun : exec watchStep (.start {}) upToTheSwap = some (stateAfter upToTheSwap) := by
    rw [← upTo_swappedBefore 0]
    exact (interleaved_servingWorld "A::1").run 0
  have hserved : ServedWhenBuilt {} upToTheSwap "A::1" "one" :=
    (get?_chunkLookup_iff hrun).mp (by decide +kernel)
  refine (shown_verifiable_iff (interleaved_servingWorld "A::1") "A" betweenTwo).mpr ?_
  intro asked chunks j claims chunkLookup hshown _ m hm
  have hchunks := List.all_eq_true.mp honly _ hshown
  obtain ⟨hid, htext⟩ := of_decide_eq_true (List.all_eq_true.mp hchunks m hm)
  rw [upTo_swappedBefore, hid, htext]
  exact hserved

/-- **Shown before it can be looked up**: between the swap of the index and that of the lookup, a
call is shown the new chunk, and its claims are checked against a lookup without it. -/
theorem shown_before_the_lookup :
    ¬∀ (w : World) (p : Published) (labels : ℕ → List (WatchLabel ℕ)) (states : ℕ → WatchState ℕ)
      (question : String) (session : SessionState),
      Interleaved w p labels states → ShownVerifiable (askTrace w question session) := by
  intro h
  have hverifiable : ShownVerifiable (traceBetween "B" "B::1") :=
    h _ _ _ _ "B" betweenTwo (interleaved_servingWorld "B::1")
  have hshows : (traceBetween "B" "B::1").any (Event.shows "B::1") = true := by decide +kernel
  have hwithout : (traceBetween "B" "B::1").any (Event.verifiesWithout "B::1") = true := by
    decide +kernel
  obtain ⟨shown, hmem, hshown⟩ := List.any_eq_true.mp hshows
  obtain ⟨verified, hmem', hverified⟩ := List.any_eq_true.mp hwithout
  cases shown with
  | generate question chunks =>
    cases verified with
    | verify claims chunkLookup =>
      obtain ⟨m, hm, hid⟩ := List.any_eq_true.mp hshown
      obtain ⟨hget, -⟩ := hverifiable question chunks claims chunkLookup hmem hmem' m hm
      rw [of_decide_eq_true hid] at hget
      rw [Event.verifiesWithout, hget] at hverified
      cases hverified
    | retrieve | readChunks | generate | answer => cases hverified
  | retrieve | readChunks | answer | verify => cases hshown

end AuditFlow
