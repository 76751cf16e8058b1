import AuditFlow.Orchestration.Pipeline
import AuditFlow.Orchestration.SecondPass

/-!
# How a call to `ask` returns

One inversion for the whole of `Sessions.ask`, from which its properties are read off. An answer
is reached on one of four routes (`Route`): the selection of an offered contract, a confident
retrieval, a contract that the question names, the active contract. A route fixes what is asked,
of which document, and the state in which `answer_with_retry` is called. `AskExit` lists the five
ways to return, and `ask_exit` says that **these are all**.

Between the calls only the session changes, and `Emits` bounds what the calls add to the trace.
-/

namespace AuditFlow

open Foundation

/-! ### The trace -/

/-- The session is untouched and the trace grows by events satisfying `P`. -/
def Emits (P : Event → Prop) (c c' : Ctx) : Prop :=
  c'.session = c.session ∧ ∃ events, c'.trace = c.trace ++ events ∧ ∀ e ∈ events, P e

instance (P : Event → Prop) : IsPreorder Ctx (Emits P) where
  refl c := ⟨rfl, [], by simp, by simp⟩
  trans := by
    rintro c₁ c₂ c₃ ⟨hs, events, ht, hP⟩ ⟨hs', events', ht', hP'⟩
    refine ⟨hs'.trans hs, events ++ events', by rw [ht', ht, List.append_assoc], fun e he => ?_⟩
    rcases List.mem_append.mp he with he | he
    · exact hP e he
    · exact hP' e he

theorem call_moves {α : Type} {P : Event → Prop} {event : Event} {outcome : ℕ → Except PyError α}
    (h : P event) : Exc.Moves (Emits P) (call event outcome) := fun c =>
  ⟨rfl, [event], rfl, by simpa using h⟩

theorem call_eq_ok_iff {α : Type} {event : Event} {outcome : ℕ → Except PyError α} {c c' : Ctx}
    {a : α} : call event outcome c = (.ok a, c') ↔
      outcome c.trace.length = .ok a ∧ c' = { c with trace := c.trace ++ [event] } := by
  simp only [call, Prod.mk.injEq, eq_comm (a := c')]

/-- A call into retrieval. -/
def Event.IsRetrieval : Event → Prop
  | .retrieve _ | .readChunks => True
  | _ => False

/-- A call that leads to no answer: into retrieval, or an `answer_with_retry` without result. -/
def Event.IsQuiet : Event → Prop
  | .retrieve _ | .readChunks | .answer _ none => True
  | _ => False

/-- A call made on the way to an answer of `question` from the document: the generator is given
that question and chunks of that document only. -/
def Event.Within (question documentId : String) : Event → Prop
  | .retrieve _ | .readChunks => True
  | .generate question' chunks => question' = question ∧ ∀ c ∈ chunks, c.documentId = documentId
  | .answer _ _ | .verify _ _ => False

theorem Event.IsRetrieval.isQuiet {e : Event} (h : e.IsRetrieval) : e.IsQuiet := by
  cases e <;> first | exact trivial | exact h.elim

section

variable {w : World} {question documentId : String} {prefetched : Option RetrievalContext}
  {c c' : Ctx}

theorem readAllChunks_moves {P : Event → Prop} (h : P .readChunks) :
    Exc.Moves (Emits P) (readAllChunks w) := call_moves h

theorem retrieveContext_moves {P : Event → Prop} (h : ∀ q, P (.retrieve q)) (q : String) :
    Exc.Moves (Emits P) (retrieveContext w q) := call_moves (h q)

/-- `answer_with_retry` is the retry layer followed by the record of its result. -/
private theorem answerWithRetry_split {result : Option GenerationResult}
    (h : answerWithRetry w question documentId prefetched c = (.ok result, c')) :
    ∃ c₁, generateWithBoundedRetry w.rt (readAllChunks w) (callGenerator w) (retrieveContext w)
        question documentId prefetched c = (.ok result, c₁) ∧
      c' = { c₁ with trace := c₁.trace ++ [.answer documentId result] } := by
  unfold answerWithRetry at h
  obtain ⟨r, c₁, hgen, h⟩ := Exc.bind_eq_ok_iff.mp h
  obtain ⟨_, c₂, hcall, h⟩ := Exc.bind_eq_ok_iff.mp h
  obtain ⟨-, rfl⟩ := call_eq_ok_iff.mp hcall
  obtain ⟨hr, rfl⟩ := Prod.mk.inj h
  obtain rfl : r = result := Except.ok.inj hr
  exact ⟨c₁, hgen, rfl⟩

/-- `answer_with_retry` leaves the session alone; what it emits lies within its document and ends
with its own result. -/
theorem answerWithRetry_eq_ok {result : Option GenerationResult}
    (h : answerWithRetry w question documentId prefetched c = (.ok result, c')) :
    c'.session = c.session ∧ ∃ events,
      c'.trace = c.trace ++ events ++ [.answer documentId result] ∧
        ∀ e ∈ events, e.Within question documentId := by
  obtain ⟨c₁, hgen, rfl⟩ := answerWithRetry_split h
  have hmoves : Exc.Moves (Emits (Event.Within question documentId))
      (generateWithBoundedRetry w.rt (readAllChunks w) (callGenerator w) (retrieveContext w)
        question documentId prefetched) :=
    generateWithBoundedRetry_moves (readAllChunks_moves trivial)
      (retrieveContext_moves fun _ => trivial)
      fun chunks hchunks => call_moves ⟨rfl, hchunks⟩
  obtain ⟨hs, events, ht, hP⟩ := hgen ▸ hmoves c
  exact ⟨hs, events, by rw [ht], hP⟩

/-- Where `answer_with_retry` finds nothing, the generator was not called. -/
theorem answerWithRetry_eq_none
    (h : answerWithRetry w question documentId prefetched c = (.ok none, c')) :
    c'.session = c.session ∧ ∃ events,
      c'.trace = c.trace ++ events ++ [.answer documentId none] ∧
        ∀ e ∈ events, e.IsRetrieval := by
  obtain ⟨c₁, hgen, rfl⟩ := answerWithRetry_split h
  have hmoves : Exc.Moves (Emits Event.IsRetrieval)
      (getScopedContext w.rt (readAllChunks w) (retrieveContext w) question documentId 5 (-4) true
        prefetched) :=
    getScopedContext_moves (readAllChunks_moves trivial) (retrieveContext_moves fun _ => trivial)
  obtain ⟨hs, events, ht, hP⟩ := generateWithBoundedRetry_eq_none hgen ▸ hmoves c
  exact ⟨hs, events, by rw [ht], hP⟩

/-- Verification uses the lookup of the moment, and only its own event is added. -/
theorem verifyAnswer_eq_ok {result : GenerationResult} {response : AskResponse}
    (h : verifyAnswer w result documentId c = (.ok response, c')) :
    ∃ claims, response = .answered claims documentId ∧
      verifyAllClaims w.rt (w.judge c.trace.length) result.claims
        (w.chunkLookup c.trace.length) = .ok claims ∧
      c' = { c with
        trace := c.trace ++ [.verify result.claims (w.chunkLookup c.trace.length)] } := by
  unfold verifyAnswer at h
  obtain ⟨lookup, c₁, hlook, h⟩ := Exc.bind_eq_ok_iff.mp h
  obtain ⟨hlookup, rfl⟩ := Prod.mk.inj hlook
  obtain rfl : w.chunkLookup c.trace.length = lookup := Except.ok.inj hlookup
  obtain ⟨claims, c₂, hverify, h⟩ := Exc.bind_eq_ok_iff.mp h
  obtain ⟨hresponse, rfl⟩ := Prod.mk.inj h
  rcases Exc.handle_eq_ok_iff.mp hverify with hcall | ⟨e, c₃, -, hraise⟩
  · obtain ⟨hok, rfl⟩ := call_eq_ok_iff.mp hcall
    exact ⟨claims, (Except.ok.inj hresponse).symm, hok, rfl⟩
  · cases (Prod.mk.inj hraise).1

end

/-! ### Routes and exits -/

/-- The document id that a selection message names. -/
def chosenDocumentId (question : String) : String := String.ofList (Text.strip question.toList)

/-- The message is handled as the choice of an offered contract, for the question `pending`. -/
def Selects (w : World) (question : String) (c : Ctx) (pending : String) : Prop :=
  truthy c.session.pendingQuestion = some pending ∧
    looksLikeContractSelection w.rt question = true

/-- The message is handled as a question of its own, whose retrieval gave `context` and led to
`c₁`. -/
def Retrieves (w : World) (question : String) (c : Ctx) (context : RetrievalContext)
    (c₁ : Ctx) : Prop :=
  (∀ pending, ¬Selects w question c pending) ∧ retrieveContext w question c = (.ok context, c₁)

/-- The four routes to an answer: which question is put, about which document, with which
prefetched context, and the state in which `answer_with_retry` is called. -/
inductive Route (w : World) (question : String) (c : Ctx) :
    (asked documentId : String) → Option RetrievalContext → Ctx → Prop
  | selection {pending : String} (hselects : Selects w question c pending)
      (hoffered : chosenDocumentId question ∈ c.session.pendingCandidates) :
      Route w question c pending (chosenDocumentId question) none
        (c.withSession fun s => { s with pendingQuestion := none, pendingCandidates := [] })
  | confident {context : RetrievalContext} {c₁ : Ctx} {d : String}
      (hretrieves : Retrieves w question c context c₁)
      (hconfident : context.consistency.isConfident = true)
      (htop : context.consistency.topContract = some d) :
      Route w question c question d (some context)
        (c₁.withSession fun s => { s with activeContract := some d, pendingQuestion := none })
  | mentioned {context : RetrievalContext} {c₁ : Ctx} {d : String}
      (hretrieves : Retrieves w question c context c₁)
      (hlow : context.consistency.isConfident = false)
      (hmentions : truthy (mentionsDifferentContract w.rt question (w.identities c₁.trace.length)
        c₁.session.activeContract) = some d)
      (hother : some d ≠ c₁.session.activeContract) :
      Route w question c question d none
        (c₁.withSession fun s => { s with activeContract := none })
  | active {context : RetrievalContext} {c₁ c₂ : Ctx} {d : String}
      (hretrieves : Retrieves w question c context c₁)
      (hlow : context.consistency.isConfident = false)
      (hskip : answerMentioned w question c₁ = (.ok none, c₂))
      (hactive : truthy c₂.session.activeContract = some d) :
      Route w question c question d none c₂

/-- A retrieval that is not confident, and no answer from a named or from the active contract. -/
structure FallsThrough (w : World) (question : String) (c : Ctx) (context : RetrievalContext)
    (c₃ : Ctx) : Prop where
  retrieves : ∃ c₁ c₂, Retrieves w question c context c₁ ∧
    answerMentioned w question c₁ = (.ok none, c₂) ∧ answerActive w question c₂ = (.ok none, c₃)
  low : context.consistency.isConfident = false

/-- The five ways in which a call returns. -/
inductive AskExit (w : World) (question : String) (c : Ctx) : AskResponse → Ctx → Prop
  | rejected {pending : String} (hselects : Selects w question c pending)
      (hunknown : chosenDocumentId question ∉ c.session.pendingCandidates) :
      AskExit w question c (.needClarification c.session.pendingCandidates) c
  | answered {asked d : String} {prefetched : Option RetrievalContext} {c₀ c₁ c₂ : Ctx}
      {result : GenerationResult} {response : AskResponse}
      (hroute : Route w question c asked d prefetched c₀)
      (hanswer : answerWithRetry w asked d prefetched c₀ = (.ok (some result), c₁))
      (hverify : verifyAnswer w result d
        (c₁.withSession fun s => { s with activeContract := some d }) = (.ok response, c₂)) :
      AskExit w question c response c₂
  | unanswered {asked d : String} {prefetched : Option RetrievalContext} {c₀ c₁ : Ctx}
      (hroute : Route w question c asked d prefetched c₀)
      (hnone : answerWithRetry w asked d prefetched c₀ = (.ok none, c₁))
      (hclears : c₀.session.pendingQuestion = none) :
      AskExit w question c (.lowRelevance (some d)) c₁
  | clarifies {context : RetrievalContext} {c₃ : Ctx}
      (hfalls : FallsThrough w question c context c₃)
      (hspread : context.consistency.concentration < 3 / 5) :
      AskExit w question c (.needClarification context.consistency.contractBreakdown.keys)
        (c₃.withSession fun s => { s with
          pendingQuestion := some question
          pendingCandidates := context.consistency.contractBreakdown.keys })
  | declines {context : RetrievalContext} {c₃ : Ctx}
      (hfalls : FallsThrough w question c context c₃)
      (hfocused : ¬context.consistency.concentration < 3 / 5) :
      AskExit w question c (.lowRelevance context.consistency.topContract)
        (c₃.withSession fun s => { s with activeContract := context.consistency.topContract })

section

variable {w : World} {question : String} {c c' : Ctx} {response : AskResponse}

private theorem resolvePendingSelection_exit {pending : String}
    (hselects : Selects w question c pending)
    (h : resolvePendingSelection w question pending c = (.ok response, c')) :
    AskExit w question c response c' := by
  unfold resolvePendingSelection at h
  rw [getState_bind] at h
  split_ifs at h with hoffered
  · rw [setState_bind] at h
    obtain ⟨result, c₂, hanswer, h⟩ := Exc.bind_eq_ok_iff.mp h
    have hroute := Route.selection hselects hoffered
    cases result with
    | none =>
      obtain ⟨rfl, rfl⟩ := Exc.pure_eq_ok_iff.mp h
      exact .unanswered hroute hanswer rfl
    | some result =>
      change (setState _ >>= _) c₂ = _ at h
      rw [setState_bind] at h
      exact .answered hroute hanswer h
  · obtain ⟨rfl, rfl⟩ := Exc.pure_eq_ok_iff.mp h
    exact .rejected hselects hoffered

/-- Setting the active contract to what it is already changes nothing. -/
private theorem withSession_active_self {d : String} (h : c.session.activeContract = some d) :
    (c.withSession fun s => { s with activeContract := some d }) = c := by
  obtain ⟨⟨active, pending, candidates⟩, trace⟩ := c
  obtain rfl : active = some d := h
  rfl

private theorem generateAndVerify_exit {context : RetrievalContext} {c₁ : Ctx} {d : String}
    (hretrieves : Retrieves w question c context c₁)
    (hconfident : context.consistency.isConfident = true)
    (htop : context.consistency.topContract = some d)
    (h : generateAndVerify w question context
      (c₁.withSession fun s => { s with activeContract := some d, pendingQuestion := none }) =
        (.ok response, c')) : AskExit w question c response c' := by
  have hroute := Route.confident hretrieves hconfident htop
  unfold generateAndVerify at h
  rw [htop] at h
  obtain ⟨result, c₂, hgen, h⟩ := Exc.bind_eq_ok_iff.mp h
  -- the handler of the generation step only raises, so the step itself returned
  rcases Exc.handle_eq_ok_iff.mp hgen with hanswer | ⟨e, c₃, -, hraise⟩
  · cases result with
    | none =>
      obtain ⟨rfl, rfl⟩ := Exc.pure_eq_ok_iff.mp h
      exact .unanswered hroute hanswer rfl
    | some result =>
      have hactive : c₂.session.activeContract = some d := by
        rw [(answerWithRetry_eq_ok hanswer).1]
        rfl
      exact .answered hroute hanswer (by rwa [withSession_active_self hactive])
  · cases (Prod.mk.inj hraise).1

private theorem answerMentioned_exit {context : RetrievalContext} {c₁ : Ctx}
    (hretrieves : Retrieves w question c context c₁)
    (hlow : context.consistency.isConfident = false)
    (h : answerMentioned w question c₁ = (.ok (some response), c')) :
    AskExit w question c response c' := by
  unfold answerMentioned at h
  rw [look_bind, getState_bind] at h
  rcases hmentions : truthy (mentionsDifferentContract w.rt question
      (w.identities c₁.trace.length) c₁.session.activeContract) with - | d
  · rw [hmentions] at h
    cases (Prod.mk.inj h).1
  · simp only [hmentions] at h
    split_ifs at h with hother
    · cases (Prod.mk.inj h).1
    · rw [setState_bind] at h
      obtain ⟨result, c₂, hanswer, h⟩ := Exc.bind_eq_ok_iff.mp h
      cases result with
      | none => cases (Prod.mk.inj h).1
      | some result =>
        change (setState _ >>= _) c₂ = _ at h
        rw [setState_bind] at h
        obtain ⟨r, c₃, hverify, h⟩ := Exc.bind_eq_ok_iff.mp h
        obtain ⟨hresponse, rfl⟩ := Prod.mk.inj h
        obtain rfl : r = response := Option.some.inj (Except.ok.inj hresponse)
        exact .answered (.mentioned hretrieves hlow hmentions hother) hanswer hverify

private theorem answerActive_exit {context : RetrievalContext} {c₁ c₂ : Ctx}
    (hretrieves : Retrieves w question c context c₁)
    (hlow : context.consistency.isConfident = false)
    (hskip : answerMentioned w question c₁ = (.ok none, c₂))
    (h : answerActive w question c₂ = (.ok (some response), c')) :
    AskExit w question c response c' := by
  unfold answerActive at h
  rw [getState_bind] at h
  rcases hactive : truthy c₂.session.activeContract with - | d
  · rw [hactive] at h
    cases (Prod.mk.inj h).1
  · rw [hactive] at h
    obtain ⟨result, c₃, hanswer, h⟩ := Exc.bind_eq_ok_iff.mp h
    cases result with
    | none => cases (Prod.mk.inj h).1
    | some result =>
      obtain ⟨r, c₄, hverify, h⟩ := Exc.bind_eq_ok_iff.mp h
      obtain ⟨hresponse, rfl⟩ := Prod.mk.inj h
      obtain rfl : r = response := Option.some.inj (Except.ok.inj hresponse)
      -- `answer_with_retry` leaves the session alone, so the contract is still the active one
      have hself : c₃.session.activeContract = some d := by
        rw [(answerWithRetry_eq_ok hanswer).1]
        exact (truthy_eq_some_iff.mp hactive).1
      exact .answered (.active hretrieves hlow hskip hactive) hanswer
        (by rwa [withSession_active_self hself])

private theorem clarifyOrDecline_exit {context : RetrievalContext} {c₃ : Ctx}
    (hfalls : FallsThrough w question c context c₃)
    (h : clarifyOrDecline question context.consistency c₃ = (.ok response, c')) :
    AskExit w question c response c' := by
  unfold clarifyOrDecline at h
  split_ifs at h with hspread
  · rw [setState_bind] at h
    obtain ⟨rfl, rfl⟩ := Exc.pure_eq_ok_iff.mp h
    exact .clarifies hfalls hspread
  · rw [setState_bind] at h
    obtain ⟨rfl, rfl⟩ := Exc.pure_eq_ok_iff.mp h
    exact .declines hfalls hspread

/-- A retrieval that returned names a top contract. -/
private theorem retrieveContext_topContract {context : RetrievalContext} {c₁ : Ctx}
    (h : retrieveContext w question c = (.ok context, c₁)) :
    ∃ d, context.consistency.topContract = some d := by
  obtain ⟨hcontext, -⟩ := call_eq_ok_iff.mp h
  obtain ⟨reranked, hreport, -⟩ := getVerificationContext_eq_ok hcontext
  exact checkDocementConsistency_topContract hreport

private theorem askFresh_exit (hfresh : ∀ pending, ¬Selects w question c pending)
    (h : askFresh w question c = (.ok response, c')) : AskExit w question c response c' := by
  unfold askFresh at h
  obtain ⟨context, c₁, hretrieve, h⟩ := Exc.bind_eq_ok_iff.mp h
  have hretrieves : Retrieves w question c context c₁ := ⟨hfresh, hretrieve⟩
  obtain ⟨d, htop⟩ := retrieveContext_topContract hretrieve
  split_ifs at h with hconfident
  · rw [setState_bind] at h
    simp only [htop] at h
    exact generateAndVerify_exit hretrieves hconfident htop h
  · have hlow : context.consistency.isConfident = false := Bool.eq_false_of_not_eq_true hconfident
    unfold handleLowConfidence at h
    obtain ⟨mentioned, c₂, hmentioned, h⟩ := Exc.bind_eq_ok_iff.mp h
    cases mentioned with
    | some r =>
      obtain ⟨rfl, rfl⟩ := Exc.pure_eq_ok_iff.mp h
      exact answerMentioned_exit hretrieves hlow hmentioned
    | none =>
      obtain ⟨active, c₃, hactive, h⟩ := Exc.bind_eq_ok_iff.mp h
      cases active with
      | some r =>
        obtain ⟨rfl, rfl⟩ := Exc.pure_eq_ok_iff.mp h
        exact answerActive_exit hretrieves hlow hmentioned hactive
      | none =>
        exact clarifyOrDecline_exit ⟨⟨c₁, c₂, hretrieves, hmentioned, hactive⟩, hlow⟩ h

/-- **Every returning call leaves by one of the five exits.** -/
theorem ask_exit (h : ask w question c = (.ok response, c')) :
    AskExit w question c response c' := by
  unfold ask at h
  rw [getState_bind] at h
  rcases hpending : truthy c.session.pendingQuestion with - | pending
  · rw [hpending] at h
    refine askFresh_exit (fun pending hselects => ?_) h
    rw [hselects.1] at hpending
    cases hpending
  · simp only [hpending] at h
    split_ifs at h with hlooks
    · exact resolvePendingSelection_exit ⟨hpending, hlooks⟩ h
    · exact askFresh_exit (fun _ hselects => hlooks hselects.2) h

/-! ### What a route and a fall-through leave behind -/

/-- The session keeps its pending question and candidates, and keeps or loses its active
contract. -/
def KeepsPending (s s' : SessionState) : Prop :=
  s' = s ∨ s' = { s with activeContract := none }

theorem KeepsPending.pendingQuestion {s s' : SessionState} (h : KeepsPending s s') :
    s'.pendingQuestion = s.pendingQuestion := by
  rcases h with rfl | rfl <;> rfl

theorem KeepsPending.pendingCandidates {s s' : SessionState} (h : KeepsPending s s') :
    s'.pendingCandidates = s.pendingCandidates := by
  rcases h with rfl | rfl <;> rfl

/-- The contract that a message names besides the active one, in the state `c`. -/
def namedContract (w : World) (question : String) (c : Ctx) : Option String :=
  truthy (mentionsDifferentContract w.rt question (w.identities c.trace.length)
    c.session.activeContract)

/-- No answer from a named contract: none is named but the active one, or `answer_with_retry`
found nothing for it and the active contract was dropped as stale. -/
theorem answerMentioned_eq_none (h : answerMentioned w question c = (.ok none, c')) :
    (c' = c ∧ ∀ d, namedContract w question c = some d → some d = c.session.activeContract) ∨
      ∃ d, namedContract w question c = some d ∧ some d ≠ c.session.activeContract ∧
        answerWithRetry w question d none
          (c.withSession fun s => { s with activeContract := none }) = (.ok none, c') := by
  unfold answerMentioned at h
  rw [look_bind, getState_bind] at h
  rcases hnamed : truthy (mentionsDifferentContract w.rt question
      (w.identities c.trace.length) c.session.activeContract) with - | d
  · rw [hnamed] at h
    obtain ⟨-, rfl⟩ := Prod.mk.inj h
    exact Or.inl ⟨rfl, fun d hd => nomatch hnamed.symm.trans hd⟩
  · simp only [hnamed] at h
    split_ifs at h with hsame
    · obtain ⟨-, rfl⟩ := Prod.mk.inj h
      refine Or.inl ⟨rfl, fun d' hd' => ?_⟩
      obtain rfl : d = d' := Option.some.inj (hnamed.symm.trans hd')
      exact hsame
    · rw [setState_bind] at h
      obtain ⟨result, c₂, hanswer, h⟩ := Exc.bind_eq_ok_iff.mp h
      cases result with
      | none =>
        obtain ⟨-, rfl⟩ := Prod.mk.inj h
        exact Or.inr ⟨d, hnamed, hsame, hanswer⟩
      | some result =>
        obtain ⟨_, c₃, -, h⟩ := Exc.bind_eq_ok_iff.mp h
        obtain ⟨r, c₃, -, h⟩ := Exc.bind_eq_ok_iff.mp h
        cases (Prod.mk.inj h).1

/-- What passing a named contract by leaves behind: quiet calls. -/
theorem answerMentioned_quiet (h : answerMentioned w question c = (.ok none, c')) :
    KeepsPending c.session c'.session ∧
      ∃ events, c'.trace = c.trace ++ events ∧ ∀ e ∈ events, e.IsQuiet := by
  rcases answerMentioned_eq_none h with ⟨rfl, -⟩ | ⟨d, -, -, hanswer⟩
  · exact ⟨Or.inl rfl, [], by simp, by simp⟩
  · obtain ⟨hs, events, ht, hquiet⟩ := answerWithRetry_eq_none hanswer
    refine ⟨Or.inr hs, events ++ [.answer d none], by rw [ht, List.append_assoc]; rfl, ?_⟩
    intro e he
    rcases List.mem_append.mp he with he | he
    · exact (hquiet e he).isQuiet
    · rw [List.mem_singleton.mp he]
      exact trivial

/-- No answer from the active contract: there is none, or `answer_with_retry` found nothing. -/
theorem answerActive_eq_none (h : answerActive w question c = (.ok none, c')) :
    (c' = c ∧ truthy c.session.activeContract = none) ∨
      ∃ d, truthy c.session.activeContract = some d ∧
        answerWithRetry w question d none c = (.ok none, c') := by
  unfold answerActive at h
  rw [getState_bind] at h
  rcases hactive : truthy c.session.activeContract with - | d
  · rw [hactive] at h
    obtain ⟨-, rfl⟩ := Prod.mk.inj h
    exact Or.inl ⟨rfl, rfl⟩
  · rw [hactive] at h
    obtain ⟨result, c₂, hanswer, h⟩ := Exc.bind_eq_ok_iff.mp h
    cases result with
    | none =>
      obtain ⟨-, rfl⟩ := Prod.mk.inj h
      exact Or.inr ⟨d, rfl, hanswer⟩
    | some result =>
      obtain ⟨r, c₃, -, h⟩ := Exc.bind_eq_ok_iff.mp h
      cases (Prod.mk.inj h).1

theorem answerActive_session (h : answerActive w question c = (.ok none, c')) :
    c'.session = c.session := by
  rcases answerActive_eq_none h with ⟨rfl, -⟩ | ⟨d, -, hanswer⟩
  · rfl
  · exact (answerWithRetry_eq_none hanswer).1

/-- Retrieval leaves the session alone and adds its own event. -/
theorem Retrieves.eq {context : RetrievalContext} {c₁ : Ctx}
    (h : Retrieves w question c context c₁) :
    c₁ = { c with trace := c.trace ++ [.retrieve question] } := (call_eq_ok_iff.mp h.2).2

/-- A message has one retrieval of its own. -/
theorem Retrieves.unique {context context' : RetrievalContext} {c₁ c₁' : Ctx}
    (h : Retrieves w question c context c₁) (h' : Retrieves w question c context' c₁') :
    context = context' ∧ c₁ = c₁' := by
  obtain ⟨hcontext, hc⟩ := Prod.mk.inj (h.2.symm.trans h'.2)
  exact ⟨Except.ok.inj hcontext, hc⟩

/-- Before the answering call of a route there are quiet calls only. -/
theorem Route.trace {asked d : String} {prefetched : Option RetrievalContext} {c₀ : Ctx}
    (h : Route w question c asked d prefetched c₀) :
    ∃ events, c₀.trace = c.trace ++ events ∧ ∀ e ∈ events, e.IsQuiet := by
  cases h with
  | selection => exact ⟨[], (List.append_nil _).symm, by simp⟩
  | confident hretrieves | mentioned hretrieves =>
    obtain rfl := hretrieves.eq
    exact ⟨[.retrieve question], rfl, by simp [Event.IsQuiet]⟩
  | active hretrieves _ hskip =>
    obtain rfl := hretrieves.eq
    obtain ⟨-, events, ht, hquiet⟩ := answerMentioned_quiet hskip
    refine ⟨.retrieve question :: events, by rw [ht, List.append_assoc]; rfl, ?_⟩
    exact List.forall_mem_cons.mpr ⟨trivial, hquiet⟩

/-- A fall-through keeps the pending question. -/
theorem FallsThrough.keepsPending {context : RetrievalContext} {c₃ : Ctx}
    (h : FallsThrough w question c context c₃) : KeepsPending c.session c₃.session := by
  obtain ⟨c₁, c₂, hretrieves, hmentioned, hactive⟩ := h.retrieves
  obtain rfl := hretrieves.eq
  rw [answerActive_session hactive]
  exact (answerMentioned_quiet hmentioned).1

end

end AuditFlow
