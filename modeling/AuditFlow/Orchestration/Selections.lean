import AuditFlow.Orchestration.Pending

/-!
# Selections

A message that is resolved as a selection is answered for a contract that was offered, and what is
asked is **the question that was pending**, not the selection. Both come from one invariant between
the session and everything that was said to the user (`Paired`): a pending question is the message
of the last clarification that was not itself the answer to a selection, and it is pending with the
candidates of that clarification. Later clarifications only repeat it.

`selection_answers_pending` says so for **every run**. The last such clarification matters, not
the first one with the same candidates: a user who is asked back twice about the same contracts
gets an answer to the second question, `selection_answers_latest`.
-/

namespace AuditFlow

open Foundation

/-! ### What was said -/

/-- A call that returned: the message, whether it was resolved as a selection, and the response. -/
structure Exchange where
  question : String
  selects : Bool
  response : AskResponse
  deriving DecidableEq, Repr

/-- The exchange asks the user back. -/
def Exchange.clarifies (e : Exchange) : Bool := decide (e.response.status = .needClarification)

/-- The message of a turn is resolved as a selection. -/
def Turn.selects (t : Turn) (s : SessionState) : Bool :=
  (truthy s.pendingQuestion).isSome && looksLikeContractSelection t.world.rt t.question

/-- What a turn adds: nothing if it raises. -/
def Turn.said (t : Turn) (s : SessionState) : List Exchange :=
  match (t.call s).1 with
  | .ok response => [{ question := t.question, selects := t.selects s, response }]
  | .error _ => []

/-- What was said in a run. -/
def transcript : SessionState → List Turn → List Exchange
  | _, [] => []
  | s, t :: turns => t.said s ++ transcript (t.next s) turns

/-- The session after a run. -/
def sessionAfter (s : SessionState) (turns : List Turn) : SessionState :=
  turns.foldl (fun s t => t.next s) s

/-- The clarifications of a run, in order. -/
def clarifications (said : List Exchange) : List Exchange := said.filter Exchange.clarifies

/-- The questions that the generator was asked in a call. -/
def generatorQuestions (trace : List Event) : List String :=
  trace.filterMap fun
    | .generate question _ => some question
    | _ => none

/-- The session is paired with what was said: a pending question is the message of a clarification
with the pending candidates, which was not the answer to a selection, and every clarification since
then was the answer to a selection and repeats it. -/
def Paired (said : List Exchange) (s : SessionState) : Prop :=
  ∀ pending, s.pendingQuestion = some pending →
    ∃ before repeats, clarifications said =
        before ++ ⟨pending, false, .needClarification s.pendingCandidates⟩ :: repeats ∧
      ∀ e ∈ repeats, e.selects = true ∧ e.response = .needClarification s.pendingCandidates

theorem transcript_append (s : SessionState) (turns : List Turn) (t : Turn) :
    transcript s (turns ++ [t]) = transcript s turns ++ t.said (sessionAfter s turns) := by
  induction turns generalizing s with
  | nil => exact List.append_nil _
  | cons t' turns ih =>
    rw [List.cons_append, transcript, ih, transcript, List.append_assoc]
    rfl

theorem sessionAfter_append (s : SessionState) (turns : List Turn) (t : Turn) :
    sessionAfter s (turns ++ [t]) = t.next (sessionAfter s turns) := by
  rw [sessionAfter, List.foldl_append]
  rfl

theorem clarifications_append (said said' : List Exchange) :
    clarifications (said ++ said') = clarifications said ++ clarifications said' :=
  List.filter_append _ _

section

variable {w : World} {question : String} {c c' : Ctx} {response : AskResponse} {t : Turn}
  {s s' : SessionState} {said : List Exchange}

theorem selects_iff : t.selects s = true ↔
    ∃ pending, Selects t.world t.question { session := s } pending := by
  rw [Turn.selects, Bool.and_eq_true_iff, Option.isSome_iff_exists]
  exact ⟨fun ⟨⟨pending, hpending⟩, hlooks⟩ => ⟨pending, hpending, hlooks⟩,
    fun ⟨pending, hpending, hlooks⟩ => ⟨⟨pending, hpending⟩, hlooks⟩⟩

/-! ### What a raise leaves behind -/

/-- Nothing is pending any more, or what was pending still is. -/
def DropsOrKeeps (c c' : Ctx) : Prop :=
  c'.session.pendingQuestion = none ∨
    (c'.session.pendingQuestion = c.session.pendingQuestion ∧
      c'.session.pendingCandidates = c.session.pendingCandidates)

instance : IsPreorder Ctx DropsOrKeeps where
  refl _ := Or.inr ⟨rfl, rfl⟩
  trans := by
    rintro c₁ c₂ c₃ h (hnone | ⟨hq, hc⟩)
    · exact Or.inl hnone
    · rcases h with hnone | ⟨hq', hc'⟩
      · exact Or.inl (hq.trans hnone)
      · exact Or.inr ⟨hq.trans hq', hc.trans hc'⟩

theorem call_dropsOrKeeps {α : Type} {event : Event} {outcome : ℕ → Except PyError α} :
    Exc.Moves DropsOrKeeps (call event outcome) := fun _ => Or.inr ⟨rfl, rfl⟩

theorem setState_dropsOrKeeps {f : SessionState → SessionState}
    (h : ∀ s, (f s).pendingQuestion = none ∨
      ((f s).pendingQuestion = s.pendingQuestion ∧ (f s).pendingCandidates = s.pendingCandidates)) :
    Exc.Moves DropsOrKeeps (setState f) := fun c => h c.session

theorem look_dropsOrKeeps {α : Type} {table : ℕ → α} : Exc.Moves DropsOrKeeps (look table) :=
  fun _ => Or.inr ⟨rfl, rfl⟩

theorem getState_dropsOrKeeps : Exc.Moves DropsOrKeeps getState := fun _ => Or.inr ⟨rfl, rfl⟩

theorem answerWithRetry_dropsOrKeeps {documentId : String}
    {prefetched : Option RetrievalContext} :
    Exc.Moves DropsOrKeeps (answerWithRetry w question documentId prefetched) := by
  unfold answerWithRetry
  refine Exc.Moves.bind ?_ fun result => ?_
  · exact generateWithBoundedRetry_moves call_dropsOrKeeps (fun _ => call_dropsOrKeeps)
      fun _ _ => call_dropsOrKeeps
  · exact call_dropsOrKeeps.bind fun _ => Exc.moves_pure _

theorem verifyAnswer_dropsOrKeeps {result : GenerationResult} {documentId : String} :
    Exc.Moves DropsOrKeeps (verifyAnswer w result documentId) := by
  unfold verifyAnswer
  refine look_dropsOrKeeps.bind fun lookup => Exc.Moves.bind ?_ fun _ => Exc.moves_pure _
  exact call_dropsOrKeeps.handle fun _ => Exc.moves_raise _

/-- Setting the active contract leaves what is pending alone. -/
private theorem setActive_dropsOrKeeps {active : Option String} :
    Exc.Moves DropsOrKeeps (setState fun state => { state with activeContract := active }) :=
  setState_dropsOrKeeps fun _ => Or.inr ⟨rfl, rfl⟩

theorem resolvePendingSelection_dropsOrKeeps {pending : String} :
    Exc.Moves DropsOrKeeps (resolvePendingSelection w question pending) := by
  unfold resolvePendingSelection
  refine getState_dropsOrKeeps.bind fun state => ?_
  dsimp only
  split_ifs
  · refine (setState_dropsOrKeeps fun _ => Or.inl rfl).bind fun _ => ?_
    refine answerWithRetry_dropsOrKeeps.bind fun result => ?_
    cases result with
    | none => exact Exc.moves_pure _
    | some result => exact setActive_dropsOrKeeps.bind fun _ => verifyAnswer_dropsOrKeeps
  · exact Exc.moves_pure _

theorem answerMentioned_dropsOrKeeps : Exc.Moves DropsOrKeeps (answerMentioned w question) := by
  unfold answerMentioned
  refine look_dropsOrKeeps.bind fun identities => getState_dropsOrKeeps.bind fun state => ?_
  split
  · exact Exc.moves_pure _
  · split_ifs
    · exact Exc.moves_pure _
    · refine setActive_dropsOrKeeps.bind fun _ => answerWithRetry_dropsOrKeeps.bind fun result => ?_
      cases result with
      | none => exact Exc.moves_pure _
      | some result =>
        refine setActive_dropsOrKeeps.bind fun _ => ?_
        exact verifyAnswer_dropsOrKeeps.bind fun _ => Exc.moves_pure _

theorem answerActive_dropsOrKeeps : Exc.Moves DropsOrKeeps (answerActive w question) := by
  unfold answerActive
  refine getState_dropsOrKeeps.bind fun state => ?_
  split
  · exact Exc.moves_pure _
  · refine answerWithRetry_dropsOrKeeps.bind fun result => ?_
    cases result with
    | none => exact Exc.moves_pure _
    | some result => exact verifyAnswer_dropsOrKeeps.bind fun _ => Exc.moves_pure _

theorem generateAndVerify_dropsOrKeeps {context : RetrievalContext} :
    Exc.Moves DropsOrKeeps (generateAndVerify w question context) := by
  unfold generateAndVerify
  have hconfident : ∀ topDoc,
      Exc.Moves DropsOrKeeps (generateConfident w question context topDoc) := by
    intro topDoc
    cases topDoc with
    | none =>
      refine Exc.Moves.handle ?_ fun _ => Exc.moves_raise _
      exact call_dropsOrKeeps.bind fun _ => Exc.moves_pure _
    | some d => exact answerWithRetry_dropsOrKeeps.handle fun _ => Exc.moves_raise _
  refine (hconfident _).bind fun result => ?_
  split
  · exact verifyAnswer_dropsOrKeeps
  · exact Exc.moves_pure _

/-- A message of its own that raises asks nothing back: only the last stage of a low-confidence turn
assigns the pending question, and it does not raise. -/
private theorem askFresh_error {e : PyError} (h : askFresh w question c = (.error e, c')) :
    DropsOrKeeps c c' := by
  unfold askFresh at h
  have hretrieve : Exc.Moves DropsOrKeeps (retrieveContext w question) := call_dropsOrKeeps
  rcases Exc.bind_eq_error_iff.mp h with hraise | ⟨context, c₁, hcontext, h⟩
  · exact hretrieve.run hraise
  · have hc₁ : DropsOrKeeps c c₁ := hretrieve.run hcontext
    refine IsTrans.trans _ _ _ hc₁ ?_
    split_ifs at h with hconfident
    · have hset : Exc.Moves DropsOrKeeps (setState fun state =>
          { state with activeContract := context.consistency.topContract,
                       pendingQuestion := none }) := setState_dropsOrKeeps fun _ => Or.inl rfl
      have hgenerate : Exc.Moves DropsOrKeeps (generateAndVerify w question context) :=
        generateAndVerify_dropsOrKeeps
      have hrest := hset.bind fun _ => hgenerate
      exact hrest.run h
    · unfold handleLowConfidence at h
      rcases Exc.bind_eq_error_iff.mp h with hraise | ⟨mentioned, c₂, hmentioned, h⟩
      · exact answerMentioned_dropsOrKeeps.run hraise
      · refine IsTrans.trans _ _ _ (answerMentioned_dropsOrKeeps.run hmentioned) ?_
        cases mentioned with
        | some r => cases (Prod.mk.inj h).1
        | none =>
          rcases Exc.bind_eq_error_iff.mp h with hraise | ⟨active, c₃, hactive, h⟩
          · exact answerActive_dropsOrKeeps.run hraise
          · cases active with
            | some r => cases (Prod.mk.inj h).1
            | none =>
              -- the last stage does not raise
              dsimp only [clarifyOrDecline] at h
              split_ifs at h
              · cases (Prod.mk.inj h).1
              · cases (Prod.mk.inj h).1

/-- A call that raises keeps what is pending, or drops it. -/
theorem ask_error_pending {e : PyError} (h : ask w question c = (.error e, c')) :
    DropsOrKeeps c c' := by
  unfold ask at h
  rw [getState_bind] at h
  rcases hpending : truthy c.session.pendingQuestion with - | pending
  · rw [hpending] at h
    exact askFresh_error h
  · simp only [hpending] at h
    split_ifs at h
    · exact resolvePendingSelection_dropsOrKeeps.run h
    · exact askFresh_error h

/-- The route to an answer keeps what is pending, or drops it. -/
theorem Route.dropsOrKeeps {asked d : String} {prefetched : Option RetrievalContext} {c₀ : Ctx}
    (h : Route w question c asked d prefetched c₀) : DropsOrKeeps c c₀ := by
  cases h with
  | selection => exact Or.inl rfl
  | confident => exact Or.inl rfl
  | mentioned hretrieves =>
    obtain rfl := hretrieves.eq
    exact Or.inr ⟨rfl, rfl⟩
  | active hretrieves _ hskip =>
    obtain rfl := hretrieves.eq
    have hdrop : DropsOrKeeps { c with trace := c.trace ++ [.retrieve question] } c₀ :=
      answerMentioned_dropsOrKeeps.run hskip
    exact hdrop

/-! ### What asks back -/

/-- How a call returns, as far as asking back goes: it repeats the pending clarification, it asks a
message of its own back, or it asks nothing. -/
inductive ClarifyExit (w : World) (question : String) (c : Ctx) : AskResponse → Ctx → Prop
  | repeats {pending : String} (hselects : Selects w question c pending)
      (hunknown : chosenDocumentId question ∉ c.session.pendingCandidates) :
      ClarifyExit w question c (.needClarification c.session.pendingCandidates) c
  | asks {context : RetrievalContext} {c₃ : Ctx} (hfalls : FallsThrough w question c context c₃)
      (hspread : context.consistency.concentration < 3 / 5) :
      ClarifyExit w question c (.needClarification context.consistency.contractBreakdown.keys)
        (c₃.withSession fun s => { s with
          pendingQuestion := some question
          pendingCandidates := context.consistency.contractBreakdown.keys })
  | quiet {response : AskResponse} {c' : Ctx} (hstatus : response.status ≠ .needClarification)
      (hpending : DropsOrKeeps c c') : ClarifyExit w question c response c'

theorem clarify_exit (h : ask w question c = (.ok response, c')) :
    ClarifyExit w question c response c' := by
  cases ask_exit h with
  | rejected hselects hunknown => exact .repeats hselects hunknown
  | answered hroute hanswer hverify =>
    obtain ⟨claims, rfl, -, rfl⟩ := verifyAnswer_eq_ok hverify
    refine .quiet (by intro h; cases h) ?_
    refine IsTrans.trans _ _ _ hroute.dropsOrKeeps ?_
    exact IsTrans.trans _ _ _ (answerWithRetry_dropsOrKeeps.run hanswer) (Or.inr ⟨rfl, rfl⟩)
  | unanswered hroute hnone =>
    refine .quiet (by intro h; cases h) ?_
    exact IsTrans.trans _ _ _ hroute.dropsOrKeeps (answerWithRetry_dropsOrKeeps.run hnone)
  | clarifies hfalls hspread => exact .asks hfalls hspread
  | declines hfalls =>
    refine .quiet (by intro h; cases h) (Or.inr ?_)
    exact ⟨hfalls.keepsPending.pendingQuestion, hfalls.keepsPending.pendingCandidates⟩

/-- What falls through is no selection. -/
theorem FallsThrough.selects_eq_false {context : RetrievalContext} {c₃ : Ctx}
    (h : FallsThrough t.world t.question { session := s } context c₃) : t.selects s = false := by
  obtain ⟨c₁, c₂, hretrieves, -⟩ := h.retrieves
  rw [Bool.eq_false_iff, Ne, selects_iff]
  rintro ⟨pending, hselects⟩
  exact hretrieves.1 pending hselects

/-! ### The pending question is paired with what was said -/

/-- Where nothing new is pending and nobody is asked back, the session stays paired. -/
private theorem Paired.of_dropsOrKeeps (hp : Paired said s) {said' : List Exchange}
    (hsaid : clarifications said' = clarifications said)
    (h : DropsOrKeeps { session := s } c') : Paired said' c'.session := by
  intro pending hpending
  rcases h with hnone | ⟨hquestion, hcandidates⟩
  · rw [hnone] at hpending
    cases hpending
  · rw [hquestion] at hpending
    rw [hsaid, hcandidates]
    exact hp pending hpending

/-- Asking the same question back again repeats the clarification. -/
private theorem Paired.repeats (hp : Paired said s) {text : String} :
    Paired (said ++ [⟨text, true, .needClarification s.pendingCandidates⟩]) s := by
  intro pending hpending
  obtain ⟨before, repeats, hsaid, hrepeats⟩ := hp pending hpending
  refine ⟨before, repeats ++ [⟨text, true, .needClarification s.pendingCandidates⟩], ?_, ?_⟩
  · rw [clarifications_append, hsaid, List.append_assoc, List.cons_append]
    rfl
  · intro e he
    rcases List.mem_append.mp he with he | he
    · exact hrepeats e he
    · rw [List.mem_singleton.mp he]
      exact ⟨rfl, rfl⟩

/-- Asking a message of its own back pairs the session anew. -/
private theorem Paired.asks {text : String} {candidates : List String}
    (hpending : s'.pendingQuestion = some text) (hcandidates : s'.pendingCandidates = candidates) :
    Paired (said ++ [⟨text, false, .needClarification candidates⟩]) s' := by
  intro pending hpending'
  obtain rfl : text = pending := Option.some.inj (hpending.symm.trans hpending')
  refine ⟨clarifications said, [], ?_, ?_⟩
  · rw [clarifications_append, hcandidates]
    rfl
  · intro e he
    cases he

/-- **One turn** keeps the session paired with what was said. -/
theorem Paired.next (hp : Paired said s) (t : Turn) : Paired (said ++ t.said s) (t.next s) := by
  rcases hcall : t.call s with ⟨e | response, c'⟩
  · have hsaid : t.said s = [] := by rw [Turn.said, hcall]
    rw [hsaid, List.append_nil, Turn.next, hcall]
    dsimp only
    split_ifs
    · exact hp.of_dropsOrKeeps rfl (ask_error_pending hcall)
    · exact hp
  · have hsaid : t.said s = [⟨t.question, t.selects s, response⟩] := by rw [Turn.said, hcall]
    have hnext : t.next s = c'.session := by rw [Turn.next, hcall]
    rw [hsaid, hnext]
    cases clarify_exit hcall with
    | repeats hselects =>
      rw [selects_iff.mpr ⟨_, hselects⟩]
      exact hp.repeats
    | asks hfalls hspread =>
      rw [hfalls.selects_eq_false]
      exact Paired.asks rfl rfl
    | quiet hstatus hpending =>
      refine hp.of_dropsOrKeeps ?_ hpending
      -- a response that asks nothing back leaves the clarifications as they are
      rw [clarifications_append]
      simp [clarifications, Exchange.clarifies, hstatus]

/-- **Every run** keeps them paired. -/
theorem paired_transcript (turns : List Turn) :
    Paired (transcript {} turns) (sessionAfter {} turns) := by
  induction turns using List.reverseRecOn with
  | nil =>
    intro pending hpending
    cases hpending
  | append_singleton turns t ih =>
    rw [transcript_append, sessionAfter_append]
    exact ih.next t

/-! ### Selections -/

/-- The generator is asked the question of the calls that it is part of. -/
theorem generatorQuestions_within {events : List Event} {asked d : String}
    (h : ∀ e ∈ events, e.Within asked d) : ∀ q ∈ generatorQuestions events, q = asked := by
  intro q hq
  obtain ⟨e, he, hquestion⟩ := List.mem_filterMap.mp hq
  have hwithin := h e he
  cases e with
  | generate question chunks =>
    obtain rfl := Option.some.inj hquestion
    exact hwithin.1
  | _ => cases hquestion

/-- A selection that is answered puts the pending question, about an offered contract. -/
private theorem selection_answered {pending d : String} (hselects : Selects w question c pending)
    (hfresh : c.trace = []) (h : ask w question c = (.ok response, c'))
    (hstatus : response.status = .answered) (htop : response.topContract = some d) :
    d ∈ c.session.pendingCandidates ∧ ∀ q ∈ generatorQuestions c'.trace, q = pending := by
  cases ask_exit h with
  | rejected | unanswered | clarifies | declines => cases hstatus
  | answered hroute hanswer hverify =>
    obtain ⟨claims, rfl, -, rfl⟩ := verifyAnswer_eq_ok hverify
    obtain rfl := Option.some.inj htop
    cases hroute with
    | selection hselects' hoffered =>
      obtain rfl := Option.some.inj (hselects.1.symm.trans hselects'.1)
      obtain ⟨-, within, htrace, hwithin⟩ := answerWithRetry_eq_ok hanswer
      refine ⟨hoffered, fun q hq => generatorQuestions_within hwithin q ?_⟩
      -- the result and its verification are no calls of the generator
      simpa [generatorQuestions, Ctx.withSession, htrace, hfresh] using hq
    | confident hretrieves | mentioned hretrieves | active hretrieves =>
      exact absurd hselects (hretrieves.1 _)

/-- **A selection answers the question that was pending, for a contract that was offered.** In every
run, where a call resolves its message as a selection and answers it for `d`, the last clarification
of the user offers `d`; the question put to the generator is the message of the last clarification
that did not answer a selection itself, and the clarifications after that one repeat it. -/
theorem selection_answers_pending (turns : List Turn) (t : Turn) (response : AskResponse) (c' : Ctx)
    (d pending : String) (hcall : t.call (sessionAfter {} turns) = (.ok response, c'))
    (hselects : Selects t.world t.question { session := sessionAfter {} turns } pending)
    (hstatus : response.status = .answered) (htop : response.topContract = some d) :
    ∃ before asked repeats last,
      clarifications (transcript {} turns) = before ++ asked :: repeats ∧
      (clarifications (transcript {} turns)).getLast? = some last ∧
      d ∈ last.response.candidateContracts ∧
      asked.selects = false ∧ asked.response = last.response ∧
      (∀ e ∈ repeats, e.selects = true ∧ e.response = last.response) ∧
      ∀ q ∈ generatorQuestions c'.trace, q = asked.question := by
  have hpending := (truthy_eq_some_iff.mp hselects.1).1
  obtain ⟨before, repeats, hsaid, hrepeats⟩ := paired_transcript turns pending hpending
  obtain ⟨hoffered, hasked⟩ := selection_answered hselects rfl hcall hstatus htop
  have hlast : ∃ last, (clarifications (transcript {} turns)).getLast? = some last ∧
      last.response = .needClarification (sessionAfter {} turns).pendingCandidates := by
    rw [hsaid, List.getLast?_append_of_ne_nil _ (List.cons_ne_nil _ _), List.getLast?_cons]
    refine ⟨_, rfl, ?_⟩
    rcases hrep : repeats.getLast? with - | e
    · rfl
    · exact (hrepeats e (List.mem_of_getLast? hrep)).2
  obtain ⟨last, hlast, hresponse⟩ := hlast
  refine ⟨before, _, repeats, last, hsaid, hlast, ?_, rfl, hresponse.symm, ?_, hasked⟩
  · rw [hresponse]
    exact hoffered
  · rw [hresponse]
    exact hrepeats

end

/-! ### Concrete runs -/

/-- A second question about the same contracts. -/
def spreadAgainTurn : Turn := sampleTurn [0, 0, 0, 1, 1] "What is the notice period?"

/-- The choice of contract `A`. -/
def selectTurn : Turn := sampleTurn [1, 1, 1, 0, 0] "A"

/-- Asked back about `A` and `B` for the second time. -/
def askedTwice : SessionState :=
  { pendingQuestion := some "What is the notice period?", pendingCandidates := ["B", "A"] }

private theorem sessionAfter_spreadAgain :
    sessionAfter {} [spreadTurn, spreadAgainTurn] = askedTwice := by decide +kernel

private theorem selectTurn_call : (selectTurn.call askedTwice).1 = .ok (sampleAnswer "A::1") := by
  decide +kernel

private theorem selectTurn_selects :
    Selects selectTurn.world selectTurn.question { session := askedTwice }
      "What is the notice period?" := ⟨rfl, by decide +kernel⟩

/-- `selection_answers_pending` where two questions were asked back about the same contracts. -/
theorem selection_answers_pending_second :
    ∃ before asked repeats last,
      clarifications (transcript {} [spreadTurn, spreadAgainTurn]) = before ++ asked :: repeats ∧
      (clarifications (transcript {} [spreadTurn, spreadAgainTurn])).getLast? = some last ∧
      "A" ∈ last.response.candidateContracts ∧
      asked.selects = false ∧ asked.response = last.response ∧
      (∀ e ∈ repeats, e.selects = true ∧ e.response = last.response) ∧
      ∀ q ∈ generatorQuestions (selectTurn.call (sessionAfter {} [spreadTurn,
        spreadAgainTurn])).2.trace, q = asked.question := by
  have hcall : (selectTurn.call (sessionAfter {} [spreadTurn, spreadAgainTurn])).1 =
      .ok (sampleAnswer "A::1") := by
    rw [sessionAfter_spreadAgain]
    exact selectTurn_call
  have hselects : Selects selectTurn.world selectTurn.question
      { session := sessionAfter {} [spreadTurn, spreadAgainTurn] }
      "What is the notice period?" := by
    rw [sessionAfter_spreadAgain]
    exact selectTurn_selects
  exact selection_answers_pending [spreadTurn, spreadAgainTurn] selectTurn _ _ "A" _
    (Exc.eq_of_fst hcall) hselects rfl rfl

/-- The first of the clarifications, at the end of the run, that offer the same contracts. -/
def runOpener (clarified : List Exchange) : Option Exchange :=
  clarified.getLast?.bind fun last =>
    (clarified.reverse.takeWhile fun e => decide
      (e.response.candidateContracts = last.response.candidateContracts)).getLast?

/-- **The second question is answered, not the first.** Two questions are asked back about the same
contracts, and the selection is answered for the second. -/
theorem selection_answers_latest :
    ¬∀ (turns : List Turn) (t : Turn) (response : AskResponse) (c' : Ctx) (d pending : String),
      t.call (sessionAfter {} turns) = (.ok response, c') →
      Selects t.world t.question { session := sessionAfter {} turns } pending →
      response.status = .answered → response.topContract = some d →
      ∃ last opener, (clarifications (transcript {} turns)).getLast? = some last ∧
        d ∈ last.response.candidateContracts ∧
        runOpener (clarifications (transcript {} turns)) = some opener ∧
        ∀ q ∈ generatorQuestions c'.trace, q = opener.question ∧ q ≠ t.question := by
  intro h
  have hstrict := h [spreadTurn, spreadAgainTurn] selectTurn (sampleAnswer "A::1")
    (selectTurn.call askedTwice).2 "A" "What is the notice period?"
  rw [sessionAfter_spreadAgain] at hstrict
  obtain ⟨last, opener, -, -, hopener, hquestions⟩ :=
    hstrict (Exc.eq_of_fst selectTurn_call) selectTurn_selects rfl rfl
  have hfirst : (runOpener (clarifications (transcript {} [spreadTurn, spreadAgainTurn]))).map
      (·.question) = some "Which law governs?" := by decide +kernel
  have hasked : "What is the notice period?" ∈
      generatorQuestions (selectTurn.call askedTwice).2.trace := by decide +kernel
  rw [hopener] at hfirst
  have hquestion : opener.question = "Which law governs?" := Option.some.inj hfirst
  have hsame := (hquestions _ hasked).1
  rw [hquestion] at hsame
  exact absurd hsame (by decide)

end AuditFlow
