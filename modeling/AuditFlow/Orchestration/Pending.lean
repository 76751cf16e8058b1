import AuditFlow.Orchestration.Answers

/-!
# The pending clarification

Is a user asked back exactly while a question of theirs is pending? `ask_pendingLive_iff` answers
for one call, `visits_pendingLive_iff` for **every run** of calls on one session, which may raise
and keep or lose what they changed: the pending question is live after each returning call if and
only if each of them meets `Settles`.

The calls that do not are those that, with a question pending, retrieve with low confidence and
then either answer or decline: `_handle_low_confidence` assigns `pending_question` only when it asks
back. `pending_outlives_clarification` is such a run.
-/

namespace AuditFlow

open Foundation

/-- The question is pending exactly if the response asks back. -/
def PendingLive (s' : SessionState) (response : AskResponse) : Prop :=
  s'.pendingQuestion ≠ none ↔ response.status = .needClarification

/-- The call leaves no pending question by accident: none was pending, the message is handled as a
selection, the retrieval is confident, or the low-confidence turn ends in a clarification. -/
def Settles (w : World) (question : String) (c : Ctx) : Prop :=
  c.session.pendingQuestion = none ∨ (∃ pending, Selects w question c pending) ∨
    (∃ context c₁, Retrieves w question c context c₁ ∧
      context.consistency.isConfident = true) ∨
    ∃ context c₃, FallsThrough w question c context c₃ ∧
      context.consistency.concentration < 3 / 5

section

variable {w : World} {question : String} {c : Ctx}

/-- A call whose retrieval is not confident settles only if nothing was pending or it falls
through to a clarification. -/
private theorem settles_iff_of_low {context : RetrievalContext} {c₁ : Ctx}
    (hretrieves : Retrieves w question c context c₁)
    (hlow : context.consistency.isConfident = false) :
    Settles w question c ↔ c.session.pendingQuestion = none ∨
      ∃ c₃, FallsThrough w question c context c₃ ∧ context.consistency.concentration < 3 / 5 := by
  constructor
  · rintro (hnone | ⟨pending, hselects⟩ | ⟨context', c₁', hretrieves', hconfident⟩ |
      ⟨context', c₃, hfalls, hspread⟩)
    · exact Or.inl hnone
    · exact absurd hselects (hretrieves.1 pending)
    · obtain ⟨rfl, -⟩ := hretrieves.unique hretrieves'
      rw [hlow] at hconfident
      cases hconfident
    · obtain ⟨c₁', c₂, hretrieves', -⟩ := hfalls.retrieves
      obtain ⟨rfl, -⟩ := hretrieves.unique hretrieves'
      exact Or.inr ⟨c₃, hfalls, hspread⟩
  · rintro (hnone | ⟨c₃, hfalls, hspread⟩)
    · exact Or.inl hnone
    · exact Or.inr (Or.inr (Or.inr ⟨context, c₃, hfalls, hspread⟩))

/-- A call that answers on the route of the named contract does not fall through. -/
private theorem not_fallsThrough_of_mentioned {context : RetrievalContext} {c₁ c₂ c₃ : Ctx}
    {d : String} {result : GenerationResult} (hretrieves : Retrieves w question c context c₁)
    (hmentions : namedContract w question c₁ = some d)
    (hother : some d ≠ c₁.session.activeContract)
    (hanswer : answerWithRetry w question d none
      (c₁.withSession fun s => { s with activeContract := none }) = (.ok (some result), c₂)) :
    ¬FallsThrough w question c context c₃ := by
  intro hfalls
  obtain ⟨c₁', c₂', hretrieves', hmentioned, -⟩ := hfalls.retrieves
  obtain ⟨-, rfl⟩ := hretrieves.unique hretrieves'
  rcases answerMentioned_eq_none hmentioned with ⟨-, hsame⟩ | ⟨d', hnamed, -, hnone⟩
  · exact hother (hsame d hmentions)
  · obtain rfl : d = d' := Option.some.inj (hmentions.symm.trans hnamed)
    rw [hanswer] at hnone
    cases (Prod.mk.inj hnone).1

/-- A call that answers on the route of the active contract does not fall through. -/
private theorem not_fallsThrough_of_active {context : RetrievalContext} {c₁ c₂ c₃ c₄ : Ctx}
    {d : String} {result : GenerationResult} (hretrieves : Retrieves w question c context c₁)
    (hskip : answerMentioned w question c₁ = (.ok none, c₂))
    (hactive : truthy c₂.session.activeContract = some d)
    (hanswer : answerWithRetry w question d none c₂ = (.ok (some result), c₄)) :
    ¬FallsThrough w question c context c₃ := by
  intro hfalls
  obtain ⟨c₁', c₂', hretrieves', hmentioned, hnone⟩ := hfalls.retrieves
  obtain ⟨-, rfl⟩ := hretrieves.unique hretrieves'
  obtain ⟨-, rfl⟩ := Prod.mk.inj (hskip.symm.trans hmentioned)
  rcases answerActive_eq_none hnone with ⟨-, hinactive⟩ | ⟨d', hactive', hnone⟩
  · rw [hactive] at hinactive
    cases hinactive
  · obtain rfl : d = d' := Option.some.inj (hactive.symm.trans hactive')
    rw [hanswer] at hnone
    cases (Prod.mk.inj hnone).1

/-- Where an answered or declined low-confidence call keeps the pending question, the question is
live exactly if the call settles. -/
private theorem live_iff_of_kept {context : RetrievalContext} {c₁ : Ctx} {s' : SessionState}
    {response : AskResponse} (hretrieves : Retrieves w question c context c₁)
    (hlow : context.consistency.isConfident = false)
    (hkept : s'.pendingQuestion = c.session.pendingQuestion)
    (hstatus : response.status ≠ .needClarification)
    (hnot : ¬∃ c₃, FallsThrough w question c context c₃ ∧
      context.consistency.concentration < 3 / 5) :
    PendingLive s' response ↔ Settles w question c := by
  rw [settles_iff_of_low hretrieves hlow, or_iff_left hnot, PendingLive, hkept,
    iff_false_right hstatus, not_not]

/-- **One call.** After a call that returned, the pending question is live if and only if the call
settles. -/
theorem ask_pendingLive_iff {c' : Ctx} {response : AskResponse}
    (h : ask w question c = (.ok response, c')) :
    PendingLive c'.session response ↔ Settles w question c := by
  cases ask_exit h with
  | rejected hselects hunknown =>
    -- the same question is asked again, and stays pending
    have hpending : c.session.pendingQuestion ≠ none := by
      rw [(truthy_eq_some_iff.mp hselects.1).1]
      exact Option.some_ne_none _
    exact iff_of_true (iff_of_true hpending rfl) (Or.inr (Or.inl ⟨_, hselects⟩))
  | answered hroute hanswer hverify =>
    obtain ⟨claims, rfl, -, rfl⟩ := verifyAnswer_eq_ok hverify
    have hsession := (answerWithRetry_eq_ok hanswer).1
    have hstatus : ∀ d, (AskResponse.answered claims d).status ≠ .needClarification := by
      intro d h
      cases h
    cases hroute with
    | selection hselects hoffered =>
      refine iff_of_true (iff_of_false ?_ (hstatus _)) (Or.inr (Or.inl ⟨_, hselects⟩))
      simp [Ctx.withSession, hsession]
    | confident hretrieves hconfident htop =>
      refine iff_of_true (iff_of_false ?_ (hstatus _))
        (Or.inr (Or.inr (Or.inl ⟨_, _, hretrieves, hconfident⟩)))
      simp [Ctx.withSession, hsession]
    | mentioned hretrieves hlow hmentions hother =>
      refine live_iff_of_kept hretrieves hlow ?_ (hstatus _) ?_
      · simp [Ctx.withSession, hsession, hretrieves.eq]
      · rintro ⟨c₃, hfalls, _⟩
        exact not_fallsThrough_of_mentioned hretrieves hmentions hother hanswer hfalls
    | active hretrieves hlow hskip hactive =>
      refine live_iff_of_kept hretrieves hlow ?_ (hstatus _) ?_
      · have hkept := (answerMentioned_quiet hskip).1.pendingQuestion
        simpa [Ctx.withSession, hsession, hretrieves.eq] using hkept
      · rintro ⟨c₃, hfalls, _⟩
        exact not_fallsThrough_of_active hretrieves hskip hactive hanswer hfalls
  | unanswered hroute hnone hclears =>
    -- nothing is pending when `answer_with_retry` is called, and it leaves the session alone
    have hpending : c'.session.pendingQuestion = none := by
      rw [(answerWithRetry_eq_ok hnone).1, hclears]
    refine iff_of_true (iff_of_false (fun hne => hne hpending) (by intro h; cases h)) ?_
    cases hroute with
    | selection hselects hoffered => exact Or.inr (Or.inl ⟨_, hselects⟩)
    | confident hretrieves hconfident htop =>
      exact Or.inr (Or.inr (Or.inl ⟨_, _, hretrieves, hconfident⟩))
    | mentioned hretrieves hlow hmentions hother =>
      obtain rfl := hretrieves.eq
      exact Or.inl hclears
    | active hretrieves hlow hskip hactive =>
      have hkept := (answerMentioned_quiet hskip).1.pendingQuestion
      rw [hclears, hretrieves.eq] at hkept
      exact Or.inl hkept.symm
  | clarifies hfalls hspread =>
    exact iff_of_true (iff_of_true (Option.some_ne_none question) rfl)
      (Or.inr (Or.inr (Or.inr ⟨_, _, hfalls, hspread⟩)))
  | declines hfalls hfocused =>
    obtain ⟨c₁, c₂, hretrieves, -⟩ := hfalls.retrieves
    refine live_iff_of_kept hretrieves hfalls.low hfalls.keepsPending.pendingQuestion ?_ ?_
    · intro h
      cases h
    · rintro ⟨_, _, hspread⟩
      exact hfocused hspread

end

/-! ### Runs -/

/-- One call of a run. The caller of a call that raised goes on with the state it changed, or with
the state from before. -/
structure Turn where
  world : World
  question : String
  keepsOnRaise : Bool

/-- The call of a turn in a session. -/
def Turn.call (t : Turn) (s : SessionState) : Except PyError AskResponse × Ctx :=
  ask t.world t.question { session := s }

/-- The session that the next turn starts from. -/
def Turn.next (t : Turn) (s : SessionState) : SessionState :=
  match (t.call s).1 with
  | .ok _ => (t.call s).2.session
  | .error _ => if t.keepsOnRaise then (t.call s).2.session else s

/-- The turns of a run, each with the session it starts from. -/
def visits : SessionState → List Turn → List (SessionState × Turn)
  | _, [] => []
  | s, t :: turns => (s, t) :: visits (t.next s) turns

/-- **Every run.** The pending question is live after each returning call of a run if and only if
each returning call settles. -/
theorem visits_pendingLive_iff (turns : List Turn) :
    (∀ v ∈ visits {} turns, ∀ response c', v.2.call v.1 = (.ok response, c') →
        PendingLive c'.session response) ↔
      ∀ v ∈ visits {} turns, ∀ response c', v.2.call v.1 = (.ok response, c') →
        Settles v.2.world v.2.question { session := v.1 } :=
  forall₂_congr fun _ _ => forall₃_congr fun _ _ h => ask_pendingLive_iff h

/-- A turn over the sample contracts. -/
def sampleTurn (scores : List ℚ) (question : String) : Turn where
  world := sampleWorld scores "A::1"
  question := question
  keepsOnRaise := false

/-- `B` leads with two of five chunks, so the turn asks back. -/
def spreadTurn : Turn := sampleTurn [0, 0, 0, 1, 1] "Which law governs?"

/-- `A` leads with three of five chunks, but with low scores. -/
def unsureTurn : Turn := sampleTurn [1/5, 1/5, 1/5, 0, 0] "What is the notice period?"

/-- **A pending question outlives its clarification.** The first turn asks back; the second is
declined as of low relevance and leaves the question of the first one pending. -/
theorem pending_outlives_clarification :
    ¬∀ v ∈ visits {} [spreadTurn, unsureTurn],
      ∀ response c', v.2.call v.1 = (.ok response, c') → PendingLive c'.session response := by
  intro h
  have hnext : spreadTurn.next {} =
      { pendingQuestion := some "Which law governs?", pendingCandidates := ["B", "A"] } := by
    decide +kernel
  have hcall : (unsureTurn.call (spreadTurn.next {})).1 = .ok (.lowRelevance (some "A")) := by
    rw [hnext]
    decide +kernel
  have hpending : (unsureTurn.call (spreadTurn.next {})).2.session.pendingQuestion ≠ none := by
    rw [hnext]
    decide +kernel
  have hlive := h (spreadTurn.next {}, unsureTurn) (List.mem_cons_of_mem _ List.mem_cons_self) _ _
    (Exc.eq_of_fst hcall)
  exact absurd (hlive.mp hpending) (by decide)

end AuditFlow
