import AuditFlow.Orchestration.Answers

/-!
# Session memory names the answered document

Does the active contract follow the answers? `ask_active`: after an answer the active contract is
**the document of the answer**, on every route. `ask_not_stale`: where a low-confidence question
names a document, the answer is **never for the contract that was active before**, whether or not
the named document yields one. The named document is not the active one
(`mentionsDifferentContract_ne_active`), so that `_handle_low_confidence` drops the active contract
before it tries the named one, and the fall-through finds nothing to be stale.
-/

namespace AuditFlow

open Foundation

section

variable {w : World} {question : String} {c c' : Ctx} {response : AskResponse}

/-- An answer makes its document the active contract. -/
theorem ask_active (h : ask w question c = (.ok response, c'))
    (hstatus : response.status = .answered) :
    c'.session.activeContract = response.topContract := by
  cases ask_exit h with
  | rejected | unanswered | clarifies | declines => cases hstatus
  | answered hroute hanswer hverify =>
    obtain ⟨claims, rfl, -, rfl⟩ := verifyAnswer_eq_ok hverify
    rfl

/-- Where another document than the active one was named and yielded no answer, there is no active
contract any more. -/
theorem answerMentioned_drops {m : String} (hnamed : namedContract w question c = some m)
    (h : answerMentioned w question c = (.ok none, c')) :
    c'.session.activeContract = none := by
  have hmentions := (truthy_eq_some_iff.mp hnamed).1
  have hother := mentionsDifferentContract_ne_active hmentions
  rcases answerMentioned_eq_none h with ⟨-, hsame⟩ | ⟨d, -, -, hanswer⟩
  · exact absurd (hsame m hnamed) hother
  · rw [(answerWithRetry_eq_none hanswer).1]
    rfl

/-- A low-confidence question that names a document is not answered for the contract that was active
before. -/
theorem ask_not_stale (h : ask w question c = (.ok response, c')) {context : RetrievalContext}
    {c₁ : Ctx} {m : String} (hretrieves : Retrieves w question c context c₁)
    (hlow : context.consistency.isConfident = false)
    (hnamed : namedContract w question c₁ = some m) :
    ¬(response.status = .answered ∧ response.topContract = c.session.activeContract) := by
  rintro ⟨hstatus, hstale⟩
  have hsession : c₁.session = c.session := by rw [hretrieves.eq]
  cases ask_exit h with
  | rejected | unanswered | clarifies | declines => cases hstatus
  | answered hroute hanswer hverify =>
    obtain ⟨claims, rfl, -, -⟩ := verifyAnswer_eq_ok hverify
    cases hroute with
    | selection hselects => exact hretrieves.1 _ hselects
    | confident hretrieves' hconfident =>
      obtain ⟨rfl, -⟩ := hretrieves.unique hretrieves'
      rw [hlow] at hconfident
      cases hconfident
    | mentioned hretrieves' hlow' hmentions hother =>
      obtain ⟨-, rfl⟩ := hretrieves.unique hretrieves'
      rw [hsession] at hother
      exact hother hstale
    | active hretrieves' hlow' hskip hactive =>
      obtain ⟨-, rfl⟩ := hretrieves.unique hretrieves'
      have hdropped := answerMentioned_drops hnamed hskip
      rw [hdropped] at hactive
      cases hactive

/-- **Session memory names the document that was answered**, and a contract that the question
left behind is not answered from memory. -/
theorem ask_remembers (h : ask w question c = (.ok response, c')) :
    (∀ d, response.status = .answered → response.topContract = some d →
      c'.session.activeContract = some d) ∧
    ∀ (context : RetrievalContext) (c₁ : Ctx) (m : String), Retrieves w question c context c₁ →
      context.consistency.isConfident = false →
      truthy (mentionsDifferentContract w.rt question (w.identities c₁.trace.length)
        c.session.activeContract) = some m →
      ¬(response.status = .answered ∧ response.topContract = c.session.activeContract) := by
  constructor
  · intro d hstatus htop
    rw [ask_active h hstatus, htop]
  · intro context c₁ m hretrieves hlow hmentions
    have hsession : c₁.session = c.session := by rw [hretrieves.eq]
    rw [← hsession] at hmentions
    exact ask_not_stale h hretrieves hlow hmentions

end

/-- Contract `A` is the one of Alphacorp, and retrieval is never confident. -/
def namesAlphacorp : World :=
  { sampleWorld [1/5, 1/5, 1/5, 0, 0] "A::1" with
    identities := fun _ => Dict.empty.set "A"
      { companyName := "Alphacorp", counterpartyName := "", documentTitle := "" } }

/-- A session about contract `B`. -/
def aboutB : Ctx := { session := { activeContract := some "B" } }

private theorem namesAlphacorp_run :
    (ask namesAlphacorp "What does Alphacorp pay?" aboutB).1 = .ok (sampleAnswer "A::1") := by
  decide +kernel

private theorem namesAlphacorp_retrieves : ∃ context c₁,
    Retrieves namesAlphacorp "What does Alphacorp pay?" aboutB context c₁ ∧
      context.consistency.isConfident = false := by
  have hlow : (retrieveContext namesAlphacorp "What does Alphacorp pay?" aboutB).1.map
      (fun context => context.consistency.isConfident) = .ok false := by decide +kernel
  rcases hrun : retrieveContext namesAlphacorp "What does Alphacorp pay?" aboutB with
    ⟨e | context, c₁⟩
  · rw [hrun] at hlow
    cases hlow
  · rw [hrun] at hlow
    refine ⟨context, c₁, ⟨?_, hrun⟩, Except.ok.inj hlow⟩
    rintro pending ⟨hpending, -⟩
    cases hpending

private theorem namesAlphacorp_names (t : ℕ) :
    truthy (mentionsDifferentContract namesAlphacorp.rt "What does Alphacorp pay?"
      (namesAlphacorp.identities t) aboutB.session.activeContract) = some "A" := by
  have hnow : truthy (mentionsDifferentContract namesAlphacorp.rt "What does Alphacorp pay?"
      (namesAlphacorp.identities 0) aboutB.session.activeContract) = some "A" := by decide +kernel
  exact hnow

/-- `ask_remembers` at a question that moves a session from contract `B` to contract `A`. -/
theorem ask_remembers_alphacorp :
    (ask namesAlphacorp "What does Alphacorp pay?" aboutB).2.session.activeContract = some "A" ∧
      (sampleAnswer "A::1").topContract ≠ some "B" := by
  have hremembers := ask_remembers (Exc.eq_of_fst namesAlphacorp_run)
  obtain ⟨context, c₁, hretrieves, hlow⟩ := namesAlphacorp_retrieves
  constructor
  · exact hremembers.1 "A" rfl rfl
  · intro hstale
    exact hremembers.2 context c₁ "A" hretrieves hlow (namesAlphacorp_names _) ⟨rfl, hstale⟩

end AuditFlow
