import AuditFlow.Foundation.Html
import AuditFlow.Foundation.Text
import AuditFlow.Schemas
import Mathlib.Data.List.GetD
import Mathlib.Data.List.Induction
import Mathlib.Data.List.Perm.Subperm
import Mathlib.Data.List.Range
import Mathlib.Logic.Function.Basic

/-!
# The page

`frontend/index.htm`: the cards that the responses are rendered into, and `submitQuestion`, which
waits twice — for the response and for its body — so that submissions overlap: the button is
disabled meanwhile, but the Enter key is not. Each submission appends a turn that is loading, and
removes *the first* one that is loading when it ends, not its own.

**Whatever comes in whatever order** (`page_settles`), each submission ends with one turn, which has
its question and its own response, and the turns that are loading are as many as the submissions
that are not yet ended. **And texts stay texts** (`card_text_safe`): whatever a question, the name
of a contract, a claim, a reason or an error message contains, the page has the tags that it has
with all of them empty, and shows the texts, line ends normalised and NUL left out, as they are.

Styles, scrolling and the fetched address are left out; a response is either well formed or its body
cannot be read. A text with surrogates cannot be sent in a response, which is UTF-8; `Str.shown`
takes its place.
-/

namespace AuditFlow

open Foundation Foundation.Html

/-! ### Cards -/

/-- `STAMP_SYMBOL[v] || '?'`. -/
def stampSymbol : Verdict → String
  | .supported => "✓"
  | .partially => "~"
  | .unsupported => "✕"
  | .noAnswer => "?"

/-- `STAMP_LABEL[v] || v`. -/
def stampLabel : Verdict → String
  | .supported => "Verified"
  | .partially => "Partially supported"
  | .unsupported => "Not supported"
  | .noAnswer => "NO_ANSWER"

private def markup (m : String) : Piece := .markup m.toList

private def text (s : String) : Piece := .text s.toList

/-- `renderClarification`. -/
def renderClarification (candidates : List String) : List Piece :=
  [markup "\n      <div class=\"card notice\">\n        <div class=\"notice-title\">",
    markup "Multiple contracts matched</div>\n        ",
    markup "<p style=\"margin:0; color: var(--ink-soft); font-size: 0.92rem;\">\n          ",
    markup "Specify which contract you mean, or rephrase to include its name.\n        ",
    markup "</p>\n        <ul class=\"candidate-list\">"] ++
  candidates.flatMap (fun c => [markup "<li>", text c, markup "</li>"]) ++
  [markup "</ul>\n      </div>\n    "]

/-- `renderLowRelevance`; the name of the contract may be null. -/
def renderLowRelevance (topContract : Option String) : List Piece :=
  [markup "\n      <div class=\"card notice\">\n        <div class=\"notice-title\">",
    markup "Not confident enough to answer</div>\n        ",
    markup "<p style=\"margin:0; color: var(--ink-soft); font-size: 0.92rem;\">\n          ",
    markup "Found content in <strong>", text (topContract.getD ""),
    markup "</strong>, but it doesn't\n          clearly answer this question. ",
    markup "Try rephrasing or naming the contract directly.\n        </p>\n      </div>\n    "]

/-- A claim of `renderAnswer`; the verdict stands within a tag. -/
def renderClaim (claim : VerifiedClaim) : List Piece :=
  [markup ("\n        <div class=\"claim\">\n          <div class=\"stamp " ++
      claim.verdict.value ++ "\">" ++ stampSymbol claim.verdict ++ "</div>\n          "),
    markup ("<div class=\"claim-body\">\n            <div class=\"claim-meta " ++
      claim.verdict.value ++ "\">" ++ stampLabel claim.verdict ++ "</div>\n            "),
    markup "<div class=\"claim-text\">", text claim.text.shown,
    markup "</div>\n            <div class=\"claim-reason\">", text claim.reason.shown,
    markup "</div>\n          </div>\n        </div>\n      "]

/-- `renderAnswer`. -/
def renderAnswer (topContract : Option String) (claims : List VerifiedClaim) : List Piece :=
  [markup "\n      <div class=\"card\">\n        <div class=\"source-line\">Source — ",
    text (topContract.getD ""), markup "</div>\n        "] ++
  claims.flatMap renderClaim ++ [markup "\n      </div>\n    "]

/-- The card of an error, with its message. -/
def renderError (message : String) : List Piece :=
  [markup "\n        <div class=\"card notice\">\n          <div class=\"notice-title\">",
    markup "Connection error</div>\n          ",
    markup "<p style=\"margin:0; color: var(--ink-soft); font-size: 0.9rem;\">\n            ",
    markup "Couldn't reach AuditFlow's backend. ",
    markup "Make sure the API server is running. (", text message,
    markup ")\n          </p>\n        </div>\n      "]

/-- What becomes of a submission: a response, or the message of an error. -/
inductive Outcome
  | response (response : AskResponse)
  | failure (message : String)
  deriving DecidableEq

/-- The card for an outcome. -/
def renderOutcome : Outcome → List Piece
  | .response r => match r.status with
    | .needClarification => renderClarification r.candidateContracts
    | .lowRelevance => renderLowRelevance r.topContract
    | .answered => renderAnswer r.topContract r.claims
  | .failure message => renderError message

/-- What `renderTurn` writes into a turn. -/
def renderTurn (question : String) (card : List Piece) : List Piece :=
  [markup "\n      <div class=\"question\">", text question, markup "</div>\n      "] ++ card ++
    [markup "\n    "]

/-! ### Texts stay texts -/

/-- The outcome with all texts empty. -/
def Outcome.blank : Outcome → Outcome
  | .response r => .response { r with
      claims := r.claims.map fun claim => { claim with text := "", reason := "" }
      topContract := none
      candidateContracts := r.candidateContracts.map fun _ => "" }
  | .failure _ => .failure ""

/-- The texts of an outcome, in the order in which they are shown. -/
def Outcome.texts : Outcome → List String
  | .response r => match r.status with
    | .needClarification => r.candidateContracts
    | .lowRelevance => [r.topContract.getD ""]
    | .answered => r.topContract.getD "" ::
        r.claims.flatMap fun claim => [claim.text.shown, claim.reason.shown]
  | .failure message => [message]

private theorem text?_markup (m : String) : (markup m).text? = none := rfl

private theorem text?_text (s : String) : (text s).text? = some s.toList := rfl

private theorem fits_clarification (candidates : List String) :
    Fits (renderClarification candidates) := by
  have hitem (c : String) : Fits [markup "<li>", text c, markup "</li>"] :=
    .markup (by decide +kernel) (.text (by decide +kernel) .nil)
  refine Fits.append (Fits.append
    (.markup ?_ (.markup ?_ (.markup ?_ (.markup ?_ (.markup ?_ .nil)))))
    (.flatMap hitem candidates)) (.markup ?_ .nil)
  all_goals decide +kernel

private theorem fits_lowRelevance (topContract : Option String) :
    Fits (renderLowRelevance topContract) :=
  .markup (by decide +kernel) (.markup (by decide +kernel) (.markup (by decide +kernel)
    (.markup (by decide +kernel) (.text (by decide +kernel) (.markup (by decide +kernel) .nil)))))

/-- The verdicts end no tag. -/
private theorem fits_claim (claim : VerifiedClaim) : Fits (renderClaim claim) := by
  rw [renderClaim]
  generalize claim.verdict = verdict
  refine .markup ?_ (.markup ?_ (.markup (by decide +kernel) (.text (by decide +kernel)
    (.text (by decide +kernel) .nil))))
  · cases verdict <;> decide +kernel
  · cases verdict <;> decide +kernel

private theorem fits_answer (topContract : Option String) (claims : List VerifiedClaim) :
    Fits (renderAnswer topContract claims) := by
  refine Fits.append (Fits.append (.markup ?_ (.text ?_ .nil)) (.flatMap fits_claim claims))
    (.markup ?_ .nil)
  all_goals decide +kernel

private theorem fits_error (message : String) : Fits (renderError message) :=
  .markup (by decide +kernel) (.markup (by decide +kernel) (.markup (by decide +kernel)
    (.markup (by decide +kernel) (.markup (by decide +kernel) (.text (by decide +kernel) .nil)))))

private theorem fits_outcome (outcome : Outcome) : Fits (renderOutcome outcome) := by
  cases outcome with
  | failure message => exact fits_error message
  | response r =>
    rw [renderOutcome]
    split
    · exact fits_clarification _
    · exact fits_lowRelevance _
    · exact fits_answer _ _

private theorem fits_turn (question : String) (outcome : Outcome) :
    Fits (renderTurn question (renderOutcome outcome)) := by
  refine Fits.append (Fits.append (.markup ?_ (.text ?_ .nil)) (fits_outcome outcome))
    (.markup ?_ .nil)
  all_goals decide +kernel

/-- Without their texts, outcomes are rendered as those without texts. -/
private theorem map_blank_outcome (outcome : Outcome) :
    (renderOutcome outcome).map Piece.blank = renderOutcome outcome.blank := by
  cases outcome with
  | failure message => rfl
  | response r =>
    simp only [renderOutcome, Outcome.blank]
    split
    · simp only [renderClarification, List.map_append, List.map_flatMap, List.flatMap_map]
      rfl
    · rfl
    · simp only [renderAnswer, List.map_append, List.map_flatMap, List.flatMap_map]
      rfl

private theorem texts_outcome (outcome : Outcome) :
    (renderOutcome outcome).filterMap Piece.text? = outcome.texts.map String.toList := by
  cases outcome with
  | failure message => rfl
  | response r =>
    simp only [renderOutcome, Outcome.texts]
    split
    · simp only [renderClarification, List.filterMap_append, List.filterMap_flatMap,
        List.filterMap_cons, List.filterMap_nil, text?_markup, text?_text, List.nil_append,
        List.append_nil]
      exact List.map_eq_flatMap.symm
    · rfl
    · simp only [renderAnswer, renderClaim, List.filterMap_append, List.filterMap_flatMap,
        List.filterMap_cons, List.filterMap_nil, text?_markup, text?_text, List.append_nil,
        List.map_cons, List.map_flatMap, List.map_nil]
      rfl

/-- **Texts stay texts.** Whatever a question and an outcome contain, what is written into their
turn reads as the pieces of the templates, in which the texts are the question and those of the
outcome, as they are read; and its tags are those of the same turn with all texts empty. -/
theorem card_text_safe (question : String) (outcome : Outcome) :
    tokens (html (renderTurn question (renderOutcome outcome))) =
        (renderTurn question (renderOutcome outcome)).flatMap Piece.tokens ∧
      (renderTurn question (renderOutcome outcome)).filterMap Piece.text? =
        (question :: outcome.texts).map String.toList ∧
      (tokens (html (renderTurn question (renderOutcome outcome)))).filterMap Token.tag? =
        (tokens (html (renderTurn "" (renderOutcome outcome.blank)))).filterMap Token.tag? := by
  have hread := tokens_html (fits_turn question outcome)
  have hblank : (renderTurn question (renderOutcome outcome)).map Piece.blank =
      renderTurn "" (renderOutcome outcome.blank) := by
    rw [renderTurn, List.map_append, List.map_append, map_blank_outcome]
    rfl
  refine ⟨hread, ?_, ?_⟩
  · simp only [renderTurn, List.filterMap_append, texts_outcome, List.filterMap_cons,
      List.filterMap_nil, text?_markup, text?_text, List.append_nil, List.map_cons]
    rfl
  · rw [hread, tokens_html (fits_turn "" outcome.blank), tags_blank, hblank]

/-! ### The event loop -/

/-- What `String.prototype.trim` removes. -/
def isJsSpace (c : Char) : Bool :=
  (9 ≤ c.toNat && c.toNat ≤ 13) || c.toNat == 32 || c.toNat == 0xa0 || c.toNat == 0x1680 ||
    (0x2000 ≤ c.toNat && c.toNat ≤ 0x200a) || c.toNat == 0x2028 || c.toNat == 0x2029 ||
    c.toNat == 0x202f || c.toNat == 0x205f || c.toNat == 0x3000 || c.toNat == 0xfeff

/-- `s.trim()`. -/
def jsTrim (s : String) : String := String.ofList (Text.stripBy isJsSpace s.toList)

/-- A child of `main`. -/
inductive TurnNode
  /-- With the id `loadingTurn`. -/
  | loading (question : String)
  | turn (question : String) (card : List Piece)

/-- What a submission waits for. -/
inductive Stage
  | idle
  | fetching
  | reading
  | ended
  deriving DecidableEq

/-- What becomes of a fetch: it is rejected, or there is a response with a status. -/
inductive FetchOutcome
  | rejected (message : String)
  | response (ok : Bool) (status : ℕ)

/-- What happens to the page. -/
inductive PageEvent
  | edit (value : String)
  | enter
  | click
  /-- The fetch of a submission is settled. -/
  | fetched (i : ℕ) (outcome : FetchOutcome)
  /-- The body of its response is. -/
  | parsed (i : ℕ) (outcome : Except String AskResponse)

/-- The page, with the stages of the submissions. `ends` is bookkeeping: the submissions that have
ended, in order, each with the outcome that it was given. -/
structure Page where
  nodes : List TurnNode := []
  emptyState : Bool := true
  input : String := ""
  disabled : Bool := false
  questions : List String := []
  stage : ℕ → Stage := fun _ => .idle
  ends : List (ℕ × Outcome) := []

/-- The children without the first one that has the id `loadingTurn`, if there is one. -/
def removeLoading : List TurnNode → Option (List TurnNode)
  | [] => none
  | .loading _ :: nodes => some nodes
  | .turn question card :: nodes =>
    (removeLoading nodes).map fun nodes' => .turn question card :: nodes'

/-- `submitQuestion`, up to the response. -/
def submitQuestion (p : Page) : Page :=
  let question := jsTrim p.input
  if question = "" then p
  else { p with
    nodes := p.nodes ++ [.loading question]
    emptyState := false
    input := ""
    disabled := true
    questions := p.questions ++ [question]
    stage := Function.update p.stage p.questions.length .fetching }

/-- A submission ends with a turn, which shows a card, and the button is enabled. -/
def endWith (p : Page) (i : ℕ) (given : Outcome) (nodes : List TurnNode) (card : List Piece) :
    Page :=
  { p with
    nodes := nodes ++ [.turn (p.questions.getD i "") card]
    disabled := false
    stage := Function.update p.stage i .ended
    ends := p.ends ++ [(i, given)] }

/-- The `catch` block: a turn that is loading is removed if there is one. -/
def catchError (p : Page) (i : ℕ) (given : Outcome) (message : String) : Page :=
  endWith p i given ((removeLoading p.nodes).getD p.nodes) (renderError message)

/-- The rest of `submitQuestion` after an outcome. -/
def afterOutcome (p : Page) (i : ℕ) : Outcome → Page
  | .failure message => catchError p i (.failure message) message
  | .response r => match removeLoading p.nodes with
    | none => catchError p i (.response r) "Cannot read properties of null (reading 'remove')"
    | some nodes => endWith p i (.response r) nodes (renderOutcome (.response r))

/-- `Server returned ${response.status}`. -/
def statusMessage (status : ℕ) : String := "Server returned " ++ toString status

/-- One event; what a submission does not wait for does not reach it. -/
def pageStep (p : Page) : PageEvent → Page
  | .edit value => { p with input := value }
  | .enter => submitQuestion p
  | .click => if p.disabled then p else submitQuestion p
  | .fetched i outcome =>
    if p.stage i = .fetching then
      match outcome with
      | .rejected message => afterOutcome p i (.failure message)
      | .response true _ => { p with stage := Function.update p.stage i .reading }
      | .response false status => afterOutcome p i (.failure (statusMessage status))
    else p
  | .parsed i outcome =>
    if p.stage i = .reading then
      match outcome with
      | .ok r => afterOutcome p i (.response r)
      | .error message => afterOutcome p i (.failure message)
    else p

/-- A run of the page. -/
def pageRun (events : List PageEvent) : Page := events.foldl pageStep {}

/-- The submission that an event ends if it waits for it, with the outcome. -/
def PageEvent.outcome? : PageEvent → Option (ℕ × Outcome)
  | .fetched i (.rejected message) => some (i, .failure message)
  | .fetched i (.response false status) => some (i, .failure (statusMessage status))
  | .parsed i (.ok r) => some (i, .response r)
  | .parsed i (.error message) => some (i, .failure message)
  | .edit _ | .enter | .click | .fetched _ (.response true _) => none

/-- The question of a turn that is loading. -/
def TurnNode.loading? : TurnNode → Option String
  | .loading question => some question
  | .turn _ _ => none

/-- The question and the card of a turn that is not loading. -/
def TurnNode.turn? : TurnNode → Option (String × List Piece)
  | .loading _ => none
  | .turn question card => some (question, card)

/-! ### Submissions and turns -/

/-- What holds of a page. -/
private structure Orderly (p : Page) : Prop where
  loading : p.nodes.filterMap TurnNode.loading? = p.questions.drop p.ends.length
  turns : p.nodes.filterMap TurnNode.turn? =
    p.ends.map fun e => (p.questions.getD e.1 "", renderOutcome e.2)
  once : (p.ends.map Prod.fst).Nodup
  idle : ∀ i, p.stage i = .idle ↔ p.questions.length ≤ i
  ended : ∀ i, p.stage i = .ended ↔ i ∈ p.ends.map Prod.fst
  disabled : p.disabled = true → p.ends.length < p.questions.length
  emptyState : p.emptyState = true ↔ p.questions = []

section

variable {p : Page} {i : ℕ}

/-- The submissions that have ended are among those that there are. -/
private theorem Orderly.lt_of_ended (h : Orderly p) (hi : i ∈ p.ends.map Prod.fst) :
    i < p.questions.length := by
  refine Nat.lt_of_not_le fun hle => ?_
  have hidle := (h.idle i).mpr hle
  rw [(h.ended i).mpr hi] at hidle
  cases hidle

private theorem Orderly.ends_le (h : Orderly p) : p.ends.length ≤ p.questions.length := by
  have hsub : p.ends.map Prod.fst ⊆ List.range p.questions.length := fun i hi =>
    List.mem_range.mpr (h.lt_of_ended hi)
  simpa using (List.subperm_of_subset h.once hsub).length_le

/-- As long as a submission waits, there are more submissions than have ended. -/
private theorem Orderly.ends_lt (h : Orderly p) (hidle : p.stage i ≠ .idle)
    (hended : p.stage i ≠ .ended) : p.ends.length < p.questions.length := by
  have hnodup : (i :: p.ends.map Prod.fst).Nodup :=
    List.nodup_cons.mpr ⟨mt (h.ended i).mpr hended, h.once⟩
  have hsub : i :: p.ends.map Prod.fst ⊆ List.range p.questions.length := by
    refine List.cons_subset.mpr ⟨?_, fun j hj => List.mem_range.mpr (h.lt_of_ended hj)⟩
    exact List.mem_range.mpr (Nat.lt_of_not_le (mt (h.idle i).mpr hidle))
  have hle := (List.subperm_of_subset hnodup hsub).length_le
  rw [List.length_cons, List.length_map, List.length_range] at hle
  omega

/-- The first turn that is loading is removed, and no other turn. -/
private theorem removeLoading_of_loading {nodes : List TurnNode} {q : String} {qs : List String}
    (h : nodes.filterMap TurnNode.loading? = q :: qs) :
    ∃ nodes', removeLoading nodes = some nodes' ∧
      nodes'.filterMap TurnNode.loading? = qs ∧
      nodes'.filterMap TurnNode.turn? = nodes.filterMap TurnNode.turn? := by
  induction nodes with
  | nil => cases h
  | cons node nodes ih =>
    cases node with
    | loading question =>
      obtain ⟨-, hrest⟩ := List.cons.inj h
      exact ⟨nodes, rfl, hrest, rfl⟩
    | turn question card =>
      obtain ⟨nodes', hremove, hloading, hturns⟩ := ih h
      refine ⟨.turn question card :: nodes', by rw [removeLoading, hremove]; rfl, hloading, ?_⟩
      simp only [List.filterMap_cons, TurnNode.turn?, hturns]

/-- **Submitting** appends a turn that is loading. -/
private theorem Orderly.submit (h : Orderly p) : Orderly (submitQuestion p) := by
  rw [submitQuestion]
  split_ifs with hempty
  · exact h
  · have hle := h.ends_le
    have hnew : p.questions.length ∉ p.ends.map Prod.fst := fun hmem =>
      absurd (h.lt_of_ended hmem) (Nat.lt_irrefl _)
    refine ⟨?_, ?_, h.once, fun i => ?_, fun i => ?_, fun _ => ?_, ?_⟩
    · dsimp only
      rw [List.filterMap_append, h.loading, List.drop_append_of_le_length hle]
      rfl
    · dsimp only
      rw [List.filterMap_append, h.turns]
      refine (List.append_nil _).trans (List.map_congr_left fun e he => ?_)
      have hlt := h.lt_of_ended (List.mem_map_of_mem he)
      rw [List.getD_append _ _ _ _ hlt]
    · dsimp only
      rw [List.length_append, List.length_singleton]
      rcases eq_or_ne i p.questions.length with rfl | hne
      · rw [Function.update_self]
        exact iff_of_false Stage.noConfusion (by omega)
      · rw [Function.update_of_ne hne, h.idle]
        omega
    · dsimp only
      rcases eq_or_ne i p.questions.length with rfl | hne
      · rw [Function.update_self]
        exact iff_of_false Stage.noConfusion hnew
      · rw [Function.update_of_ne hne, h.ended]
    · dsimp only
      rw [List.length_append, List.length_singleton]
      omega
    · simp

/-- **An end** replaces the first turn that is loading by a turn with the outcome. -/
private theorem Orderly.finish (h : Orderly p) (hidle : p.stage i ≠ .idle)
    (hended : p.stage i ≠ .ended) (outcome : Outcome) :
    Orderly (afterOutcome p i outcome) ∧
      (afterOutcome p i outcome).ends = p.ends ++ [(i, outcome)] := by
  have hlt := h.ends_lt hidle hended
  have hne : p.questions.drop p.ends.length ≠ [] := by simpa using hlt
  obtain ⟨q, qs, hdrop⟩ := List.exists_cons_of_ne_nil hne
  obtain ⟨nodes, hremove, hloading, hturns⟩ := removeLoading_of_loading (h.loading.trans hdrop)
  have heq : afterOutcome p i outcome =
      endWith p i outcome nodes (renderOutcome outcome) := by
    cases outcome with
    | failure message => simp only [afterOutcome, catchError, hremove]; rfl
    | response r => simp only [afterOutcome, hremove]
  rw [heq]
  have hnew : i ∉ p.ends.map Prod.fst := mt (h.ended i).mpr hended
  have hqs : qs = p.questions.drop (p.ends.length + 1) := by
    rw [← List.tail_drop, hdrop, List.tail_cons]
  refine ⟨⟨?_, ?_, ?_, fun j => ?_, fun j => ?_, fun hdisabled => ?_, h.emptyState⟩, rfl⟩
  · dsimp only [endWith]
    rw [List.filterMap_append, hloading, hqs, List.length_append, List.length_singleton]
    exact List.append_nil _
  · dsimp only [endWith]
    rw [List.filterMap_append, hturns, h.turns, List.map_append]
    rfl
  · dsimp only [endWith]
    rw [List.map_append]
    exact List.nodup_append_comm.mp (List.nodup_cons.mpr ⟨hnew, h.once⟩)
  · dsimp only [endWith]
    rcases eq_or_ne j i with rfl | hj
    · rw [Function.update_self]
      exact iff_of_false Stage.noConfusion (mt (h.idle j).mpr hidle)
    · rw [Function.update_of_ne hj]
      exact h.idle j
  · dsimp only [endWith]
    rw [List.map_append, List.mem_append, ← h.ended]
    rcases eq_or_ne j i with rfl | hj
    · rw [Function.update_self]
      exact iff_of_true rfl (Or.inr List.mem_cons_self)
    · rw [Function.update_of_ne hj]
      simp [hj]
  · cases hdisabled

/-- A response has come; its body is still to be read. -/
private theorem Orderly.reading (h : Orderly p) (hstage : p.stage i = .fetching) :
    Orderly { p with stage := Function.update p.stage i .reading } := by
  refine ⟨h.loading, h.turns, h.once, fun j => ?_, fun j => ?_, h.disabled, h.emptyState⟩
  · dsimp only
    rcases eq_or_ne j i with rfl | hj
    · rw [Function.update_self, ← h.idle, hstage]
      exact iff_of_false Stage.noConfusion Stage.noConfusion
    · rw [Function.update_of_ne hj]
      exact h.idle j
  · dsimp only
    rcases eq_or_ne j i with rfl | hj
    · rw [Function.update_self, ← h.ended, hstage]
      exact iff_of_false Stage.noConfusion Stage.noConfusion
    · rw [Function.update_of_ne hj]
      exact h.ended j

/-- **Step lemma.** An event keeps the order, and ends at most the submission that it is about. -/
private theorem Orderly.step (h : Orderly p) (event : PageEvent) :
    Orderly (pageStep p event) ∧ ((pageStep p event).ends = p.ends ∨
      ∃ e, event.outcome? = some e ∧ (pageStep p event).ends = p.ends ++ [e]) := by
  have hkeep : ∀ q : Page, Orderly q ∧ q.ends = p.ends →
      Orderly q ∧ (q.ends = p.ends ∨ ∃ e, event.outcome? = some e ∧ q.ends = p.ends ++ [e]) :=
    fun q hq => ⟨hq.1, Or.inl hq.2⟩
  have hsubmit : (submitQuestion p).ends = p.ends := by
    rw [submitQuestion]
    split_ifs
    · rfl
    · rfl
  cases event with
  | edit value =>
    exact hkeep _ ⟨⟨h.loading, h.turns, h.once, h.idle, h.ended, h.disabled, h.emptyState⟩, rfl⟩
  | enter => exact hkeep _ ⟨h.submit, hsubmit⟩
  | click =>
    rw [pageStep]
    split_ifs
    · exact hkeep _ ⟨h, rfl⟩
    · exact hkeep _ ⟨h.submit, hsubmit⟩
  | fetched i outcome =>
    by_cases hstage : p.stage i = .fetching
    · have hidle : p.stage i ≠ .idle := by simp [hstage]
      have hended : p.stage i ≠ .ended := by simp [hstage]
      match outcome with
      | .rejected message =>
        rw [show pageStep p (.fetched i (.rejected message)) =
          afterOutcome p i (.failure message) from if_pos hstage]
        obtain ⟨horderly, hends⟩ := h.finish hidle hended (.failure message)
        exact ⟨horderly, Or.inr ⟨_, rfl, hends⟩⟩
      | .response true status =>
        rw [show pageStep p (.fetched i (.response true status)) = _ from if_pos hstage]
        exact hkeep _ ⟨h.reading hstage, rfl⟩
      | .response false status =>
        rw [show pageStep p (.fetched i (.response false status)) =
          afterOutcome p i (.failure (statusMessage status)) from if_pos hstage]
        obtain ⟨horderly, hends⟩ := h.finish hidle hended (.failure (statusMessage status))
        exact ⟨horderly, Or.inr ⟨_, rfl, hends⟩⟩
    · rw [show pageStep p (.fetched i outcome) = p from if_neg hstage]
      exact hkeep _ ⟨h, rfl⟩
  | parsed i outcome =>
    by_cases hstage : p.stage i = .reading
    · have hidle : p.stage i ≠ .idle := by simp [hstage]
      have hended : p.stage i ≠ .ended := by simp [hstage]
      cases outcome with
      | ok r =>
        rw [show pageStep p (.parsed i (.ok r)) = afterOutcome p i (.response r) from if_pos hstage]
        obtain ⟨horderly, hends⟩ := h.finish hidle hended (.response r)
        exact ⟨horderly, Or.inr ⟨_, rfl, hends⟩⟩
      | error message =>
        rw [show pageStep p (.parsed i (.error message)) =
          afterOutcome p i (.failure message) from if_pos hstage]
        obtain ⟨horderly, hends⟩ := h.finish hidle hended (.failure message)
        exact ⟨horderly, Or.inr ⟨_, rfl, hends⟩⟩
    · rw [show pageStep p (.parsed i outcome) = p from if_neg hstage]
      exact hkeep _ ⟨h, rfl⟩

/-- **Run lemma.** -/
private theorem orderly_pageRun (events : List PageEvent) :
    Orderly (pageRun events) ∧
      (pageRun events).ends.Sublist (events.filterMap PageEvent.outcome?) := by
  induction events using List.reverseRecOn with
  | nil =>
    refine ⟨⟨rfl, rfl, List.nodup_nil, fun i => ?_, fun i => ?_, Bool.noConfusion, ?_⟩,
      List.Sublist.refl []⟩
    · exact iff_of_true rfl (Nat.zero_le i)
    · exact iff_of_false Stage.noConfusion List.not_mem_nil
    · exact iff_of_true rfl rfl
  | append_singleton events event ih =>
    have hrun : pageRun (events ++ [event]) = pageStep (pageRun events) event := by
      rw [pageRun, List.foldl_append]
      rfl
    obtain ⟨horderly, hends⟩ := ih.1.step event
    rw [hrun, List.filterMap_append]
    refine ⟨horderly, ?_⟩
    rcases hends with hends | ⟨e, he, hends⟩
    · rw [hends]
      exact ih.2.trans (List.sublist_append_left _ _)
    · rw [hends]
      refine ih.2.append ?_
      rw [List.filterMap_cons, he]
      exact List.Sublist.refl [e]

end

/-- **Each submission ends with one turn.** Whatever is typed and submitted, and in whatever order
the responses and their bodies come or fail to come: the turns that are not loading are, in this
order, those of the submissions that have ended, each once, with its own question and the card of
the outcome that an event has brought it; the turns that are loading are those of the latest
submissions, as many as have not ended; and as long as the button is disabled, some have not. -/
theorem page_settles (events : List PageEvent) :
    ((pageRun events).nodes.filterMap TurnNode.turn? = (pageRun events).ends.map fun e =>
        ((pageRun events).questions.getD e.1 "", renderOutcome e.2)) ∧
      ((pageRun events).ends.map Prod.fst).Nodup ∧
      (pageRun events).ends.Sublist (events.filterMap PageEvent.outcome?) ∧
      (∀ i, i < (pageRun events).questions.length ↔ (pageRun events).stage i ≠ .idle) ∧
      (∀ i, (pageRun events).stage i = .ended ↔ i ∈ (pageRun events).ends.map Prod.fst) ∧
      (pageRun events).nodes.filterMap TurnNode.loading? =
        (pageRun events).questions.drop (pageRun events).ends.length ∧
      ((pageRun events).disabled = true →
        (pageRun events).ends.length < (pageRun events).questions.length) ∧
      ((pageRun events).emptyState = true ↔ (pageRun events).questions = []) := by
  obtain ⟨h, hends⟩ := orderly_pageRun events
  refine ⟨h.turns, h.once, hends, fun i => ?_, h.ended, h.loading, h.disabled, h.emptyState⟩
  rw [Ne, h.idle, Nat.not_le]

/-- Two questions at a time; the second one is answered first, and takes the loading turn of the
first one away. -/
example :
    (pageRun [.edit " Term? ", .enter, .edit "Law?", .enter, .fetched 1 (.response true 200),
      .parsed 1 (.ok (.lowRelevance none))]).nodes.map TurnNode.loading? =
        [some "Law?", none] := by
  decide +kernel

end AuditFlow
