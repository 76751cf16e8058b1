import AuditFlow.Foundation.Retry
import AuditFlow.Core.JsonExtraction

/-!
# Retrying a chat endpoint

The generator and the judge call a chat endpoint in the same loop
(`for attempt in range(max_retries + 1)`): a call that raises is retried, a reply that
`parse_llm_json` rejects as undecodable or invalid is retried, and whatever else the reply raises
leaves the loop.

An endpoint is an arbitrary function of the attempt number and the prompt, so a theorem about
every `ChatClient` holds for **every sequence of replies and failures**. `Accepts` and `Rejects`
name the two outcomes of an attempt that the loop distinguishes, and `FirstAccepted` the outcome of
the loop in terms of them.
-/

namespace AuditFlow

open Foundation

/-- A completed chat call: a message whose content may be null, or a response object on which
reading the content raises. -/
inductive ChatReply
  | content (text : Option String)
  | malformed (e : PyError)

/-- A chat endpoint as a retry loop sees it: what the call made on an attempt with a prompt
does. -/
abbrev ChatClient : Type := ℕ → String → Except PyError ChatReply

/-- `str(last_error)`. -/
def lastErrorText : Option PyError → String
  | none => "None"
  | some e => e.message

section

variable {α : Type} (rt : Runtime) (schema : Schema α) (client : ChatClient) (prompt : String)

/-- The body of the loop. -/
def chatAttempt (attempt : ℕ) : Attempt PyError α :=
  match client attempt prompt with
  | .error e => .retry e
  | .ok (.malformed e) => .abort e
  | .ok (.content raw) =>
    match parseLlmJson rt raw schema with
    | .ok a => .done a
    | .error e => if e.isParseFailure then .retry e else .abort e

/-- `range(max_retries + 1)` attempts. -/
def chatLoop (maxRetries : ℤ) : Retried PyError α :=
  retryLoop (chatAttempt rt schema client prompt) (maxRetries + 1).toNat 0 none

/-- The reply of the attempt arrived and `parse_llm_json` accepted it as `a`. -/
def Accepts (attempt : ℕ) (a : α) : Prop :=
  ∃ raw, client attempt prompt = .ok (.content raw) ∧ parseLlmJson rt raw schema = .ok a

/-- The attempt failed in a way the loop retries: the call raised, or its reply did not decode or
did not validate. -/
def Rejects (attempt : ℕ) : Prop :=
  (∃ e, client attempt prompt = .error e) ∨
    ∃ raw e, client attempt prompt = .ok (.content raw) ∧
      parseLlmJson rt raw schema = .error e ∧ e.isParseFailure = true

/-- Among the attempts made, the first that is not retried is accepted as `a`. -/
def FirstAccepted (attempts : ℕ) (a : α) : Prop :=
  ∃ j < attempts, Accepts rt schema client prompt j a ∧
    ∀ i < j, Rejects rt schema client prompt i

/-- The reply of the attempt arrived, and reading or parsing it raised `e`, which the loop does not
retry. -/
def Breaks (attempt : ℕ) (e : PyError) : Prop :=
  client attempt prompt = .ok (.malformed e) ∨
    ∃ raw, client attempt prompt = .ok (.content raw) ∧
      parseLlmJson rt raw schema = .error e ∧ e.isParseFailure = false

/-- Among the attempts made, the first that is not retried breaks with `e`. -/
def FirstBroken (attempts : ℕ) (e : PyError) : Prop :=
  ∃ j < attempts, Breaks rt schema client prompt j e ∧
    ∀ i < j, Rejects rt schema client prompt i

variable {rt schema client prompt}

theorem chatAttempt_eq_done_iff {j : ℕ} {a : α} :
    chatAttempt rt schema client prompt j = .done a ↔ Accepts rt schema client prompt j a := by
  rw [chatAttempt, Accepts]
  rcases hc : client j prompt with e | raw | e
  · simp
  · simp only [Except.ok.injEq, ChatReply.content.injEq, exists_eq_left']
    rcases hp : parseLlmJson rt raw schema with e | b
    · by_cases he : e.isParseFailure = true <;> simp [he]
    · simp
  · simp

theorem chatAttempt_eq_abort_iff {j : ℕ} {e : PyError} :
    chatAttempt rt schema client prompt j = .abort e ↔ Breaks rt schema client prompt j e := by
  rw [chatAttempt, Breaks]
  rcases hc : client j prompt with e' | raw | e'
  · simp
  · simp only [reduceCtorEq, false_or, Except.ok.injEq, ChatReply.content.injEq, exists_eq_left']
    rcases hp : parseLlmJson rt raw schema with e' | b
    · dsimp only
      by_cases he : e'.isParseFailure = true
      · rw [if_pos he]
        simp only [reduceCtorEq, Except.error.injEq, false_iff, not_and]
        rintro rfl
        simp [he]
      · rw [if_neg he, Attempt.abort.injEq, Except.error.injEq]
        constructor
        · rintro rfl
          exact ⟨rfl, Bool.eq_false_of_not_eq_true he⟩
        · exact And.left
    · simp
  · simp

theorem chatAttempt_swallowed_iff {j : ℕ} :
    (chatAttempt rt schema client prompt j).Swallowed ↔ Rejects rt schema client prompt j := by
  rw [chatAttempt, Rejects]
  rcases hc : client j prompt with e | raw | e
  · simp [Attempt.Swallowed]
  · simp only [reduceCtorEq, exists_false, Except.ok.injEq, ChatReply.content.injEq, false_or]
    rcases hp : parseLlmJson rt raw schema with e | b
    · by_cases he : e.isParseFailure = true <;> simp [he, hp, Attempt.Swallowed]
    · simp [hp, Attempt.Swallowed]
  · simp [Attempt.Swallowed]

/-- **The loop returns** exactly the first reply that is not retried, if it is accepted. -/
theorem chatLoop_eq_done_iff {maxRetries : ℤ} {a : α} :
    chatLoop rt schema client prompt maxRetries = .done a ↔
      FirstAccepted rt schema client prompt (maxRetries + 1).toNat a := by
  rw [chatLoop, retryLoop_eq_done_iff, FirstAccepted]
  simp only [Nat.zero_add, chatAttempt_eq_done_iff, chatAttempt_swallowed_iff]

/-- **The loop is left by an exception** exactly when the first reply that is not retried breaks
with it. -/
theorem chatLoop_eq_abort_iff {maxRetries : ℤ} {e : PyError} :
    chatLoop rt schema client prompt maxRetries = .abort e ↔
      FirstBroken rt schema client prompt (maxRetries + 1).toNat e := by
  rw [chatLoop, retryLoop_eq_abort_iff, FirstBroken]
  simp only [Nat.zero_add, chatAttempt_eq_abort_iff, chatAttempt_swallowed_iff]

end

end AuditFlow
