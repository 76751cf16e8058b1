import AuditFlow.Foundation.Exc
import AuditFlow.Core.Chat
import AuditFlow.Ingest.Models

/-!
# The judge

`verification/verify.py`: each generated claim is either settled without a model call
(`preLlmVerdict`) or put to the judge, whose reply is retried while the call fails or the reply
does not parse.

The synchronous and the asynchronous function differ in the client they call and in the semaphore,
which bounds how many claims are judged at once and touches no result, so both are
`verifyWith`. `verifyWith_cases` says **exactly which verdicts come back and why**; everything
else is read off it.
-/

namespace AuditFlow

open Foundation

/-- `PROMPT.format(source_text=…, claim_text=…)`. -/
def verifyPrompt (sourceText claimText : String) : String :=
  "You are a strict fact-checker reviewing whether a claim is supported by a source text.\n" ++
  " \n" ++
  "Source text:\n" ++
  "\"" ++ sourceText ++ "\"\n" ++
  " \n" ++
  "Claim:\n" ++
  "\"" ++ claimText ++ "\"\n" ++
  " \n" ++
  "Question: Does the source text fully support the claim? Check carefully:\n" ++
  "- Are all conditions, dates, amounts, and qualifiers in the claim actually present in the " ++
  "source?\n" ++
  "- Does the source explicitly say this, or does the claim add/assume something not stated?\n" ++
  "- A claim that drops a qualifier (e.g. a date range, a condition, a party name) present in " ++
  "the source is only PARTIAL, not SUPPORTED.\n" ++
  " \n" ++
  "Respond with ONLY valid JSON, no other text, no markdown fences:\n" ++
  "\x7b\"verdict\": \"SUPPORTED\" | \"PARTIAL\" | \"UNSUPPORTED\", " ++
  "\"reason\": \"one sentence explanation\"\x7d"

/-- `build_chunk_lookup`: chunk id to chunk text, the last chunk winning on a repeated id. -/
def buildChunkLookup (allChunks : List ChunkRecord) : Dict String String :=
  Dict.empty.setAll ChunkRecord.chunkId ChunkRecord.rawChunkText allChunks

/-- `_pre_llm_verdict`. -/
def preLlmVerdict (claim : Claim) (chunkLookup : Dict String String) : Option VerifiedClaim :=
  if claim.text = "" then
    some { text := claim.text, sourceChunkId := claim.sourceChunkId, verdict := .unsupported,
           reason := "Claim has no text content." }
  else match claim.sourceChunkId with
    | none =>
      some { text := claim.text, sourceChunkId := none, verdict := .noAnswer,
             reason := "Model indicated the excerpts don't contain enough information to answer." }
    | some id =>
      match chunkLookup.lookup id with
      | none =>
        some { text := claim.text, sourceChunkId := claim.sourceChunkId, verdict := .unsupported,
               reason := "Cited source_chunk_id not found in corpus." }
      | some _ => none

/-- The common body of `verify_claim` and `verify_claim_async`. What the judge makes of a prompt
with a surrogate is the judge's own: it is put as it would be shown. -/
def verifyWith (rt : Runtime) (client : ChatClient) (claim : Claim)
    (chunkLookup : Dict String String) (maxRetries : ℤ) : Except PyError VerifiedClaim :=
  match preLlmVerdict claim chunkLookup with
  | some v => .ok v
  | none =>
    match claim.sourceChunkId.bind chunkLookup.lookup with
    | none => .error { cls := .keyError, message := "source_chunk_id" }
    | some sourceText =>
      let prompt := verifyPrompt sourceText claim.text.shown
      match chatLoop rt JudgeVerdict.schema client prompt maxRetries with
      | .done judged =>
        .ok { text := claim.text, sourceChunkId := claim.sourceChunkId,
              verdict := judged.verdict, reason := judged.reason }
      | .abort e => .error e
      | .exhausted lastError =>
        .ok { text := claim.text, sourceChunkId := claim.sourceChunkId, verdict := .unsupported,
              reason := s!"Judge failed to respond validly: {lastErrorText lastError}" }

/-- `verify_claim`, over the synchronous client. -/
def verifyClaim (rt : Runtime) (client : ChatClient) (claim : Claim)
    (chunkLookup : Dict String String) (maxRetries : ℤ := 2) : Except PyError VerifiedClaim :=
  verifyWith rt client claim chunkLookup maxRetries

/-- `verify_claim_async`, over the asynchronous client. -/
def verifyClaimAsync (rt : Runtime) (asyncClient : ChatClient) (claim : Claim)
    (chunkLookup : Dict String String) (maxRetries : ℤ := 2) : Except PyError VerifiedClaim :=
  verifyWith rt asyncClient claim chunkLookup maxRetries

/-- `_verify_all_claims_async`: one task per claim, results in claim order, a raise in a task
raised by the gather (of several, the one of the first claim stands for the first in time). The
judge answers per position in the batch. -/
def verifyAllClaimsAsync (rt : Runtime) (judge : ℕ → ChatClient) (claims : List Claim)
    (chunkLookup : Dict String String) : Except PyError (List VerifiedClaim) :=
  claims.zipIdx.mapM fun c => verifyClaimAsync rt (judge c.2) c.1 chunkLookup

/-- `verify_all_claims`. -/
def verifyAllClaims (rt : Runtime) (judge : ℕ → ChatClient) (claims : List Claim)
    (chunkLookup : Dict String String) : Except PyError (List VerifiedClaim) :=
  if claims.isEmpty then .ok []
  else match verifyAllClaimsAsync rt judge claims chunkLookup with
    | .ok vs => .ok vs
    | .error e =>
      .error { cls := .verificationError, message := "Verification batch failed unexpectedly",
               cause := some e.cls }

/-! ### What comes back -/

/-- The claim goes to the judge, against `sourceText`: it has text and cites a chunk of the
lookup. -/
def Judged (claim : Claim) (chunkLookup : Dict String String) (sourceText : String) : Prop :=
  claim.text ≠ "" ∧
    ∃ id, claim.sourceChunkId = some id ∧ chunkLookup.lookup id = some sourceText

theorem preLlmVerdict_eq_none_iff {claim : Claim} {chunkLookup : Dict String String} :
    preLlmVerdict claim chunkLookup = none ↔ ∃ sourceText, Judged claim chunkLookup sourceText := by
  rw [preLlmVerdict]
  by_cases htext : claim.text = ""
  · simp [Judged, htext]
  rw [if_neg htext]
  rcases hid : claim.sourceChunkId with - | id
  · simp [Judged, hid]
  · rcases hget : chunkLookup.lookup id with - | sourceText <;> simp [Judged, htext, hid, hget]

/-- A pre-check never changes the text or the citation, and never vouches for a claim; it says
`NO_ANSWER` exactly for a claim with text and without a citation. -/
theorem preLlmVerdict_eq_some {claim : Claim} {chunkLookup : Dict String String}
    {v : VerifiedClaim} (h : preLlmVerdict claim chunkLookup = some v) :
    v.text = claim.text ∧ v.sourceChunkId = claim.sourceChunkId ∧
      (v.verdict = .noAnswer ∨ v.verdict = .unsupported) ∧
      (v.verdict = .noAnswer ↔ claim.text ≠ "" ∧ claim.sourceChunkId = none) := by
  rw [preLlmVerdict] at h
  by_cases htext : claim.text = ""
  · rw [if_pos htext] at h
    cases h
    simp [htext]
  rw [if_neg htext] at h
  rcases hid : claim.sourceChunkId with - | id
  · rw [hid] at h
    cases h
    simp [htext]
  · simp only [hid] at h
    rcases hget : chunkLookup.lookup id with - | sourceText
    · rw [hget] at h
      cases h
      simp
    · simp [hget] at h

section

variable {rt : Runtime} {client : ChatClient} {claim : Claim} {chunkLookup : Dict String String}
  {maxRetries : ℤ} {v : VerifiedClaim}

/-- The verified claim that carries a verdict of the judge. -/
def Claim.withVerdict (claim : Claim) (judged : JudgeVerdict) : VerifiedClaim :=
  { text := claim.text, sourceChunkId := claim.sourceChunkId, verdict := judged.verdict,
    reason := judged.reason }

/-- For a claim that goes to the judge, verification is the chat loop on its prompt. -/
theorem verifyWith_of_judged {sourceText : String} (h : Judged claim chunkLookup sourceText) :
    verifyWith rt client claim chunkLookup maxRetries =
      match chatLoop rt JudgeVerdict.schema client (verifyPrompt sourceText claim.text.shown)
          maxRetries with
      | .done judged => .ok (claim.withVerdict judged)
      | .abort e => .error e
      | .exhausted lastError => .ok (claim.withVerdict
          { verdict := .unsupported,
            reason := s!"Judge failed to respond validly: {lastErrorText lastError}" }) := by
  have hpre : preLlmVerdict claim chunkLookup = none := preLlmVerdict_eq_none_iff.mpr ⟨_, h⟩
  obtain ⟨-, id, hid, hget⟩ := h
  simp only [verifyWith, hpre, hid, Option.bind_some, hget, Claim.withVerdict]

/-- **Every returned claim** is a pre-check's, a verdict of the judge, or the fail-safe. -/
theorem verifyWith_cases (h : verifyWith rt client claim chunkLookup maxRetries = .ok v) :
    preLlmVerdict claim chunkLookup = some v ∨
      ∃ sourceText, Judged claim chunkLookup sourceText ∧
        ((∃ judged, v = claim.withVerdict judged ∧
            FirstAccepted rt JudgeVerdict.schema client (verifyPrompt sourceText claim.text.shown)
              (maxRetries + 1).toNat judged) ∨
          ∃ reason, v = claim.withVerdict { verdict := .unsupported, reason }) := by
  rcases hpre : preLlmVerdict claim chunkLookup with - | v'
  · right
    obtain ⟨sourceText, hj⟩ := preLlmVerdict_eq_none_iff.mp hpre
    refine ⟨sourceText, hj, ?_⟩
    rw [verifyWith_of_judged hj] at h
    rcases hloop : chatLoop rt JudgeVerdict.schema client (verifyPrompt sourceText claim.text.shown)
        maxRetries with judged | e | last
    · rw [hloop] at h
      exact Or.inl ⟨judged, (Except.ok.inj h).symm, chatLoop_eq_done_iff.mp hloop⟩
    · rw [hloop] at h
      cases h
    · rw [hloop] at h
      exact Or.inr ⟨_, (Except.ok.inj h).symm⟩
  · left
    simpa [verifyWith, hpre] using h

/-- Verification keeps the text and the citation of a claim. -/
theorem verifyWith_source (h : verifyWith rt client claim chunkLookup maxRetries = .ok v) :
    v.text = claim.text ∧ v.sourceChunkId = claim.sourceChunkId := by
  rcases verifyWith_cases h with hpre | ⟨-, -, ⟨-, rfl, -⟩ | ⟨-, rfl⟩⟩
  · obtain ⟨htext, hsource, -⟩ := preLlmVerdict_eq_some hpre
    exact ⟨htext, hsource⟩
  · exact ⟨rfl, rfl⟩
  · exact ⟨rfl, rfl⟩

/-- **A claim is vouched for only by the judge.** -/
theorem verifyWith_vouched (h : verifyWith rt client claim chunkLookup maxRetries = .ok v)
    (hv : v.verdict = .supported ∨ v.verdict = .partially) :
    ∃ sourceText, Judged claim chunkLookup sourceText ∧
      ∃ judged, judged.verdict = v.verdict ∧
        FirstAccepted rt JudgeVerdict.schema client (verifyPrompt sourceText claim.text.shown)
          (maxRetries + 1).toNat judged := by
  rcases verifyWith_cases h with hpre | ⟨sourceText, hj, ⟨judged, rfl, hfirst⟩ | ⟨_, rfl⟩⟩
  · obtain ⟨-, -, hneg, -⟩ := preLlmVerdict_eq_some hpre
    rcases hv with hv | hv <;> rw [hv] at hneg <;> simp at hneg
  · exact ⟨sourceText, hj, judged, rfl, hfirst⟩
  · simp [Claim.withVerdict] at hv

end

/-! ### Declines -/

/-- Verification returned a claim with the given verdict. -/
def Returns (r : Except PyError VerifiedClaim) (verdict : Verdict) : Prop :=
  ∃ v, r = .ok v ∧ v.verdict = verdict

/-- The judge declines in place of the generator: the claim has text and cites a chunk, and the
first reply that the loop does not retry is a valid one with the verdict `NO_ANSWER`. -/
def JudgeDeclines (rt : Runtime) (client : ChatClient) (claim : Claim)
    (chunkLookup : Dict String String) (maxRetries : ℤ) : Prop :=
  ∃ sourceText reason, Judged claim chunkLookup sourceText ∧
    FirstAccepted rt JudgeVerdict.schema client (verifyPrompt sourceText claim.text.shown)
      (maxRetries + 1).toNat { verdict := .noAnswer, reason }

section

variable (rt : Runtime) (client : ChatClient) (claim : Claim) (chunkLookup : Dict String String)
  (maxRetries : ℤ)

/-- `NO_ANSWER` comes back for a claim without a citation, and when the judge declines. -/
theorem verifyWith_returns_noAnswer_iff :
    Returns (verifyWith rt client claim chunkLookup maxRetries) .noAnswer ↔
      (claim.text ≠ "" ∧ claim.sourceChunkId = none) ∨
        JudgeDeclines rt client claim chunkLookup maxRetries := by
  constructor
  · rintro ⟨v, hv, hverdict⟩
    rcases verifyWith_cases hv with hpre | ⟨sourceText, hj, ⟨judged, rfl, hfirst⟩ | ⟨_, rfl⟩⟩
    · exact Or.inl ((preLlmVerdict_eq_some hpre).2.2.2.mp hverdict)
    · obtain ⟨verdict, reason⟩ := judged
      obtain rfl : verdict = .noAnswer := hverdict
      exact Or.inr ⟨sourceText, reason, hj, hfirst⟩
    · simp [Claim.withVerdict] at hverdict
  · rintro (⟨htext, hsource⟩ | ⟨sourceText, reason, hj, hfirst⟩)
    · simp only [verifyWith, preLlmVerdict, if_neg htext, hsource]
      exact ⟨_, rfl, rfl⟩
    · rw [verifyWith_of_judged hj, chatLoop_eq_done_iff.mpr hfirst]
      exact ⟨_, rfl, rfl⟩

/-- A declining judge and a claim without a citation exclude each other. -/
private theorem not_judgeDeclines_of_source_none (h : claim.sourceChunkId = none) :
    ¬JudgeDeclines rt client claim chunkLookup maxRetries := by
  rintro ⟨-, -, ⟨-, id, hid, -⟩, -⟩
  rw [h] at hid
  cases hid

private theorem noAnswer_marks_declines_of_verifyWith :
    (Returns (verifyWith rt client claim chunkLookup maxRetries) .noAnswer ↔
        claim.text ≠ "" ∧ claim.sourceChunkId = none) ↔
      ¬JudgeDeclines rt client claim chunkLookup maxRetries := by
  rw [verifyWith_returns_noAnswer_iff]
  constructor
  · intro hiff hdec
    exact not_judgeDeclines_of_source_none rt client claim chunkLookup maxRetries
      (hiff.mp (Or.inr hdec)).2 hdec
  · intro hdec
    exact ⟨fun h => h.resolve_right hdec, Or.inl⟩

/-- **`NO_ANSWER` marks declines** — of either function, on any replies — **exactly as long as the
judge itself does not decline**: the schema its reply is parsed into is the full enumeration. -/
theorem noAnswer_marks_declines_iff (asyncClient : ChatClient) :
    ((Returns (verifyClaim rt client claim chunkLookup maxRetries) .noAnswer ↔
          claim.text ≠ "" ∧ claim.sourceChunkId = none) ↔
        ¬JudgeDeclines rt client claim chunkLookup maxRetries) ∧
      ((Returns (verifyClaimAsync rt asyncClient claim chunkLookup maxRetries) .noAnswer ↔
          claim.text ≠ "" ∧ claim.sourceChunkId = none) ↔
        ¬JudgeDeclines rt asyncClient claim chunkLookup maxRetries) :=
  ⟨noAnswer_marks_declines_of_verifyWith rt client claim chunkLookup maxRetries,
    noAnswer_marks_declines_of_verifyWith rt asyncClient claim chunkLookup maxRetries⟩

end

/-- A judge that answers `NO_ANSWER` turns a claim that cites a chunk into a decline. -/
theorem judge_declines_cited_claim :
    let client : ChatClient := fun _ _ =>
      .ok (.content (some "\x7b\"verdict\": \"NO_ANSWER\", \"reason\": \"n/a\"\x7d"))
    let claim : Claim := { text := "t", sourceChunkId := some "c1" }
    let chunkLookup := Dict.empty.set "c1"
      "The notice period is 30 days from the date of written notice."
    ¬(Returns (verifyClaim Runtime.example client claim chunkLookup) .noAnswer ↔
        claim.text ≠ "" ∧ claim.sourceChunkId = none) ∧
      ¬(Returns (verifyClaimAsync Runtime.example client claim chunkLookup) .noAnswer ↔
        claim.text ≠ "" ∧ claim.sourceChunkId = none) := by
  intro client claim chunkLookup
  have hreturns : Returns (verifyWith Runtime.example client claim chunkLookup 2) .noAnswer :=
    ⟨⟨"t", some "c1", .noAnswer, "n/a"⟩, by decide, rfl⟩
  have hcited : ¬(claim.text ≠ "" ∧ claim.sourceChunkId = none) := by decide
  exact ⟨fun h => hcited (h.mp hreturns), fun h => hcited (h.mp hreturns)⟩

/-! ### Batches -/

/-- **A batch is verified claim by claim**, each result in the place of its claim. -/
theorem verifyAllClaims_getElem? {rt : Runtime} {judge : ℕ → ChatClient} {claims : List Claim}
    {chunkLookup : Dict String String} {vs : List VerifiedClaim}
    (h : verifyAllClaims rt judge claims chunkLookup = .ok vs) :
    vs.length = claims.length ∧
      ∀ (i : ℕ) (c : Claim) (v : VerifiedClaim), claims[i]? = some c → vs[i]? = some v →
        verifyClaimAsync rt (judge i) c chunkLookup = .ok v := by
  have hall : verifyAllClaimsAsync rt judge claims chunkLookup = .ok vs := by
    rw [verifyAllClaims] at h
    split_ifs at h with hempty
    · obtain rfl := List.isEmpty_iff.mp hempty
      exact h
    · rcases hall : verifyAllClaimsAsync rt judge claims chunkLookup with e | vs'
      · rw [hall] at h
        cases h
      · rw [hall] at h
        exact congrArg Except.ok (Except.ok.inj h)
  obtain ⟨hlength, hget⟩ := getElem?_of_mapM_eq_ok hall
  refine ⟨by simpa using hlength, fun i c v hc hv => ?_⟩
  have hi : claims.zipIdx[i]? = some (c, i) := by simp [List.getElem?_zipIdx, hc]
  exact hget i (c, i) v hi hv

end AuditFlow
