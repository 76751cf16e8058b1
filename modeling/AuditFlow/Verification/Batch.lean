import AuditFlow.Foundation.Gather
import AuditFlow.Verification.Verify
import Mathlib.Data.List.OfFn

/-!
# Batches of claims

`verify_all_claims` judges all claims of an answer at once: one task per claim, at most eight of
them inside a semaphore, each with a retry loop of its own. The loop of `verify_claim_async` is
written a second time here, as it runs: **round by round**, with other tasks going on in between.

Whatever the schedule, a batch ends with the list of what `verify_claim` returns claim by claim
(`batch_eq_one_by_one`). A claim that the judge does not answer for is returned as unsupported, but
this fail-safe **has gaps**: some replies make verification raise, and with it that of the whole
batch. `failsSafe_iff` says which.
-/

namespace AuditFlow

open Foundation

/-! ### One task -/

/-- Where a `verify_claim_async` waits: in its retry loop, before the reply to an attempt. -/
structure VerifyPlace where
  prompt : String
  attempt : ℕ
  lastError : Option PyError

/-- `MAX_CONCURRENT_VERIFICATIONS`. -/
def maxConcurrentVerifications : ℕ := 8

section

variable (rt : Runtime) (client : ChatClient) (claim : Claim) (chunkLookup : Dict String String)
  (maxRetries : ℤ)

/-- A round of the retry loop: a reply, and what is done with it; after the last one, the
fail-safe. -/
def verifyRound (place : VerifyPlace) : Except PyError VerifiedClaim ⊕ VerifyPlace :=
  if place.attempt < (maxRetries + 1).toNat then
    match client place.attempt place.prompt with
    | .error e => .inr { place with attempt := place.attempt + 1, lastError := some e }
    | .ok (.malformed e) => .inl (.error e)
    | .ok (.content raw) =>
      match parseLlmJson rt raw JudgeVerdict.schema with
      | .ok judged =>
        .inl (.ok { text := claim.text, sourceChunkId := claim.sourceChunkId
                    verdict := judged.verdict, reason := judged.reason })
      | .error e =>
        if e.isParseFailure then
          .inr { place with attempt := place.attempt + 1, lastError := some e }
        else .inl (.error e)
  else
    .inl (.ok { text := claim.text, sourceChunkId := claim.sourceChunkId, verdict := .unsupported
                reason := s!"Judge failed to respond validly: {lastErrorText place.lastError}" })

/-- `verify_claim_async`, as a task. -/
def verifyTask : Task VerifyPlace (Except PyError VerifiedClaim) where
  start :=
    match preLlmVerdict claim chunkLookup with
    | some v => .inl (.ok v)
    | none =>
      match claim.sourceChunkId.bind chunkLookup.lookup with
      | none => .inl (.error { cls := .keyError, message := "source_chunk_id" })
      | some sourceText => .inr ⟨verifyPrompt sourceText claim.text.shown, 0, none⟩
  goOn := verifyRound rt client claim maxRetries

end

section

variable {rt : Runtime} {client : ChatClient} {claim : Claim} {chunkLookup : Dict String String}
  {maxRetries : ℤ}

/-- What becomes of a claim after its retry loop. -/
def Claim.afterLoop (claim : Claim) : Retried PyError JudgeVerdict → Except PyError VerifiedClaim
  | .done judged => .ok (claim.withVerdict judged)
  | .abort e => .error e
  | .exhausted lastError => .ok (claim.withVerdict
      { verdict := .unsupported,
        reason := s!"Judge failed to respond validly: {lastErrorText lastError}" })

/-- The place before the next attempt. -/
private def VerifyPlace.next (place : VerifyPlace) (e : PyError) : VerifyPlace :=
  { place with attempt := place.attempt + 1, lastError := some e }

/-- A round is an attempt of the loop of `verify_claim`. -/
private theorem verifyRound_of_lt {place : VerifyPlace}
    (h : place.attempt < (maxRetries + 1).toNat) :
    verifyRound rt client claim maxRetries place =
      match chatAttempt rt JudgeVerdict.schema client place.prompt place.attempt with
      | .done judged => .inl (.ok (claim.withVerdict judged))
      | .abort e => .inl (.error e)
      | .retry e => .inr (place.next e) := by
  rw [verifyRound, if_pos h, chatAttempt]
  rcases client place.attempt place.prompt with e | raw | e
  · rfl
  · dsimp only
    rcases parseLlmJson rt raw JudgeVerdict.schema with e | judged
    · dsimp only
      split_ifs
      · rfl
      · rfl
    · rfl
  · rfl

/-- The loop of `verify_claim` from a place on is one round, and the loop from where it leads. -/
private theorem afterLoop_eq (place : VerifyPlace) :
    claim.afterLoop (retryLoop (chatAttempt rt JudgeVerdict.schema client place.prompt)
        ((maxRetries + 1).toNat - place.attempt) place.attempt place.lastError) =
      (verifyRound rt client claim maxRetries place).elim id fun place' =>
        claim.afterLoop (retryLoop (chatAttempt rt JudgeVerdict.schema client place'.prompt)
          ((maxRetries + 1).toNat - place'.attempt) place'.attempt place'.lastError) := by
  by_cases hlt : place.attempt < (maxRetries + 1).toNat
  · obtain ⟨left, hleft⟩ : ∃ left, (maxRetries + 1).toNat - place.attempt = left + 1 :=
      ⟨_, (Nat.succ_pred_eq_of_pos (by omega)).symm⟩
    rw [verifyRound_of_lt hlt, hleft, retryLoop]
    cases hattempt : chatAttempt rt JudgeVerdict.schema client place.prompt place.attempt with
    | done judged => rfl
    | abort e => rfl
    | retry e =>
      have hleft' : (maxRetries + 1).toNat - (place.next e).attempt = left := by
        rw [VerifyPlace.next]
        dsimp only
        omega
      dsimp only [Sum.elim_inr]
      rw [hleft']
      rfl
  · have hnone : (maxRetries + 1).toNat - place.attempt = 0 := by omega
    rw [hnone, retryLoop, verifyRound, if_neg hlt]
    rfl

/-- **The two loops agree**: going on round by round from an attempt ends with what the loop of
`verify_claim` makes of the attempts that are left. -/
theorem afterLoop_of_endsFrom {place : VerifyPlace} {r : Except PyError VerifiedClaim}
    (h : (verifyTask rt client claim chunkLookup maxRetries).EndsFrom r place) :
    claim.afterLoop (retryLoop (chatAttempt rt JudgeVerdict.schema client place.prompt)
      ((maxRetries + 1).toNat - place.attempt) place.attempt place.lastError) = r := by
  induction h with
  | @now place hround =>
    have hround' : verifyRound rt client claim maxRetries place = .inl r := hround
    rw [afterLoop_eq, hround']
    rfl
  | @later place place' hround _ ih =>
    have hround' : verifyRound rt client claim maxRetries place = .inr place' := hround
    rw [afterLoop_eq, hround']
    exact ih

private theorem start_of_settled {v : VerifiedClaim}
    (h : preLlmVerdict claim chunkLookup = some v) :
    (verifyTask rt client claim chunkLookup maxRetries).start = .inl (.ok v) := by
  simp only [verifyTask, h]

private theorem start_of_judged {sourceText : String} (h : Judged claim chunkLookup sourceText) :
    (verifyTask rt client claim chunkLookup maxRetries).start =
      .inr ⟨verifyPrompt sourceText claim.text.shown, 0, none⟩ := by
  have hpre : preLlmVerdict claim chunkLookup = none := preLlmVerdict_eq_none_iff.mpr ⟨_, h⟩
  obtain ⟨-, id, hid, hget⟩ := h
  simp only [verifyTask, hpre, hid, Option.bind_some, hget]

/-- **A task ends with what `verify_claim` returns or raises.** -/
theorem verifyClaim_of_ends {r : Except PyError VerifiedClaim}
    (h : (verifyTask rt client claim chunkLookup maxRetries).Ends r) :
    verifyClaim rt client claim chunkLookup maxRetries = r := by
  rcases hpre : preLlmVerdict claim chunkLookup with - | v
  · obtain ⟨sourceText, hj⟩ := preLlmVerdict_eq_none_iff.mp hpre
    have hloop : verifyClaim rt client claim chunkLookup maxRetries = claim.afterLoop
        (chatLoop rt JudgeVerdict.schema client (verifyPrompt sourceText claim.text.shown)
          maxRetries) := by
      rw [verifyClaim, verifyWith_of_judged hj]
      rcases chatLoop rt JudgeVerdict.schema client (verifyPrompt sourceText claim.text.shown)
        maxRetries with judged | e | lastError
      · rfl
      · rfl
      · rfl
    rw [hloop, chatLoop]
    rcases h with h | ⟨place, h, hends⟩
    · rw [start_of_judged hj] at h
      cases h
    · rw [start_of_judged hj] at h
      obtain rfl := Sum.inr.inj h
      -- before the first attempt, all of them are left
      have hagree := afterLoop_of_endsFrom hends
      exact hagree
  · have hsettled : verifyClaim rt client claim chunkLookup maxRetries = .ok v := by
      rw [verifyClaim, verifyWith, hpre]
    rw [hsettled]
    rcases h with h | ⟨place, h, -⟩
    · rw [start_of_settled hpre] at h
      exact Sum.inl.inj h
    · rw [start_of_settled hpre] at h
      cases h

/-- A task has at most as many rounds as its retry loop. -/
theorem verifyTask_bounded : (verifyTask rt client claim chunkLookup maxRetries).Bounded
    fun place => (maxRetries + 1).toNat - place.attempt := by
  intro place place' hround
  by_cases hlt : place.attempt < (maxRetries + 1).toNat
  · have hround' := (verifyRound_of_lt hlt).symm.trans hround
    cases hattempt : chatAttempt rt JudgeVerdict.schema client place.prompt place.attempt with
    | done judged | abort e =>
      rw [hattempt] at hround'
      cases hround'
    | retry e =>
      rw [hattempt] at hround'
      obtain rfl := Sum.inr.inj hround'
      rw [VerifyPlace.next]
      dsimp only
      omega
  · have hround' : verifyRound rt client claim maxRetries place = .inl _ := if_neg hlt
    cases hround'.symm.trans hround

end

/-! ### The batch -/

section

variable (rt : Runtime) (judge : ℕ → ChatClient) (claims : List Claim)
  (chunkLookup : Dict String String)

/-- `[verify_claim(c, chunk_lookup) for c in claims]`, where the judge answers per position. -/
def verifyOneByOne : Except PyError (List VerifiedClaim) :=
  claims.zipIdx.mapM fun c => verifyClaim rt (judge c.2) c.1 chunkLookup

/-- One step of the gather in `_verify_all_claims_async`. -/
def batchStep : GatherState (Fin claims.length) VerifyPlace PyError VerifiedClaim →
    GatherLabel (Fin claims.length) →
      Option (GatherState (Fin claims.length) VerifyPlace PyError VerifiedClaim) :=
  gatherStep (fun i => verifyTask rt (judge i) claims[i] chunkLookup 2) maxConcurrentVerifications

/-- What `verify_all_claims` returns or raises when the gather has come to its end. -/
def verifyAllClaimsAt (g : GatherState (Fin claims.length) VerifyPlace PyError VerifiedClaim) :
    Option (Except PyError (List VerifiedClaim)) :=
  if claims.isEmpty then some (.ok [])
  else g.outcome.map (Except.mapError fun e =>
    { cls := .verificationError, message := "Verification batch failed unexpectedly"
      cause := some e.cls })

variable {rt judge claims chunkLookup}

/-- One by one, claims are verified to a list if each of them is verified to its entry. -/
theorem verifyOneByOne_eq_ok_iff {vs : List VerifiedClaim} :
    verifyOneByOne rt judge claims chunkLookup = .ok vs ↔ vs.length = claims.length ∧
      ∀ (i : Fin claims.length) (hi : i < vs.length),
        verifyClaim rt (judge i) claims[i] chunkLookup = .ok vs[i] := by
  rw [verifyOneByOne, mapM_eq_ok_iff, List.forall₂_iff_get]
  have hzip : claims.zipIdx.length = claims.length := List.length_zipIdx
  constructor
  · rintro ⟨hlength, hall⟩
    refine ⟨hlength.symm.trans hzip, fun i hi => ?_⟩
    have hget := hall i (i.isLt.trans_eq hzip.symm) hi
    simpa using hget
  · rintro ⟨hlength, hall⟩
    refine ⟨hzip.trans hlength.symm, fun i hi hi' => ?_⟩
    have hget := hall ⟨i, hi.trans_eq hzip⟩ hi'
    simpa using hget

/-- A batch that ends with a list ends with that of `verify_claim`, and one that raises comes from
a `verify_claim` that raises. -/
private theorem outcome_eq_one_by_one
    {g : GatherState (Fin claims.length) VerifyPlace PyError VerifiedClaim}
    (h : Reach (batchStep rt judge claims chunkLookup) {} g)
    {r : Except PyError (List VerifiedClaim)} (hr : g.outcome = some r) (vs : List VerifiedClaim) :
    r = .ok vs ↔ verifyOneByOne rt judge claims chunkLookup = .ok vs := by
  rcases outcome_eq_some (gatherSound_of_reach h) hr with ⟨e, i, rfl, hraises⟩ | ⟨a, rfl, hends⟩
  · -- the claim whose verification raises has no entry in a list
    refine iff_of_false (fun heq => nomatch heq) fun heq => ?_
    obtain ⟨hlength, hall⟩ := verifyOneByOne_eq_ok_iff.mp heq
    have hi : i < vs.length := i.isLt.trans_eq hlength.symm
    have hraised : verifyClaim rt (judge i) claims[i] chunkLookup = .error e :=
      verifyClaim_of_ends hraises
    cases hraised.symm.trans (hall i hi)
  · have hlist : verifyOneByOne rt judge claims chunkLookup = .ok (List.ofFn a) := by
      refine verifyOneByOne_eq_ok_iff.mpr ⟨List.length_ofFn, fun i hi => ?_⟩
      have hreturned : verifyClaim rt (judge i) claims[i] chunkLookup = .ok (a i) :=
        verifyClaim_of_ends (hends i)
      rw [hreturned]
      exact congrArg Except.ok (List.getElem_ofFn hi).symm
    rw [hlist]

/-- **Concurrent verification is verification one by one**, under every schedule: each schedule
ends, and when it cannot go on, `verify_all_claims` returns the list of what `verify_claim` returns
for the claims in their order, or, if `verify_claim` raises for one of them, raises a
`VerificationError`. -/
theorem batch_eq_one_by_one (rt : Runtime) (judge : ℕ → ChatClient) (claims : List Claim)
    (chunkLookup : Dict String String) :
    (∃ bound : ℕ, ∀ schedule g,
      exec (batchStep rt judge claims chunkLookup) {} schedule = some g →
        schedule.length ≤ bound) ∧
    ∀ g, Reach (batchStep rt judge claims chunkLookup) {} g →
      ((∃ r, verifyAllClaimsAt claims g = some r) ↔
        ∀ l, batchStep rt judge claims chunkLookup g l = none) ∧
      ∀ r, verifyAllClaimsAt claims g = some r →
        (∀ vs, r = .ok vs ↔ verifyOneByOne rt judge claims chunkLookup = .ok vs) ∧
          ∀ e, r = .error e → e.cls = .verificationError := by
  refine ⟨⟨_, fun schedule g hrun => length_le_of_exec (fun i => verifyTask_bounded) hrun⟩, ?_⟩
  intro g hreach
  have hends : (∃ r, g.outcome = some r) ↔
      ∀ l, batchStep rt judge claims chunkLookup g l = none :=
    outcome_isSome_iff (by decide) (gatherSound_of_reach hreach)
  rw [← hends]
  by_cases hempty : claims.isEmpty = true
  · -- without a claim there is no gather
    obtain rfl := List.isEmpty_iff.mp hempty
    have hnone : verifyOneByOne rt judge [] chunkLookup = .ok [] := rfl
    have hnil : verifyAllClaimsAt [] g = some (.ok []) := rfl
    rw [hnone, hnil]
    refine ⟨iff_of_true ⟨_, rfl⟩ (hends.mpr fun l => ?_), ?_⟩
    · cases l with
      | start i | acquire i | goOn i => exact i.elim0
    · rintro r hr
      obtain rfl := Option.some.inj hr
      exact ⟨fun vs => Iff.rfl, fun e he => nomatch he⟩
  · have hat : verifyAllClaimsAt claims g = g.outcome.map (Except.mapError fun e =>
        { cls := .verificationError, message := "Verification batch failed unexpectedly"
          cause := some e.cls }) := if_neg hempty
    rw [hat]
    constructor
    · simp only [Option.map_eq_some_iff]
      exact ⟨fun ⟨_, r, hr, _⟩ => ⟨r, hr⟩, fun ⟨r, hr⟩ => ⟨_, r, hr, rfl⟩⟩
    · intro r hr
      obtain ⟨r', hr', rfl⟩ := Option.map_eq_some_iff.mp hr
      have hlist := outcome_eq_one_by_one hreach hr'
      cases r' with
      | ok as => exact ⟨hlist, fun e he => nomatch he⟩
      | error e =>
        refine ⟨fun vs => (iff_of_false (fun heq => nomatch heq) fun heq => ?_), fun e' he' => ?_⟩
        · cases (hlist vs).mpr heq
        · rw [← Except.error.inj he']

end

/-- A judge that fails once and then vouches for every claim. -/
def hesitantJudge : ChatClient := fun attempt _ =>
  if attempt = 0 then .error { cls := .external "APIConnectionError", message := "refused" }
  else .ok (.content (some "\x7b\"verdict\": \"SUPPORTED\", \"reason\": \"stated\"\x7d"))

/-- A claim that goes to the judge, and one that does not. -/
def sampleClaims : List Claim :=
  [{ text := "Notice is 30 days.", sourceChunkId := some "c1" },
   { text := "Not stated.", sourceChunkId := none }]

/-- The chunk that the first of the claims cites. -/
def sampleLookup : Dict String String := Dict.empty.set "c1" "The notice period is 30 days."

/-- A schedule of the two claims, in which the second one ends first. -/
def sampleSchedule : List (GatherLabel (Fin sampleClaims.length)) :=
  let first : Fin sampleClaims.length := ⟨0, by decide⟩
  let second : Fin sampleClaims.length := ⟨1, by decide⟩
  [.start first, .acquire first, .goOn first, .start second, .goOn first]

/-- `batch_eq_one_by_one` at the end of a schedule. -/
theorem batch_eq_one_by_one_sample : ∃ g vs,
    exec (batchStep Runtime.example (fun _ => hesitantJudge) sampleClaims sampleLookup) {}
      sampleSchedule = some g ∧
    verifyAllClaimsAt sampleClaims g = some (.ok vs) ∧
    vs.map (·.verdict) = [.supported, .noAnswer] ∧
    verifyOneByOne Runtime.example (fun _ => hesitantJudge) sampleClaims sampleLookup =
      .ok vs := by
  have hrun : (exec (batchStep Runtime.example (fun _ => hesitantJudge) sampleClaims sampleLookup)
      {} sampleSchedule).any (fun g => (verifyAllClaimsAt sampleClaims g).any fun r =>
        decide (r.toOption.map (·.map (·.verdict)) = some [.supported, .noAnswer])) = true := by
    decide +kernel
  obtain ⟨g, hg, hany⟩ := (Option.any_eq_true _ _).mp hrun
  obtain ⟨r, hr, hverdicts⟩ := (Option.any_eq_true _ _).mp hany
  have hmap := of_decide_eq_true hverdicts
  cases r with
  | error e => cases hmap
  | ok vs =>
    have hone := (batch_eq_one_by_one Runtime.example (fun _ => hesitantJudge) sampleClaims
      sampleLookup).2 g (reach_of_exec hg)
    exact ⟨g, vs, hg, hr, Option.some.inj hmap, ((hone.2 _ hr).1 vs).mp rfl⟩

/-! ### The fail-safe -/

section

variable (rt : Runtime) (client : ChatClient) (claim : Claim) (chunkLookup : Dict String String)
  (maxRetries : ℤ)

/-- The claim goes to the judge, and the first reply that is not retried is one on which reading
or parsing raises: it has no message, or its content is null, or nested too deeply, or has an
integer of too many digits. -/
def BreaksVerification : Prop :=
  ∃ sourceText e, Judged claim chunkLookup sourceText ∧
    FirstBroken rt JudgeVerdict.schema client (verifyPrompt sourceText claim.text.shown)
      (maxRetries + 1).toNat e

/-- Verification returned a claim, as unsupported if it went to the judge and no attempt gave a
valid verdict. -/
def FailsSafe (r : Except PyError VerifiedClaim) : Prop :=
  ∃ v, r = .ok v ∧ ∀ sourceText, Judged claim chunkLookup sourceText →
    (¬∃ judged, FirstAccepted rt JudgeVerdict.schema client
      (verifyPrompt sourceText claim.text.shown) (maxRetries + 1).toNat judged) →
    v.verdict = .unsupported

variable {rt client claim chunkLookup maxRetries}

/-- A claim goes to the judge with one source text. -/
private theorem Judged.unique {s s' : String} (h : Judged claim chunkLookup s)
    (h' : Judged claim chunkLookup s') : s = s' := by
  obtain ⟨-, id, hid, hget⟩ := h
  obtain ⟨-, id', hid', hget'⟩ := h'
  obtain rfl := Option.some.inj (hid.symm.trans hid')
  exact Option.some.inj (hget.symm.trans hget')

/-- **Verification returns** unless a reply breaks it. -/
theorem verifyWith_returns_iff :
    (∃ v, verifyWith rt client claim chunkLookup maxRetries = .ok v) ↔
      ¬BreaksVerification rt client claim chunkLookup maxRetries := by
  rcases hpre : preLlmVerdict claim chunkLookup with - | v
  · obtain ⟨sourceText, hj⟩ := preLlmVerdict_eq_none_iff.mp hpre
    have hbreaks : BreaksVerification rt client claim chunkLookup maxRetries ↔
        ∃ e, chatLoop rt JudgeVerdict.schema client (verifyPrompt sourceText claim.text.shown)
          maxRetries = .abort e := by
      simp only [chatLoop_eq_abort_iff]
      constructor
      · rintro ⟨sourceText', e, hj', hbroken⟩
        rw [hj'.unique hj] at hbroken
        exact ⟨e, hbroken⟩
      · rintro ⟨e, hbroken⟩
        exact ⟨sourceText, e, hj, hbroken⟩
    rw [hbreaks, verifyWith_of_judged hj]
    rcases chatLoop rt JudgeVerdict.schema client (verifyPrompt sourceText claim.text.shown)
      maxRetries with judged | e | lastError
    · exact iff_of_true ⟨_, rfl⟩ fun ⟨e, he⟩ => nomatch he
    · exact iff_of_false (fun ⟨v, hv⟩ => nomatch hv) fun h => h ⟨e, rfl⟩
    · exact iff_of_true ⟨_, rfl⟩ fun ⟨e, he⟩ => nomatch he
  · have hsettled : verifyWith rt client claim chunkLookup maxRetries = .ok v := by
      rw [verifyWith, hpre]
    refine iff_of_true ⟨v, hsettled⟩ ?_
    rintro ⟨sourceText, e, hj, -⟩
    cases hpre.symm.trans (preLlmVerdict_eq_none_iff.mpr ⟨sourceText, hj⟩)

private theorem failsSafe_verifyWith_iff :
    FailsSafe rt client claim chunkLookup maxRetries
        (verifyWith rt client claim chunkLookup maxRetries) ↔
      ¬BreaksVerification rt client claim chunkLookup maxRetries := by
  rw [← verifyWith_returns_iff]
  refine ⟨fun ⟨v, hv, _⟩ => ⟨v, hv⟩, fun ⟨v, hv⟩ => ⟨v, hv, fun sourceText hj hnone => ?_⟩⟩
  rcases verifyWith_cases hv with hpre | ⟨sourceText', hj', ⟨judged, -, hfirst⟩ | ⟨_, rfl⟩⟩
  · cases hpre.symm.trans (preLlmVerdict_eq_none_iff.mpr ⟨sourceText, hj⟩)
  · rw [hj'.unique hj] at hfirst
    exact absurd ⟨judged, hfirst⟩ hnone
  · rfl

/-- A batch is verified when each of its claims is. -/
theorem verifyAllClaims_eq_ok_iff {judge : ℕ → ChatClient} {claims : List Claim}
    {vs : List VerifiedClaim} : verifyAllClaims rt judge claims chunkLookup = .ok vs ↔
      verifyOneByOne rt judge claims chunkLookup = .ok vs := by
  have hasync : verifyAllClaimsAsync rt judge claims chunkLookup =
      verifyOneByOne rt judge claims chunkLookup := rfl
  rw [verifyAllClaims, hasync]
  split_ifs with hempty
  · obtain rfl := List.isEmpty_iff.mp hempty
    exact Iff.rfl
  · rcases verifyOneByOne rt judge claims chunkLookup with e | vs'
    · constructor
      · intro h
        cases h
      · intro h
        cases h
    · exact Iff.rfl

private theorem verifyAllClaims_returns_iff {judge : ℕ → ChatClient} {claims : List Claim} :
    (∃ vs, verifyAllClaims rt judge claims chunkLookup = .ok vs) ↔
      ∀ i : Fin claims.length, ¬BreaksVerification rt (judge i) claims[i] chunkLookup 2 := by
  simp only [verifyAllClaims_eq_ok_iff, verifyOneByOne_eq_ok_iff, ← verifyWith_returns_iff]
  constructor
  · rintro ⟨vs, hlength, hall⟩ i
    exact ⟨_, hall i (i.isLt.trans_eq hlength.symm)⟩
  · intro hall
    choose v hv using hall
    refine ⟨List.ofFn v, List.length_ofFn, fun i hi => (hv i).trans ?_⟩
    exact congrArg Except.ok (List.getElem_ofFn hi).symm

variable (rt client claim chunkLookup maxRetries)

/-- **Verification fails safe exactly as long as no reply breaks it**, in either function, and a
batch exactly as long as none of its claims is broken: what `parse_llm_json` raises is caught if it
is a decoding or a validation error, and what reading the reply raises is not caught at all. -/
theorem failsSafe_iff (asyncClient : ChatClient) (judge : ℕ → ChatClient) (claims : List Claim) :
    (FailsSafe rt client claim chunkLookup maxRetries
        (verifyClaim rt client claim chunkLookup maxRetries) ↔
      ¬BreaksVerification rt client claim chunkLookup maxRetries) ∧
    (FailsSafe rt asyncClient claim chunkLookup maxRetries
        (verifyClaimAsync rt asyncClient claim chunkLookup maxRetries) ↔
      ¬BreaksVerification rt asyncClient claim chunkLookup maxRetries) ∧
    ((∃ vs, verifyAllClaims rt judge claims chunkLookup = .ok vs) ↔
      ∀ i : Fin claims.length, ¬BreaksVerification rt (judge i) claims[i] chunkLookup 2) :=
  ⟨failsSafe_verifyWith_iff, failsSafe_verifyWith_iff, verifyAllClaims_returns_iff⟩

end

/-- **A null reply escapes**: it makes verification of its claim raise, and with it that of the
batch, although the other claim needs no judge. -/
theorem null_reply_escapes :
    let client : ChatClient := fun _ _ => .ok (.content none)
    let claim : Claim := { text := "Notice is 30 days.", sourceChunkId := some "c1" }
    ¬FailsSafe Runtime.example client claim sampleLookup 2
        (verifyClaim Runtime.example client claim sampleLookup) ∧
      ¬FailsSafe Runtime.example client claim sampleLookup 2
        (verifyClaimAsync Runtime.example client claim sampleLookup) ∧
      ¬∃ vs, verifyAllClaims Runtime.example (fun _ => client) sampleClaims sampleLookup =
        .ok vs := by
  intro client claim
  have hraises : (verifyWith Runtime.example client claim sampleLookup 2).toOption = none := by
    decide +kernel
  have hbatch : (verifyAllClaims Runtime.example (fun _ => client) sampleClaims
      sampleLookup).toOption = none := by
    decide +kernel
  have hbreaks : ¬FailsSafe Runtime.example client claim sampleLookup 2
      (verifyWith Runtime.example client claim sampleLookup 2) := by
    rintro ⟨v, hv, -⟩
    rw [hv] at hraises
    cases hraises
  refine ⟨hbreaks, hbreaks, ?_⟩
  rintro ⟨vs, hvs⟩
  rw [hvs] at hbatch
  cases hbatch

end AuditFlow
