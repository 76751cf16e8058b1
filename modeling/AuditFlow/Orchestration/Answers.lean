import AuditFlow.Orchestration.Exits

/-!
# Verification first

What an answered call guarantees. Its trace ends with the result of the answering
`answer_with_retry` and the verification of exactly that result (`answered_trace`), on every route.
From it:

* **No claim is shown unchecked** (`answered_claims_verified`): the shown claims are the generated
  ones, in order, and a claim shown as supported or partially supported has the judge's own
  verdict for its text and the text it cites.
* **The generator sees the answered contract only** (`answered_within_contract`). The lookup that
  verification uses spans the whole corpus, so a citation is checked to exist, not to lie in that
  contract: `citation_outside_contract` shows one that does not.
-/

namespace AuditFlow

open Foundation

section

variable {w : World} {question : String} {c c' : Ctx} {response : AskResponse}

/-- An answered call took one of the four routes; its trace ends with the generated result and the
verification of that result against the lookup of that moment, and nothing before them is an
answer. -/
theorem answered_trace (h : ask w question c = (.ok response, c'))
    (hstatus : response.status = .answered) :
    ∃ asked d result quiet within t,
      c'.trace = c.trace ++ (quiet ++ within) ++
        [.answer d (some result), .verify result.claims (w.chunkLookup t)] ∧
      c'.trace.length = t + 1 ∧
      (∀ e ∈ quiet, e.IsQuiet) ∧ (∀ e ∈ within, e.Within asked d) ∧
      response.topContract = some d ∧
      verifyAllClaims w.rt (w.judge t) result.claims (w.chunkLookup t) = .ok response.claims := by
  cases ask_exit h with
  | rejected | unanswered | clarifies | declines => cases hstatus
  | answered hroute hanswer hverify =>
    rename_i asked d prefetched c₀ c₁ result
    obtain ⟨quiet, hquietTrace, hquiet⟩ := hroute.trace
    obtain ⟨-, within, hwithinTrace, hwithin⟩ := answerWithRetry_eq_ok hanswer
    obtain ⟨claims, rfl, hall, rfl⟩ := verifyAnswer_eq_ok hverify
    refine ⟨asked, d, result, quiet, within, c₁.trace.length, ?_, ?_, hquiet, hwithin, rfl, hall⟩
    · simp [Ctx.withSession, hwithinTrace, hquietTrace]
    · simp [Ctx.withSession]

/-- The judge's own verdict on a claim: the claim has text and cites a chunk of the lookup, and
the first reply, of at most three, that is not retried was accepted with that verdict for the
prompt made of the cited text and the claim's text. -/
def JudgedAs (rt : Runtime) (judge : ChatClient) (chunkLookup : Dict String String) (claim : Claim)
    (verdict : Verdict) : Prop :=
  ∃ sourceText, Judged claim chunkLookup sourceText ∧
    ∃ judged, judged.verdict = verdict ∧
      FirstAccepted rt JudgeVerdict.schema judge (verifyPrompt sourceText claim.text.shown) 3 judged

/-- **Verification first.** The claims of an answer are the claims of the result that
`answer_with_retry` returned, one to one, in order, with text and citation, and the claims
shown as supported or partially supported were judged so. -/
theorem answered_claims_verified (h : ask w question c = (.ok response, c'))
    (hstatus : response.status = .answered) :
    ∃ d result events t,
      c'.trace = c.trace ++ events ++
        [.answer d (some result), .verify result.claims (w.chunkLookup t)] ∧
      (∀ d' r, .answer d' (some r) ∉ events) ∧ c'.trace.length = t + 1 ∧
      response.claims.length = result.claims.length ∧
      ∀ (i : ℕ) (claim : Claim) (v : VerifiedClaim),
        result.claims[i]? = some claim → response.claims[i]? = some v →
          v.text = claim.text ∧ v.sourceChunkId = claim.sourceChunkId ∧
          (v.verdict = .supported ∨ v.verdict = .partially →
            JudgedAs w.rt (w.judge t i) (w.chunkLookup t) claim v.verdict) := by
  obtain ⟨asked, d, result, quiet, within, t, htrace, ht, hquiet, hwithin, -, hall⟩ :=
    answered_trace h hstatus
  obtain ⟨hlength, hclaims⟩ := verifyAllClaims_getElem? hall
  refine ⟨d, result, quiet ++ within, t, htrace, fun d' r hmem => ?_, ht, hlength,
    fun i claim v hi hv => ?_⟩
  · rcases List.mem_append.mp hmem with hmem | hmem
    · exact hquiet _ hmem
    · exact hwithin _ hmem
  · have hverified := hclaims i claim v hi hv
    obtain ⟨htext, hsource⟩ := verifyWith_source hverified
    exact ⟨htext, hsource, fun hvouched => verifyWith_vouched hverified hvouched⟩

/-- **The generator sees the answered contract only.** In a call answered for `d`, every chunk
handed to the generator has document id `d`; a claim shown as supported or partially supported
cites a chunk of the lookup in use, which belongs to `d` if it is one of the chunks handed over. -/
theorem answered_within_contract (h : ask w question c = (.ok response, c'))
    (hstatus : response.status = .answered) :
    ∃ d events t,
      response.topContract = some d ∧ c'.trace = c.trace ++ events ∧ c'.trace.length = t + 1 ∧
      (∀ q chunks, .generate q chunks ∈ events → ∀ chunk ∈ chunks, chunk.documentId = d) ∧
      ∀ v ∈ response.claims, v.verdict = .supported ∨ v.verdict = .partially →
        ∃ id : String, v.sourceChunkId = some (id : Str) ∧ (w.chunkLookup t).contains id = true ∧
          ∀ q chunks, .generate q chunks ∈ events →
            ∀ chunk ∈ chunks, chunk.chunkId = id → chunk.documentId = d := by
  obtain ⟨asked, d, result, quiet, within, t, htrace, ht, hquiet, hwithin, htop, hall⟩ :=
    answered_trace h hstatus
  have hshown : ∀ q chunks, .generate q chunks ∈ (quiet ++ within) ++
      [Event.answer d (some result), .verify result.claims (w.chunkLookup t)] →
      ∀ chunk ∈ chunks, chunk.documentId = d := by
    intro q chunks hmem
    simp only [List.mem_append, List.mem_cons, reduceCtorEq, List.not_mem_nil, or_false] at hmem
    rcases hmem with hmem | hmem
    · exact (hquiet _ hmem).elim
    · exact (hwithin _ hmem).2
  refine ⟨d, _, t, htop, by rw [htrace, List.append_assoc], ht, hshown, fun v hv hvouched => ?_⟩
  -- claims correspond by position, so a shown claim is the verdict on a generated one
  obtain ⟨i, hi⟩ := List.getElem?_of_mem hv
  obtain ⟨hlength, hclaims⟩ := verifyAllClaims_getElem? hall
  have hlt : i < result.claims.length := hlength ▸ (List.getElem?_eq_some_iff.mp hi).1
  have hclaim := List.getElem?_eq_getElem hlt
  have hverified := hclaims i _ v hclaim hi
  obtain ⟨sourceText, ⟨-, cited, hcited, hlookup⟩, -⟩ := verifyWith_vouched hverified hvouched
  obtain ⟨id, rfl, hget⟩ := Dict.lookup_eq_some_iff.mp hlookup
  refine ⟨id, (verifyWith_source hverified).2.trans hcited, Dict.contains_iff.mpr ⟨_, hget⟩, ?_⟩
  exact fun q chunks hmem chunk hchunk _ => hshown q chunks hmem chunk hchunk

end

/-! ### Concrete runs -/

/-- A chunk for concrete runs, with its text as embedding text. -/
def sampleChunk (chunkId documentId text : String) : ChunkRecord :=
  { chunkId, documentId, chunkIndex := 0, rawChunkText := text, embeddingText := text,
    contentHash := "" }

/-- Three chunks of a contract `A` and two of a contract `B`. -/
def sampleChunks : List ChunkRecord :=
  [sampleChunk "A::1" "A" "Governed by the laws of Israel.",
   sampleChunk "A::2" "A" "The notice period is 30 days.",
   sampleChunk "A::3" "A" "Either party may assign this agreement.",
   sampleChunk "B::1" "B" "Governed by the laws of France.",
   sampleChunk "B::2" "B" "The notice period is 60 days."]

/-- A world over these contracts, in which the search returns every chunk, in corpus order, and the
reranker scores them as given; the generator answers one claim that cites `cited`, and the judge
supports everything. -/
def sampleWorld (scores : List ℚ) (cited : String) : World where
  rt := Runtime.example
  indexes _ := .ok {
    similaritySearch := fun _ => .ok (sampleChunks.map ChunkRecord.chunkId)
    bm25Ids := sampleChunks.map ChunkRecord.chunkId
    bm25Scores := fun _ => .ok (sampleChunks.map fun _ => 0)
    corpus := Dict.empty.setAll ChunkRecord.chunkId id sampleChunks }
  rerank _ _ := .ok scores
  generator _ _ _ := .ok (.content (some
    ("\x7b\"claims\": [\x7b\"text\": \"French law governs.\", \"source_chunk_id\": \"" ++ cited ++
      "\"\x7d]\x7d")))
  judge _ _ _ _ := .ok (.content (some "\x7b\"verdict\": \"SUPPORTED\", \"reason\": \"r\"\x7d"))
  chunkLookup _ := buildChunkLookup sampleChunks
  identities _ := .empty

/-- The generator cites the chunk it was shown. -/
def citesInside : World := sampleWorld [1, 1, 1, 0, 0] "A::1"

/-- The generator cites a chunk of the other contract. -/
def citesOutside : World := sampleWorld [1, 1, 1, 0, 0] "B::1"

/-- The answer that these worlds give to any question of a fresh session. -/
def sampleAnswer (cited : String) : AskResponse :=
  .answered [{ text := "French law governs.", sourceChunkId := some (cited : Str)
               verdict := .supported, reason := "r" }] "A"

private theorem sampleWorld_run :
    (ask citesInside "Which law governs?" { session := {} }).1 =
      .ok (sampleAnswer "A::1") := by
  decide +kernel

private theorem sampleWorld_run_outside :
    (ask citesOutside "Which law governs?" { session := {} }).1 =
      .ok (sampleAnswer "B::1") := by
  decide +kernel

/-- `answered_claims_verified` at a confident answer of a fresh session. -/
theorem answered_claims_verified_sample :
    ∃ d result events t,
      (ask citesInside "Which law governs?" { session := {} }).2.trace =
        ([] : List Event) ++ events ++
          [.answer d (some result), .verify result.claims (citesInside.chunkLookup t)] ∧
      (∀ d' r, .answer d' (some r) ∉ events) ∧
      (ask citesInside "Which law governs?" { session := {} }).2.trace.length = t + 1 ∧
      (sampleAnswer "A::1").claims.length = result.claims.length ∧
      ∀ (i : ℕ) (claim : Claim) (v : VerifiedClaim),
        result.claims[i]? = some claim → (sampleAnswer "A::1").claims[i]? = some v →
          v.text = claim.text ∧ v.sourceChunkId = claim.sourceChunkId ∧
          (v.verdict = .supported ∨ v.verdict = .partially →
            JudgedAs citesInside.rt (citesInside.judge t i)
              (citesInside.chunkLookup t) claim v.verdict) :=
  answered_claims_verified (Exc.eq_of_fst sampleWorld_run) rfl

/-- `answered_within_contract` at the same answer. -/
theorem answered_within_contract_sample :
    ∃ d events t,
      (sampleAnswer "A::1").topContract = some d ∧
      (ask citesInside "Which law governs?" { session := {} }).2.trace =
        ([] : List Event) ++ events ∧
      (ask citesInside "Which law governs?" { session := {} }).2.trace.length = t + 1 ∧
      (∀ q chunks, .generate q chunks ∈ events → ∀ chunk ∈ chunks, chunk.documentId = d) ∧
      ∀ v ∈ (sampleAnswer "A::1").claims, v.verdict = .supported ∨ v.verdict = .partially →
        ∃ id : String, v.sourceChunkId = some (id : Str) ∧
          (citesInside.chunkLookup t).contains id = true ∧
          ∀ q chunks, .generate q chunks ∈ events →
            ∀ chunk ∈ chunks, chunk.chunkId = id → chunk.documentId = d :=
  answered_within_contract (Exc.eq_of_fst sampleWorld_run) rfl

/-- **A citation can leave the answered contract**: even if any chunk of any index snapshot may
stand for the citation, a supported claim of an answer for `A` need not cite a chunk of `A`. -/
theorem citation_outside_contract :
    ¬∀ (w : World) (question : String) (c c' : Ctx) (response : AskResponse) (d : String),
      ask w question c = (.ok response, c') → response.status = .answered →
        response.topContract = some d →
          ∀ v ∈ response.claims, v.verdict = .supported ∨ v.verdict = .partially →
            ∃ t index chunk, w.indexes t = .ok index ∧ chunk ∈ index.corpus.values ∧
              v.sourceChunkId = some (chunk.chunkId : Str) ∧ chunk.documentId = d := by
  intro h
  obtain ⟨t, index, chunk, hindex, hchunk, hcited, hdocument⟩ :=
    h citesOutside "Which law governs?" { session := {} } _ (sampleAnswer "B::1") "A"
      (Exc.eq_of_fst sampleWorld_run_outside) rfl rfl _ List.mem_cons_self (Or.inl rfl)
  obtain rfl := Except.ok.inj hindex
  have hvalues : (Dict.empty.setAll ChunkRecord.chunkId id sampleChunks).values = sampleChunks := by
    decide
  have hnone : ∀ chunk ∈ sampleChunks,
      ¬("B::1" = chunk.chunkId ∧ chunk.documentId = "A") := by decide
  have hid : "B::1" = chunk.chunkId := Str.ofString_injective (Option.some.inj hcited)
  exact hnone chunk (hvalues ▸ hchunk) ⟨hid, hdocument⟩

end AuditFlow
