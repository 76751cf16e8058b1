import AuditFlow.Ingest.Contents
import AuditFlow.Orchestration.Grounding
import AuditFlow.Retrieval.Deployment
import AuditFlow.Retrieval.Reload

/-!
# No source is made up

A question that is asked in a worker, while processes ingest and delete, operations fail, and the
worker reloads: whatever the generator is shown, and whatever a supported or partially supported
claim of the answer cites, is **a page of a contract that has been handed to the ingestion**, under
an id that names the contract's document and the hash of the page; and the text that the judge was
shown for the claim is this page (`answer_from_contracts`). The indexes and the reranker may fail or
rank as they like, and generator and judge may say what they like.

That such a contract has been replaced or deleted since is not excluded. It is where nothing is in
flight: after calls that have all returned, a worker that has reloaded answers from **the contracts
that were ingested last** (`answer_from_latest`).
-/

namespace AuditFlow

open Foundation

/-! ### What a call shows and cites -/

/-- The judge has accepted the claim with its verdict, shown the text that the claim cites, which is
a page. -/
def JudgedOn (IsPage : String → String → Prop) (rt : Runtime) (judge : ChatClient)
    (v : VerifiedClaim) : Prop :=
  ∃ (id page : String), v.sourceChunkId = some (id : Str) ∧ IsPage id page ∧
    ∃ judged, judged.verdict = v.verdict ∧
      FirstAccepted rt JudgeVerdict.schema judge (verifyPrompt page v.text.shown) 3 judged

/-- A supported or partially supported claim has been judged on a page. -/
def VouchedOn (IsPage : String → String → Prop) (rt : Runtime) (judge : ℕ → ChatClient)
    (claims : List VerifiedClaim) : Prop :=
  ∀ v ∈ claims, v.verdict = .supported ∨ v.verdict = .partially →
    ∃ i, JudgedOn IsPage rt (judge i) v

section

variable {w : World} {IsPage : ℕ → String → String → Prop}

/-- What a call shows is a page, if what is retrieved is. -/
private theorem shown_isPage (h : ∀ t index chunkId text, w.indexes t = .ok index →
      Offers index.corpus chunkId text → IsPage t chunkId text)
    (question : String) (session : SessionState) {asked : String} {chunks : List ChunkMatch}
    (hshown : .generate asked chunks ∈ askTrace w question session) {m : ChunkMatch}
    (hm : m ∈ chunks) :
    ∃ t < (askTrace w question session).length, IsPage t m.chunkId m.rawChunkText := by
  have hgrounded : Grounded w (askTrace w question session) := ask_grounded question session
  obtain ⟨t, event, index, hevent, -, hindex, hoffers⟩ := hgrounded.shown asked chunks hshown m hm
  exact ⟨t, (List.getElem?_eq_some_iff.mp hevent).1, h t index _ _ hindex hoffers⟩

/-- What an answer cites is a page, if what is looked up is. -/
private theorem vouchedOn_of_answered
    (h : ∀ t chunkId text, (w.chunkLookup t).get? chunkId = some text → IsPage t chunkId text)
    {question : String} {session : SessionState} {response : AskResponse}
    (hask : (ask w question { session }).1 = .ok response) (hstatus : response.status = .answered) :
    ∃ t, (askTrace w question session).length = t + 1 ∧
      VouchedOn (IsPage t) w.rt (w.judge t) response.claims := by
  obtain ⟨-, -, result, -, -, t, -, hlast, -, -, -, hall⟩ :=
    answered_trace (Exc.eq_of_fst hask) hstatus
  refine ⟨t, hlast, fun v hv hvouched => ?_⟩
  -- claims correspond by position, so that a shown claim is the verdict on a generated one
  obtain ⟨i, hi⟩ := List.getElem?_of_mem hv
  obtain ⟨hlength, hclaims⟩ := verifyAllClaims_getElem? hall
  have hlt : i < result.claims.length := hlength ▸ (List.getElem?_eq_some_iff.mp hi).1
  have hverified := hclaims i _ v (List.getElem?_eq_getElem hlt) hi
  obtain ⟨htext, hsource⟩ := verifyWith_source hverified
  obtain ⟨page, ⟨-, cited, hcited, hlookup⟩, hjudged⟩ := verifyWith_vouched hverified hvouched
  obtain ⟨id, rfl, hget⟩ := Dict.lookup_eq_some_iff.mp hlookup
  refine ⟨i, id, page, hsource.trans hcited, h t id page hget, ?_⟩
  rw [htext]
  exact hjudged

end

/-! ### A call in a deployment -/

/-- A page of one of the contracts, under its chunk id. -/
def IsPageOf (env : IngestEnv) (contracts : List Contract) (chunkId text : String) : Prop :=
  ∃ contract ∈ contracts, text ∈ chunkTexts env contract chunkSize chunkOverlap ∧
    chunkId = chunkIdFor env (documentIdFor env contract.title) text

/-- A call in the worker of a deployment: at each of its moments it sees what the worker serves, and
between two moments the processes and the worker take any steps. -/
structure ServedBy {ι : Type} [DecidableEq ι] (env : IngestEnv) (w : World)
    (states : ℕ → Deployment ι) : Prop where
  start : Reach (Deployment.step env) {} (states 0)
  next : ∀ t, Reach (Deployment.step env) (states t) (states (t + 1))
  corpus : ∀ t index, w.indexes t = .ok index → index.corpus = (states t).worker.corpus.records
  chunkLookup : ∀ t, w.chunkLookup t = (states t).worker.chunkLookup
  identities : ∀ t, w.identities t = (states t).worker.identities

section

variable {ι : Type} [DecidableEq ι] {env : IngestEnv} {w : World} {states : ℕ → Deployment ι}

theorem CutFrom.isPageOf {contracts : List Contract} {chunk : ChunkRecord}
    (h : CutFrom env contracts chunk) :
    IsPageOf env contracts chunk.chunkId chunk.rawChunkText := by
  obtain ⟨contract, hcontract, htext, -, hid⟩ := h.parts
  exact ⟨contract, hcontract, htext, hid⟩

/-- At every moment the worker holds pages of contracts only. -/
theorem ServedBy.deployment_from (h : ServedBy env w states) (t : ℕ) : (states t).From env := by
  induction t with
  | zero => exact AuditFlow.deployment_from h.start
  | succ t ih =>
    refine (h.next t).invariant (P := fun s => s.From env) ih fun _ _ _ hs _ hstep => ?_
    exact hs.step hstep

/-- What is retrieved at a moment. -/
private theorem isPageOf_of_offers (h : ServedBy env w states) (t : ℕ) (index : IndexSnapshot)
    (chunkId text : String) (hindex : w.indexes t = .ok index)
    (hoffers : Offers index.corpus chunkId text) :
    IsPageOf env (states t).contracts chunkId text := by
  obtain ⟨chunk, hchunk, rfl, rfl⟩ := hoffers
  rw [h.corpus t index hindex] at hchunk
  obtain ⟨k, hk⟩ := Dict.mem_values_iff.mp hchunk
  exact ((h.deployment_from t).worker.corpus k chunk hk).2.isPageOf

/-- What is looked up at a moment. -/
private theorem isPageOf_of_get? (h : ServedBy env w states) (t : ℕ) (chunkId text : String)
    (hget : (w.chunkLookup t).get? chunkId = some text) :
    IsPageOf env (states t).contracts chunkId text := by
  rw [h.chunkLookup t] at hget
  obtain ⟨chunk, hchunk, rfl, rfl⟩ := (h.deployment_from t).worker.chunkLookup chunkId text hget
  exact hchunk.isPageOf

/-- **No source is made up.** Whatever a call shows to the generator is a page of a contract handed
in by the moment of a read; and if the call answers, each supported or partially supported claim
cites a page of a contract handed in by the moment of the verification, and was judged on it. -/
theorem answer_from_contracts (h : ServedBy env w states) (question : String)
    (session : SessionState) :
    (∀ asked chunks, .generate asked chunks ∈ askTrace w question session → ∀ m ∈ chunks,
      ∃ t < (askTrace w question session).length,
        IsPageOf env (states t).contracts m.chunkId m.rawChunkText) ∧
    ∀ response, (ask w question { session }).1 = .ok response → response.status = .answered →
      ∃ t, (askTrace w question session).length = t + 1 ∧
        VouchedOn (IsPageOf env (states t).contracts) w.rt (w.judge t) response.claims :=
  ⟨fun _ _ hshown _ hm => shown_isPage (isPageOf_of_offers h) question session hshown hm,
    fun _ hask hstatus => vouchedOn_of_answered (isPageOf_of_get? h) hask hstatus⟩

end

/-! ### A deployment in which something is asked -/

/-- One process ingests a contract, and the worker is imported after it. -/
def ingestThenServe : List (DeploymentLabel Unit) :=
  [.construct (), .proceed (), .proceed (), .call () (sampleInsert "one") Faults.none] ++
    List.replicate 12 (.proceed ()) ++ List.replicate 5 (.worker false)

/-- The worker polls, a second contract is ingested, and the worker reloads. -/
def ingestThenReload : List (DeploymentLabel Unit) :=
  [.worker false, .call () (.insertOrUpdate ⟨"Beta", some "two"⟩ none) Faults.none] ++
    List.replicate 12 (.proceed ()) ++ List.replicate 5 (.worker false)

/-- Where a run leads. -/
def deploymentAfter (labels : List (DeploymentLabel Unit)) : Deployment Unit :=
  (exec (Deployment.step sampleEnv) {} labels).getD {}

/-- What a call sees in whose middle, between the answer of the generator and the verification, the
second contract is ingested and the worker reloads. -/
def reloadedWithin (t : ℕ) : Deployment Unit :=
  if t < 4 then deploymentAfter ingestThenServe
  else deploymentAfter (ingestThenServe ++ ingestThenReload)

private theorem reloadedWithin_of_lt {t : ℕ} (h : t < 4) :
    reloadedWithin t = deploymentAfter ingestThenServe :=
  if_pos h

private theorem reloadedWithin_of_ge {t : ℕ} (h : ¬t < 4) :
    reloadedWithin t = deploymentAfter (ingestThenServe ++ ingestThenReload) :=
  if_neg h

/-- A world that serves a corpus and a lookup, which may change; the search returns every chunk, the
generator cites the first one, and the judge supports everything. -/
def corpusWorld (corpus : ℕ → Dict String ChunkRecord) (chunkLookup : ℕ → Dict String String) :
    World where
  rt := Runtime.example
  indexes t := .ok {
    similaritySearch := fun _ => .ok (corpus t).keys
    bm25Ids := (corpus t).keys
    bm25Scores := fun _ => .ok ((corpus t).keys.map fun _ => 0)
    corpus := corpus t }
  rerank _ pairs := .ok (pairs.map fun _ => 1)
  generator t _ _ := .ok (.content (some
    ("\x7b\"claims\": [\x7b\"text\": \"One.\", \"source_chunk_id\": \"" ++
      (corpus t).keys.headD "" ++ "\"\x7d]\x7d")))
  judge _ _ _ _ := .ok (.content (some "\x7b\"verdict\": \"SUPPORTED\", \"reason\": \"r\"\x7d"))
  chunkLookup := chunkLookup
  identities _ := .empty

/-- A world that serves what the worker of a deployment serves. -/
def deployedWorld (states : ℕ → Deployment Unit) : World :=
  { corpusWorld (fun t => (states t).worker.corpus.records)
      (fun t => (states t).worker.chunkLookup) with
    identities := fun t => (states t).worker.identities }

/-- The answer of these worlds from the sample contract. -/
def answerOne : AskResponse :=
  .answered [{ text := "One.", sourceChunkId := some "alpha::7692c3ad3540bb80"
               verdict := .supported, reason := "r" }] "alpha"

private theorem exec_deploymentAfter (labels : List (DeploymentLabel Unit))
    (h : (exec (Deployment.step sampleEnv) {} labels).isSome = true) :
    exec (Deployment.step sampleEnv) {} labels = some (deploymentAfter labels) := by
  obtain ⟨s, hs⟩ := Option.isSome_iff_exists.mp h
  rw [deploymentAfter, hs, Option.getD_some]

/-- The second part of a run. -/
private theorem exec_between (labels labels' : List (DeploymentLabel Unit))
    (h : (exec (Deployment.step sampleEnv) {} labels).isSome = true)
    (h' : (exec (Deployment.step sampleEnv) {} (labels ++ labels')).isSome = true) :
    exec (Deployment.step sampleEnv) (deploymentAfter labels) labels' =
      some (deploymentAfter (labels ++ labels')) := by
  have hrun := exec_deploymentAfter (labels ++ labels') h'
  rw [exec_append, exec_deploymentAfter labels h] at hrun
  exact hrun

/-- A call in whose middle the worker reloads. -/
private theorem servedBy_reloadedWithin :
    ServedBy sampleEnv (deployedWorld reloadedWithin) reloadedWithin := by
  have hserve : (exec (Deployment.step sampleEnv) {} ingestThenServe).isSome = true := by
    decide +kernel
  have hreload : (exec (Deployment.step sampleEnv) {}
      (ingestThenServe ++ ingestThenReload)).isSome = true := by
    decide +kernel
  refine ⟨?_, fun t => ?_, fun _ index hindex => ?_, fun _ => rfl, fun _ => rfl⟩
  · rw [reloadedWithin_of_lt (by omega)]
    exact reach_of_exec (exec_deploymentAfter _ hserve)
  · rcases Nat.lt_trichotomy t 3 with hlt | rfl | hgt
    · rw [reloadedWithin_of_lt (by omega), reloadedWithin_of_lt (by omega)]
      exact .start
    · rw [reloadedWithin_of_lt (by omega), reloadedWithin_of_ge (by omega)]
      exact reach_of_exec (exec_between _ _ hserve hreload)
    · rw [reloadedWithin_of_ge (by omega), reloadedWithin_of_ge (by omega)]
      exact .start
  · obtain rfl := Except.ok.inj hindex
    rfl

/-- `answer_from_contracts` when the question is answered from an ingested contract, and the answer
is verified after a second one has been ingested and the worker has reloaded. -/
theorem answer_from_contracts_reloaded :
    (ask (deployedWorld reloadedWithin) "Which law governs?" { session := {} }).1 = .ok answerOne ∧
      ((deployedWorld reloadedWithin).chunkLookup 0).keys ≠
        ((deployedWorld reloadedWithin).chunkLookup 4).keys ∧
      VouchedOn (IsPageOf sampleEnv (reloadedWithin 4).contracts) (deployedWorld reloadedWithin).rt
        ((deployedWorld reloadedWithin).judge 4) answerOne.claims := by
  have hanswer : (ask (deployedWorld reloadedWithin) "Which law governs?" { session := {} }).1 =
      .ok answerOne := by
    decide +kernel
  have hlength : (askTrace (deployedWorld reloadedWithin) "Which law governs?" {}).length = 5 := by
    decide +kernel
  obtain ⟨t, ht, hclaims⟩ := (answer_from_contracts servedBy_reloadedWithin "Which law governs?"
    {}).2 answerOne hanswer rfl
  obtain rfl : t = 4 := by omega
  exact ⟨hanswer, by decide +kernel, hclaims⟩

/-! ### A call after a reload -/

/-- A page of the contract that was ingested last under its document id, under its chunk id. -/
def IsLatestPage {env : IngestEnv} (ledger : Ledger env) (chunkId text : String) : Prop :=
  ∃ d contract, ledger.latest d = some contract ∧
    text ∈ chunkTexts env contract chunkSize chunkOverlap ∧ chunkId = chunkIdFor env d text

/-- A world that serves a corpus, with the lookup that `Sessions.reload` builds of it. -/
structure ServesCorpus (w : World) (corpus : Dict String ChunkRecord) : Prop where
  indexed : ∀ t index, w.indexes t = .ok index → index.corpus = corpus
  lookedUp : ∀ t, w.chunkLookup t = buildChunkLookup corpus.values

section

variable {Okapi : Type} {bm25Okapi : List (List (List Char)) → Except PyError Okapi}
  {env : IngestEnv} {texts : List String} {calls : List IngestCall} {s : Stores}
  {g g' : IndexGlobals Okapi} {corpus : Dict String ChunkRecord} {w : World}

/-- A reload that returns serves the corpus on disk. -/
private theorem bm25Index_of_reload (hrunning : g.embedder = true)
    (h : reloadIndexFromDisk env.unicode bm25Okapi s.indexFiles g = (.ok (), g')) :
    g'.bm25Index = some s.corpusOnDisk := by
  have hcorpus : (s.indexFiles.bm25.map fun corpus => corpus.getD .empty) = .ok s.corpusOnDisk :=
    rfl
  by_cases hrefused : s.faissDisk = none ∨ s.corpusOnDisk.keys = []
  · obtain ⟨e, he⟩ : ∃ e,
        reloadIndexFromDisk env.unicode bm25Okapi s.indexFiles g = (.error e, g) :=
      reload_of_refused hrunning rfl hcorpus hrefused
    cases (Prod.mk.inj (he.symm.trans h)).1
  · obtain ⟨hstore, hkeys⟩ := not_or.mp hrefused
    obtain ⟨store, hsome⟩ := Option.ne_none_iff_exists'.mp hstore
    have hfaiss : s.indexFiles.faiss = .ok (some store) := congrArg Except.ok hsome
    rcases hcache : buildBm25 env.unicode bm25Okapi s.corpusOnDisk with e | cache
    · have hload : ∃ e, loadIndexes env.unicode bm25Okapi s.indexFiles = .error e := by
        rw [loadIndexes, hcorpus, hfaiss]
        simp only [bind, Except.bind, hcache]
        exact ⟨e, rfl⟩
      obtain ⟨e', he'⟩ := hload
      cases (Prod.mk.inj ((reload_of_raised hrunning he').symm.trans h)).1
    · obtain ⟨-, rfl⟩ := Prod.mk.inj
        ((reload_eq_ok hrunning hfaiss hcorpus hcache hkeys).symm.trans h)
      rfl

/-- What is in a corpus of the latest contracts. -/
private theorem isLatestPage_of_offers {ledger : Ledger env} (h : HoldsLatest ledger corpus)
    {chunkId text : String} (hoffers : Offers corpus chunkId text) :
    IsLatestPage ledger chunkId text := by
  obtain ⟨chunk, hchunk, rfl, rfl⟩ := hoffers
  obtain ⟨k, hk⟩ := Dict.mem_values_iff.mp hchunk
  obtain ⟨rfl, hid, contract, hlatest, htext⟩ := h.sound k chunk hk
  exact ⟨_, contract, hlatest, htext, hid⟩

/-- What is in the lookup of a corpus is in the corpus. -/
private theorem offers_of_buildChunkLookup {chunkId text : String}
    (hget : (buildChunkLookup corpus.values).get? chunkId = some text) :
    Offers corpus chunkId text := by
  by_cases hid : chunkId ∈ corpus.values.map ChunkRecord.chunkId
  · obtain ⟨chunk, hchunk, hchunkId, hlookup⟩ : ∃ chunk ∈ corpus.values, chunk.chunkId = chunkId ∧
        (buildChunkLookup corpus.values).get? chunkId = some chunk.rawChunkText :=
      Dict.get?_setAll_of_mem hid
    exact ⟨chunk, hchunk, hchunkId, Option.some.inj (hlookup.symm.trans hget)⟩
  · rw [buildChunkLookup, Dict.get?_setAll_of_notMem hid] at hget
    cases hget

/-- **Answers come from the latest contracts.** After calls that have all returned, over texts and
pages whose hashes differ, a worker that has reloaded shows to the generator only pages of the
contracts that were ingested last and have not been deleted since, and each supported or partially
supported claim of an answer cites such a page and was judged on it. -/
theorem answer_from_latest
    (hinj : ∀ a ∈ texts, ∀ b ∈ texts, contentHash env a = contentHash env b → a = b)
    (hpages : Set.InjOn env.sha256.hex16 {text | text ∈ pagesOf env texts})
    (hwithin : ∀ call ∈ calls, call.Within texts) (hrun : exec (serve env) {} calls = some s)
    (hrunning : g.embedder = true)
    (hreload : reloadIndexFromDisk env.unicode bm25Okapi s.indexFiles g = (.ok (), g'))
    (hcorpus : g'.bm25Index = some corpus) (hserves : ServesCorpus w corpus) (question : String)
    (session : SessionState) :
    (∀ asked chunks, .generate asked chunks ∈ askTrace w question session → ∀ m ∈ chunks,
      IsLatestPage (ledgerOf env calls) m.chunkId m.rawChunkText) ∧
    ∀ response, (ask w question { session }).1 = .ok response → response.status = .answered →
      ∃ t, VouchedOn (IsLatestPage (ledgerOf env calls)) w.rt (w.judge t) response.claims := by
  have hlatest : HoldsLatest (ledgerOf env calls) corpus := by
    obtain rfl := Option.some.inj (hcorpus.symm.trans (bm25Index_of_reload hrunning hreload))
    exact holdsLatest_disk hinj hpages hwithin hrun
  constructor
  · intro asked chunks hshown m hm
    have hoffers : ∀ (t : ℕ) index chunkId text, w.indexes t = .ok index →
        Offers index.corpus chunkId text → IsLatestPage (ledgerOf env calls) chunkId text := by
      intro t index chunkId text hindex hoffers
      rw [hserves.indexed t index hindex] at hoffers
      exact isLatestPage_of_offers hlatest hoffers
    obtain ⟨-, -, hpage⟩ := shown_isPage hoffers question session hshown hm
    exact hpage
  · intro response hask hstatus
    have hlookup : ∀ (t : ℕ) chunkId text, (w.chunkLookup t).get? chunkId = some text →
        IsLatestPage (ledgerOf env calls) chunkId text := by
      intro t chunkId text hget
      rw [hserves.lookedUp t] at hget
      exact isLatestPage_of_offers hlatest (offers_of_buildChunkLookup hget)
    obtain ⟨t, -, hvouched⟩ := vouchedOn_of_answered hlookup hask hstatus
    exact ⟨t, hvouched⟩

end

/-- The stores after an update, a deletion and another insert. -/
def replacedStores : Stores := (exec (serve sampleEnv) {} replacedCalls).getD {}

/-- What a worker serves that has been reloaded then. -/
def replacedWorld : World :=
  corpusWorld (fun _ => replacedStores.corpusOnDisk)
    (fun _ => buildChunkLookup replacedStores.corpusOnDisk.values)

/-- `answer_from_latest` for a worker that was running when the contracts were replaced. -/
theorem answer_from_latest_replaced : ∃ t,
    (ask replacedWorld "Which law governs?" { session := {} }).1 = .ok answerOne ∧
      VouchedOn (IsLatestPage (ledgerOf sampleEnv replacedCalls)) replacedWorld.rt
        (replacedWorld.judge t) answerOne.claims := by
  have hsome : (exec (serve sampleEnv) {} replacedCalls).isSome = true := by decide +kernel
  obtain ⟨s, hs⟩ := Option.isSome_iff_exists.mp hsome
  have hstores : exec (serve sampleEnv) {} replacedCalls = some replacedStores := by
    rw [replacedStores, hs, Option.getD_some]
  have hwithin : ∀ call ∈ replacedCalls, call.Within ["one", "two"] := by decide +kernel
  have hpages : ∀ a ∈ pagesOf sampleEnv ["one", "two"], ∀ b ∈ pagesOf sampleEnv ["one", "two"],
      sampleEnv.sha256.hex16 a = sampleEnv.sha256.hex16 b → a = b := by
    decide +kernel
  have hinjOn : Set.InjOn sampleEnv.sha256.hex16
      {text | text ∈ pagesOf sampleEnv ["one", "two"]} := fun a ha b hb => hpages a ha b hb
  have hkeys : replacedStores.corpusOnDisk.keys ≠ [] := by decide +kernel
  have hrunning : (loadedWorker {}).embedder = true := rfl
  obtain ⟨g', hreload, -⟩ := (reload_after sampleOkapi_ok Text.keepsWords_ascii
    (reach_of_exec hstores) hrunning).1 hkeys
  have hserves : ServesCorpus replacedWorld replacedStores.corpusOnDisk :=
    ⟨fun _ index hindex => by rw [← Except.ok.inj hindex], fun _ => rfl⟩
  have hanswer : (ask replacedWorld "Which law governs?" { session := {} }).1 = .ok answerOne := by
    decide +kernel
  obtain ⟨t, hvouched⟩ := (answer_from_latest sample_injective hinjOn hwithin hstores hrunning
    hreload (bm25Index_of_reload hrunning hreload) hserves "Which law governs?" {}).2
    answerOne hanswer rfl
  exact ⟨t, hanswer, hvouched⟩

end AuditFlow
