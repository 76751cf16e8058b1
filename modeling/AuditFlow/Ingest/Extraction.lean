import AuditFlow.Core.JsonExtraction
import AuditFlow.Foundation.Attempts
import AuditFlow.Foundation.Listing
import AuditFlow.Ingest.Agreement
import AuditFlow.Ingest.Identities

/-!
# Extracting identities

`ingest/identity_extraction.py`: a language model is asked who the parties of a contract are, and a
second one when the first fails; if both do, the identity is empty and its source `failed`. The
identities are cached under the hash of the preamble they were extracted from.

A run of `extract_all_identities` writes **every** result to the cache, the failed ones with the
others, and asks for nothing that is cached. So the cache holds the latest attempt of each key
(`cache_eq_latest`) and what it holds it keeps (`cached_identity_stays`): a failure is never made
good. `failed_extractions_retried_iff` says for which runs this makes no difference.
-/

namespace AuditFlow

open Foundation

/-! ### One extraction -/

section

variable (u : Text.Unicode)

/-- A literal text. -/
def literalText (s : String) : Matcher := .all (s.toList.map fun c => .satisfy (· == c))

/-- `SELF_DECLARED_RE`. -/
def selfDeclaredRe : Matcher :=
  let inName := Matcher.satisfy fun c =>
    c.isUpper || c == ' ' || c == '-' || c == '&' || c == '/'
  .all [boundary u, literalText "THIS", .many1 space, .satisfy Char.isUpper, .times inName 3,
    .lazyUpTo inName 57, .many1 space,
    .any (["AGREEMENT", "CONTRACT", "LICENSE", "LEASE", "AMENDMENT"].map literalText), boundary u]

/-- `_self_declared_hint`: what the opening line of a contract calls it. -/
def selfDeclaredHint (preambleText : String) : Option String :=
  ((selfDeclaredRe u).search (preambleText.toList.take 400)).map fun found =>
    String.ofList (Text.strip found)

/-- `PROMPT.format(preamble_text=…, self_declared_hint_line=…)`. -/
def identityPrompt (preambleText hintLine : String) : String :=
  "\n".intercalate [
    "Extract structured metadata for THIS contract -- the agreement whose",
    "full text follows below -- and NOT any OTHER agreement it merely mentions",
    "or references (for example: an \"Original Agreement\" it is terminating, a",
    "prior agreement it is amending, or an agreement cited as background",
    "elsewhere in the text).",
    "",
    "If this document is a termination, amendment, consent, or assignment OF",
    "another agreement, contract_type must be the type of THIS document (e.g.",
    "\"Mutual Termination Agreement\"), never the type of the agreement being",
    "terminated/amended/assigned. This metadata is used for search filtering",
    "only, not as the document's title.",
    "",
    hintLine,
    "",
    "Text:",
    preambleText,
    "",
    "Respond with ONLY valid JSON, no markdown fences, no other text:",
    "\x7b\"company_name\": \"...\", \"counterparty_name\": \"...\", \"contract_type\": \"...\", " ++
      "\"confidence\": \"high\" or \"low\"\x7d",
    "",
    "If the text doesn't clearly state these, set \"confidence\": \"low\" rather than guessing " ++
      "a value."
  ]

/-- `_build_prompt`: the prompt, and the hint that it uses. -/
def buildPrompt (preambleText : String) : String × String :=
  let hint := truthy (selfDeclaredHint u preambleText)
  let hintLine := match hint with
    | some hint =>
      "This document's own opening line calls itself: \"" ++ hint ++ "\". " ++
        "Use this as the contract_type unless it is clearly a mis-scan."
    | none =>
      "(No unambiguous self-declaration found in the opening text -- " ++
        "read carefully to distinguish THIS document's own type from any " ++
        "other agreement it references.)"
  (identityPrompt preambleText hintLine, hint.getD "")

end

/-- The two services as one extraction finds them: a prompt is answered by a text, or the call
raises. -/
structure LanguageModels where
  gemini : String → Except PyError (Option String)
  groq : String → Except PyError (Option String)

/-- `_call_gemini`. -/
def callGemini (rt : Runtime) (models : LanguageModels) (prompt : String) :
    Except PyError ExtractedIdentity := do
  parseLlmJson rt (← models.gemini prompt) ExtractedIdentity.schema

/-- `_call_groq`. -/
def callGroq (rt : Runtime) (models : LanguageModels) (prompt : String) :
    Except PyError ExtractedIdentity := do
  parseLlmJson rt (← models.groq prompt) ExtractedIdentity.schema

/-- The identity that is made of a parsed reply, with its surrogates replaced. -/
def ExtractedIdentity.toIdentity (parsed : ExtractedIdentity) (docHash source hintUsed : String) :
    DocumentIdentity where
  documentHash := docHash
  companyName := parsed.companyName.shown
  counterpartyName := parsed.counterpartyName.shown
  contractType := parsed.contractType.shown
  confidence := parsed.confidence.value
  source
  selfDeclaredHint := hintUsed

section

variable (env : IngestEnv) (rt : Runtime)

/-- `extract_one`. -/
def extractOne (models : LanguageModels) (docHash preambleText : String) : DocumentIdentity :=
  let (prompt, hintUsed) := buildPrompt env.unicode preambleText
  match callGemini rt models prompt with
  | .ok parsed => parsed.toIdentity docHash "gemini" hintUsed
  | .error _ =>
    match callGroq rt models prompt with
    | .ok parsed => parsed.toIdentity docHash "groq" hintUsed
    | .error _ => {
        documentHash := docHash
        companyName := ""
        counterpartyName := ""
        contractType := "Unknown Agreement"
        confidence := "low"
        source := "failed"
        selfDeclaredHint := hintUsed }

/-- One of the two services gives a reply that can be used. -/
def LanguageModels.extracts (models : LanguageModels) (preambleText : String) : Bool :=
  let prompt := (buildPrompt env.unicode preambleText).1
  (callGemini rt models prompt).isOk || (callGroq rt models prompt).isOk

/-! ### A run over a list of documents -/

/-- The order in which tasks complete. -/
structure CompletionOrder where
  list : ℕ → List ℕ
  perm : ∀ n, (list n).Perm (List.range n)

/-- What a run of `extract_all_identities` is given: the documents, the services as each of the
tasks finds them, and the order in which the tasks complete. -/
structure ExtractionRun where
  documents : List JsonContract
  models : ℕ → LanguageModels
  completed : CompletionOrder

/-- The variables of the loop over the documents. -/
structure ExtractionScan where
  results : Dict String DocumentIdentity := .empty
  toProcess : List (String × String) := []

/-- One document: its identity is cached, or a task. -/
def scanDocument (cache : Dict String DocumentIdentity) (scan : ExtractionScan)
    (doc : JsonContract) : Except PyError ExtractionScan :=
  match doc.context.subscript with
  | .error e => .error e
  | .ok context =>
    let preamble := preambleOf context
    let docHash := hashPreamble env preamble
    match cache.get? docHash with
    | some identity => .ok { scan with results := scan.results.set docHash identity }
    | none => .ok { scan with toProcess := scan.toProcess ++ [(docHash, preamble)] }

/-- The identities that the tasks of a run come back with, as they complete. -/
def ExtractionRun.attempts (run : ExtractionRun) (toProcess : List (String × String)) :
    List DocumentIdentity :=
  (run.completed.list toProcess.length).filterMap fun i =>
    toProcess[i]?.map fun task => extractOne env rt (run.models i) task.1 task.2

/-- What is left of a run: the attempts, the cache file, and the value that is returned. -/
structure Extraction where
  attempts : List DocumentIdentity
  cache : Dict String DocumentIdentity
  results : Dict String DocumentIdentity

/-- `extract_all_identities`, on what `_load_cache` has read. -/
def extractAllIdentities (run : ExtractionRun) (cache : Dict String DocumentIdentity) :
    Except PyError Extraction := do
  let scan ← run.documents.foldlM (scanDocument env cache) {}
  let attempts := run.attempts env rt scan.toProcess
  return {
    attempts
    cache := if scan.toProcess = [] then cache else cache.setAll (·.documentHash) id attempts
    results := scan.results.setAll (·.documentHash) id attempts }

/-- The cache file after some runs, and the attempts that were made, in the order in which they
completed. -/
structure ExtractionHistory where
  cache : Dict String DocumentIdentity := .empty
  attempts : List DocumentIdentity := []

/-- One more run; the cache is left alone if it raises. -/
def ExtractionHistory.next (history : ExtractionHistory) (run : ExtractionRun) :
    ExtractionHistory :=
  match extractAllIdentities env rt run history.cache with
  | .ok extraction => {
      cache := extraction.cache
      attempts := history.attempts ++ extraction.attempts }
  | .error _ => history

/-- Runs one after the other, where there is no cache yet. -/
def extractionHistory (runs : List ExtractionRun) : ExtractionHistory :=
  runs.foldl (ExtractionHistory.next env rt) {}

/-! ### What a run does -/

/-- Every document has a context, be it blank. -/
def ExtractionRun.Readable (run : ExtractionRun) : Prop :=
  ∀ doc ∈ run.documents, ∃ text, doc.context = .text text

/-- The key and the preamble of a document. -/
def preambleTask (doc : JsonContract) : Option (String × String) :=
  doc.context.get.map fun text => (hashPreamble env (preambleOf text), preambleOf text)

/-- The tasks for the documents whose identity is not cached. -/
def pendingTasks (cache : Dict String DocumentIdentity) (documents : List JsonContract) :
    List (String × String) :=
  (documents.filterMap (preambleTask env)).filter fun task => (cache.get? task.1).isNone

variable {env} {rt} {run : ExtractionRun} {cache : Dict String DocumentIdentity}
  {documents : List JsonContract} {scan scan' : ExtractionScan}
  {tasks : List (String × String)} {history : ExtractionHistory}

private theorem pendingTasks_cons {doc : JsonContract} {text : String}
    (h : doc.context = .text text) : pendingTasks env cache (doc :: documents) =
      (if cache.get? (hashPreamble env (preambleOf text)) = none then
        [(hashPreamble env (preambleOf text), preambleOf text)] else []) ++
      pendingTasks env cache documents := by
  have htask : preambleTask env doc =
      some (hashPreamble env (preambleOf text), preambleOf text) := by
    rw [preambleTask, h]
    rfl
  rw [pendingTasks, List.filterMap_cons_some htask, List.filter_cons, pendingTasks]
  simp only [Option.isNone_iff_eq_none]
  split_ifs
  · rfl
  · rfl

/-- **The scan** collects the tasks if every document has a context. -/
theorem exists_scan (scan : ExtractionScan)
    (h : ∀ doc ∈ documents, ∃ text, doc.context = .text text) :
    ∃ scan', documents.foldlM (scanDocument env cache) scan = .ok scan' ∧
      scan'.toProcess = scan.toProcess ++ pendingTasks env cache documents := by
  induction documents generalizing scan with
  | nil => exact ⟨scan, rfl, (List.append_nil _).symm⟩
  | cons doc documents ih =>
    obtain ⟨⟨text, htext⟩, hrest⟩ := List.forall_mem_cons.mp h
    rw [pendingTasks_cons htext]
    rcases hcache : cache.get? (hashPreamble env (preambleOf text)) with - | identity
    · have hdoc : scanDocument env cache scan doc = .ok { scan with
          toProcess := scan.toProcess ++
            [(hashPreamble env (preambleOf text), preambleOf text)] } := by
        simp only [scanDocument, htext, ContextField.subscript, hcache]
      obtain ⟨scan', hscan', htasks⟩ := ih _ hrest
      refine ⟨scan', ?_, ?_⟩
      · rw [List.foldlM_cons, hdoc]
        exact hscan'
      · rw [htasks, if_pos rfl, List.append_assoc]
    · have hdoc : scanDocument env cache scan doc = .ok { scan with
          results := scan.results.set (hashPreamble env (preambleOf text)) identity } := by
        simp only [scanDocument, htext, ContextField.subscript, hcache]
      obtain ⟨scan', hscan', htasks⟩ := ih _ hrest
      refine ⟨scan', ?_, ?_⟩
      · rw [List.foldlM_cons, hdoc]
        exact hscan'
      · rw [htasks, if_neg (Option.some_ne_none identity), List.nil_append]

private theorem readable_of_scan
    (h : documents.foldlM (scanDocument env cache) scan = .ok scan') :
    ∀ doc ∈ documents, ∃ text, doc.context = .text text := by
  induction documents generalizing scan with
  | nil => simp
  | cons doc documents ih =>
    rw [List.foldlM_cons] at h
    rcases hcontext : doc.context with - | - | text
    · rw [scanDocument, hcontext] at h
      cases h
    · rw [scanDocument, hcontext] at h
      cases h
    · refine List.forall_mem_cons.mpr ⟨⟨text, hcontext⟩, ?_⟩
      rcases hdoc : scanDocument env cache scan doc with e | scan₁
      · rw [hdoc] at h
        cases h
      · rw [hdoc] at h
        exact ih h

/-- **A run that returns** has made one attempt for each task, and has stored its result. -/
theorem exists_extractAllIdentities (env : IngestEnv) (rt : Runtime)
    (cache : Dict String DocumentIdentity) (h : run.Readable) :
    ∃ results, extractAllIdentities env rt run cache = .ok {
      attempts := run.attempts env rt (pendingTasks env cache run.documents)
      cache := cache.setAll (·.documentHash) id
        (run.attempts env rt (pendingTasks env cache run.documents))
      results } := by
  obtain ⟨scan', hscan, htasks⟩ := exists_scan {} h
  have htasks' : scan'.toProcess = pendingTasks env cache run.documents := htasks
  have hsaved : (if scan'.toProcess = [] then cache else
        cache.setAll (·.documentHash) id (run.attempts env rt scan'.toProcess)) =
      cache.setAll (·.documentHash) id (run.attempts env rt scan'.toProcess) := by
    split_ifs with hnone
    · rw [hnone, ExtractionRun.attempts]
      simp [Dict.setAll]
    · rfl
  refine ⟨scan'.results.setAll (·.documentHash) id (run.attempts env rt scan'.toProcess), ?_⟩
  rw [extractAllIdentities, hscan, ← htasks']
  simp only [bind, Except.bind, hsaved]
  rfl

/-- **A run raises** before any attempt if a document has no context. -/
theorem extractAllIdentities_raises (env : IngestEnv) (rt : Runtime)
    (cache : Dict String DocumentIdentity) (h : ¬run.Readable) :
    ∃ e, extractAllIdentities env rt run cache = .error e := by
  rcases hrun : run.documents.foldlM (scanDocument env cache) {} with e | scan'
  · exact ⟨e, by rw [extractAllIdentities, hrun]; rfl⟩
  · exact absurd (readable_of_scan hrun) h

/-- What is known of a run that has returned. -/
theorem extractAllIdentities_ok {extraction : Extraction}
    (h : extractAllIdentities env rt run cache = .ok extraction) :
    run.Readable ∧
      extraction.attempts = run.attempts env rt (pendingTasks env cache run.documents) := by
  by_cases hreadable : run.Readable
  · obtain ⟨results, hrun⟩ := exists_extractAllIdentities env rt cache hreadable
    obtain rfl := Except.ok.inj (h.symm.trans hrun)
    exact ⟨hreadable, rfl⟩
  · obtain ⟨e, he⟩ := extractAllIdentities_raises env rt cache hreadable
    rw [he] at h
    cases h

/-! ### The attempts of a run -/

@[simp] theorem documentHash_extractOne (models : LanguageModels) (docHash preambleText : String) :
    (extractOne env rt models docHash preambleText).documentHash = docHash := by
  simp only [extractOne]
  split
  · rfl
  · split
    · rfl
    · rfl

/-- **An extraction fails** exactly if neither service gives a reply that can be used. -/
theorem source_extractOne_iff {models : LanguageModels} {docHash preambleText : String} :
    (extractOne env rt models docHash preambleText).source = "failed" ↔
      models.extracts env rt preambleText = false := by
  simp only [extractOne, LanguageModels.extracts]
  rcases callGemini rt models (buildPrompt env.unicode preambleText).1 with e | parsed
  · rcases callGroq rt models (buildPrompt env.unicode preambleText).1 with e' | parsed
    · simp [Except.isOk, Except.toBool]
    · simp [Except.isOk, Except.toBool, ExtractedIdentity.toIdentity]
  · simp [Except.isOk, Except.toBool, ExtractedIdentity.toIdentity]

theorem mem_pendingTasks_iff {task : String × String} :
    task ∈ pendingTasks env cache documents ↔
      (∃ doc ∈ documents, ∃ text, doc.context = .text text ∧
        task = (hashPreamble env (preambleOf text), preambleOf text)) ∧
      cache.get? task.1 = none := by
  rw [pendingTasks, List.mem_filter, List.mem_filterMap, Option.isNone_iff_eq_none]
  refine and_congr_left fun _ => exists_congr fun doc => and_congr_right fun _ => ?_
  rw [preambleTask]
  rcases doc.context with - | - | text
  · simp [ContextField.get]
  · simp [ContextField.get]
  · simp [ContextField.get, eq_comm]

theorem exists_task_of_mem_attempts {a : DocumentIdentity}
    (h : a ∈ run.attempts env rt tasks) : ∃ task ∈ tasks, a.documentHash = task.1 := by
  obtain ⟨i, -, hi⟩ := List.mem_filterMap.mp h
  obtain ⟨task, htask, rfl⟩ := Option.map_eq_some_iff.mp hi
  exact ⟨task, List.mem_of_getElem? htask, documentHash_extractOne _ _ _⟩

/-- Every task is attempted. -/
theorem exists_attempt_of_mem (env : IngestEnv) (rt : Runtime) (run : ExtractionRun)
    {task : String × String} (h : task ∈ tasks) :
    ∃ a ∈ run.attempts env rt tasks, a.documentHash = task.1 := by
  obtain ⟨i, hi, rfl⟩ := List.mem_iff_getElem.mp h
  have hlisted : i ∈ run.completed.list tasks.length :=
    (run.completed.perm tasks.length).mem_iff.mpr (List.mem_range.mpr hi)
  refine ⟨extractOne env rt (run.models i) tasks[i].1 tasks[i].2, ?_,
    documentHash_extractOne _ _ _⟩
  exact List.mem_filterMap.mpr ⟨i, hlisted, by rw [List.getElem?_eq_getElem hi, Option.map_some]⟩

/-- Of the tasks with one key, all but the last to complete fail. -/
def ExtractionRun.OnlyLastExtracts (env : IngestEnv) (rt : Runtime) (run : ExtractionRun)
    (tasks : List (String × String)) : Prop :=
  (run.completed.list tasks.length).Pairwise fun i j =>
    ∀ task ∈ tasks[i]?, ∀ task' ∈ tasks[j]?, task.1 = task'.1 →
      (run.models i).extracts env rt task.2 = false

private theorem settlesOnce_attempts_iff :
    SettlesOnce (·.documentHash) (·.source = "failed") (run.attempts env rt tasks) ↔
      run.OnlyLastExtracts env rt tasks := by
  rw [SettlesOnce, ExtractionRun.attempts, List.pairwise_filterMap,
    ExtractionRun.OnlyLastExtracts]
  refine List.Pairwise.iff fun i j => ?_
  constructor
  · intro h task htask task' htask' hkey
    have hsame : (extractOne env rt (run.models i) task.1 task.2).documentHash =
        (extractOne env rt (run.models j) task'.1 task'.2).documentHash := by
      rw [documentHash_extractOne, documentHash_extractOne, hkey]
    exact source_extractOne_iff.mp (h _ (Option.map_eq_some_iff.mpr ⟨task, htask, rfl⟩) _
      (Option.map_eq_some_iff.mpr ⟨task', htask', rfl⟩) hsame)
  · intro h a ha b hb hkey
    obtain ⟨task, htask, rfl⟩ := Option.map_eq_some_iff.mp ha
    obtain ⟨task', htask', rfl⟩ := Option.map_eq_some_iff.mp hb
    rw [documentHash_extractOne, documentHash_extractOne] at hkey
    exact source_extractOne_iff.mpr (h task htask task' htask' hkey)

/-! ### Histories -/

/-- The attempts that one more run adds to a history. -/
private theorem next_of_readable (h : run.Readable) : history.next env rt run = {
    cache := history.cache.setAll (·.documentHash) id
      (run.attempts env rt (pendingTasks env history.cache run.documents))
    attempts := history.attempts ++
      run.attempts env rt (pendingTasks env history.cache run.documents) } := by
  obtain ⟨results, hrun⟩ := exists_extractAllIdentities env rt history.cache h
  rw [ExtractionHistory.next, hrun]

private theorem next_of_not_readable (h : ¬run.Readable) : history.next env rt run = history := by
  obtain ⟨e, he⟩ := extractAllIdentities_raises env rt history.cache h
  rw [ExtractionHistory.next, he]

/-- A run attempts nothing that is cached. -/
private theorem not_cached_of_mem_attempts {a : DocumentIdentity}
    (h : a ∈ run.attempts env rt (pendingTasks env cache documents)) :
    cache.get? a.documentHash = none := by
  obtain ⟨task, htask, hkey⟩ := exists_task_of_mem_attempts h
  rw [hkey]
  exact (mem_pendingTasks_iff.mp htask).2

/-- **The cache is the latest attempt** of each key. -/
def ExtractionHistory.Kept (history : ExtractionHistory) : Prop :=
  history.cache = Dict.latest (·.documentHash) history.attempts

theorem ExtractionHistory.Kept.next (h : history.Kept) (run : ExtractionRun) :
    (history.next env rt run).Kept := by
  by_cases hreadable : run.Readable
  · rw [next_of_readable hreadable, Kept, Dict.latest_append, ← h]
  · rw [next_of_not_readable hreadable]
    exact h

/-- What is cached stays cached as it is. -/
theorem ExtractionHistory.get?_next {k : String} {identity : DocumentIdentity}
    (h : history.cache.get? k = some identity) (run : ExtractionRun) :
    (history.next env rt run).cache.get? k = some identity := by
  by_cases hreadable : run.Readable
  · rw [next_of_readable hreadable]
    have hnew : k ∉ (run.attempts env rt
        (pendingTasks env history.cache run.documents)).map (·.documentHash) := by
      intro hk
      obtain ⟨a, ha, rfl⟩ := List.mem_map.mp hk
      rw [not_cached_of_mem_attempts ha] at h
      cases h
    exact (Dict.get?_setAll_of_notMem hnew).trans h
  · rw [next_of_not_readable hreadable]
    exact h

/-- **Whatever is cached is never replaced**, in whatever runs follow: a failed identity no more
than another. -/
theorem cached_identity_stays {k : String} {identity : DocumentIdentity}
    (h : history.cache.get? k = some identity) (runs : List ExtractionRun) :
    (runs.foldl (ExtractionHistory.next env rt) history).cache.get? k = some identity := by
  induction runs generalizing history with
  | nil => exact h
  | cons run runs ih => exact ih (ExtractionHistory.get?_next h run)

/-- The cache of a history of runs. -/
theorem cache_eq_latest (runs : List ExtractionRun) : (extractionHistory env rt runs).Kept := by
  have hstep : ∀ (runs : List ExtractionRun) (history : ExtractionHistory), history.Kept →
      (runs.foldl (ExtractionHistory.next env rt) history).Kept := by
    intro runs
    induction runs with
    | nil => exact fun _ h => h
    | cons run runs ih => exact fun history h => ih _ (h.next run)
  exact hstep runs {} rfl

/-! ### Failed extractions -/

/-- An identity that has never been extracted but by failed attempts is extracted again, and the
result is the one that is stored. -/
def ExtractionHistory.Retries (env : IngestEnv) (rt : Runtime) (history : ExtractionHistory)
    (run : ExtractionRun) : Prop :=
  ∀ doc ∈ run.documents, ∀ text, doc.context = .text text →
    (∀ a ∈ history.attempts, a.documentHash = hashPreamble env (preambleOf text) →
      a.source = "failed") →
    ∃ extraction, extractAllIdentities env rt run history.cache = .ok extraction ∧
      ∃ a ∈ extraction.attempts, a.documentHash = hashPreamble env (preambleOf text) ∧
        extraction.cache.get? (hashPreamble env (preambleOf text)) = some a

/-- The documents of a run are such that its cache makes no difference. -/
structure ExtractionRun.Unhampered (env : IngestEnv) (rt : Runtime) (run : ExtractionRun)
    (cache : Dict String DocumentIdentity) : Prop where
  /-- No document has a failed identity in the cache. -/
  noneFailed : ∀ doc ∈ run.documents, ∀ text, doc.context = .text text →
    ∀ identity ∈ cache.get? (hashPreamble env (preambleOf text)), identity.source ≠ "failed"
  /-- Every document has a context, unless there is nothing to extract. -/
  readable : run.Readable ∨ pendingTasks env cache run.documents = []
  /-- Where several documents to be extracted have one key, only the last extraction succeeds. -/
  onlyLast : run.OnlyLastExtracts env rt (pendingTasks env cache run.documents)

private theorem retries_iff (hkept : history.Kept)
    (hsettles : SettlesOnce (·.documentHash) (·.source = "failed") history.attempts) :
    history.Retries env rt run ↔
      (∀ doc ∈ run.documents, ∀ text, doc.context = .text text →
        ∀ identity ∈ history.cache.get? (hashPreamble env (preambleOf text)),
          identity.source ≠ "failed") ∧
      (run.Readable ∨ pendingTasks env history.cache run.documents = []) := by
  constructor
  · intro hretries
    constructor
    · intro doc hdoc text htext identity hidentity hfailed
      -- the failed attempt is the latest one, so that all of them failed
      have hall := (Dict.failed_latest_iff hsettles (hkept ▸ hidentity)).mp hfailed
      obtain ⟨extraction, hrun, a, ha, hkey, -⟩ := hretries doc hdoc text htext hall
      have hnone := not_cached_of_mem_attempts ((extractAllIdentities_ok hrun).2 ▸ ha)
      rw [hkey, hidentity] at hnone
      cases hnone
    · by_contra hnot
      obtain ⟨hreadable, hpending⟩ := not_or.mp hnot
      obtain ⟨task, htask⟩ := List.exists_mem_of_ne_nil _ hpending
      obtain ⟨⟨doc, hdoc, text, htext, rfl⟩, hnone⟩ := mem_pendingTasks_iff.mp htask
      rw [hkept] at hnone
      have hnever := Dict.get?_latest_eq_none_iff.mp hnone
      obtain ⟨extraction, hrun, -⟩ := hretries doc hdoc text htext
        fun a ha hkey => absurd hkey (hnever a ha)
      exact hreadable (extractAllIdentities_ok hrun).1
  · rintro ⟨hnoneFailed, hreadable⟩ doc hdoc text htext hfailed
    rcases hcache : history.cache.get? (hashPreamble env (preambleOf text)) with - | identity
    · -- nothing is cached, and the run has a task for the document
      have htask : (hashPreamble env (preambleOf text), preambleOf text) ∈
          pendingTasks env history.cache run.documents :=
        mem_pendingTasks_iff.mpr ⟨⟨doc, hdoc, text, htext, rfl⟩, hcache⟩
      have hreadable' : run.Readable :=
        hreadable.resolve_right (List.ne_nil_of_mem htask)
      obtain ⟨results, hrun⟩ := exists_extractAllIdentities env rt history.cache hreadable'
      obtain ⟨a, ha, hkey⟩ := exists_attempt_of_mem env rt run htask
      obtain ⟨b, hb, hkey', hstored⟩ :
          ∃ b ∈ run.attempts env rt (pendingTasks env history.cache run.documents),
            b.documentHash = hashPreamble env (preambleOf text) ∧
            (history.cache.setAll (·.documentHash) id
              (run.attempts env rt (pendingTasks env history.cache run.documents))).get?
              (hashPreamble env (preambleOf text)) = some (id b) :=
        Dict.get?_setAll_of_mem (List.mem_map.mpr ⟨a, ha, hkey⟩)
      exact ⟨_, hrun, b, hb, hkey', hstored⟩
    · have hnot := hnoneFailed doc hdoc text htext identity hcache
      exact absurd ((Dict.failed_latest_iff hsettles (hkept ▸ hcache)).mpr hfailed) hnot

/-- One more run settles once exactly if its own attempts do. -/
private theorem settlesOnce_next_iff (hkept : history.Kept)
    (hsettles : SettlesOnce (·.documentHash) (·.source = "failed") history.attempts)
    (hreadable : run.Readable ∨ pendingTasks env history.cache run.documents = []) :
    SettlesOnce (·.documentHash) (·.source = "failed") (history.next env rt run).attempts ↔
      run.OnlyLastExtracts env rt (pendingTasks env history.cache run.documents) := by
  by_cases hread : run.Readable
  · have hnew : ∀ a ∈ history.attempts,
        ∀ b ∈ run.attempts env rt (pendingTasks env history.cache run.documents),
        a.documentHash ≠ b.documentHash := by
      intro a ha b hb
      have hnone := not_cached_of_mem_attempts hb
      rw [hkept] at hnone
      exact Dict.get?_latest_eq_none_iff.mp hnone a ha
    rw [next_of_readable hread, settlesOnce_append_iff hnew, settlesOnce_attempts_iff]
    exact and_iff_right hsettles
  · rw [next_of_not_readable hread, ← settlesOnce_attempts_iff, hreadable.resolve_left hread]
    refine iff_of_true hsettles ?_
    have hnil : run.attempts env rt [] = [] := by
      rw [ExtractionRun.attempts]
      simp
    rw [hnil]
    exact List.Pairwise.nil

/-- The attempts of a history are never taken back. -/
private theorem settlesOnce_of_foldl {runs : List ExtractionRun}
    (h : SettlesOnce (·.documentHash) (·.source = "failed")
      (runs.foldl (ExtractionHistory.next env rt) history).attempts) :
    SettlesOnce (·.documentHash) (·.source = "failed") history.attempts := by
  induction runs generalizing history with
  | nil => exact h
  | cons run runs ih =>
    have hnext := ih h
    by_cases hread : run.Readable
    · rw [next_of_readable hread] at hnext
      exact (List.pairwise_append.mp hnext).1
    · rwa [next_of_not_readable hread] at hnext

private theorem retries_foldl_iff {runs : List ExtractionRun} (hkept : history.Kept)
    (hsettles : SettlesOnce (·.documentHash) (·.source = "failed") history.attempts) :
    ((∀ before run after, runs = before ++ run :: after →
          (before.foldl (ExtractionHistory.next env rt) history).Retries env rt run) ∧
        SettlesOnce (·.documentHash) (·.source = "failed")
          (runs.foldl (ExtractionHistory.next env rt) history).attempts) ↔
      ∀ before run after, runs = before ++ run :: after →
        run.Unhampered env rt (before.foldl (ExtractionHistory.next env rt) history).cache := by
  induction runs generalizing history with
  | nil => exact iff_of_true ⟨forall_split_nil, hsettles⟩ forall_split_nil
  | cons run runs ih =>
    rw [forall_split_cons, forall_split_cons]
    simp only [List.foldl_nil, List.foldl_cons]
    constructor
    · rintro ⟨⟨hretries, hrest⟩, hall⟩
      obtain ⟨hnoneFailed, hreadable⟩ := (retries_iff hkept hsettles).mp hretries
      have hnext := settlesOnce_of_foldl hall
      exact ⟨⟨hnoneFailed, hreadable, (settlesOnce_next_iff hkept hsettles hreadable).mp hnext⟩,
        (ih (hkept.next run) hnext).mp ⟨hrest, hall⟩⟩
    · rintro ⟨hfirst, hrest⟩
      have hnext := (settlesOnce_next_iff hkept hsettles hfirst.readable).mpr hfirst.onlyLast
      obtain ⟨hretries, hall⟩ := (ih (hkept.next run) hnext).mpr hrest
      exact ⟨⟨(retries_iff hkept hsettles).mpr ⟨hfirst.noneFailed, hfirst.readable⟩, hretries⟩,
        hall⟩

/-- **Failed extractions are retried and successful ones never repeated** in a history of runs
exactly if each run is unhampered by the cache that it finds. -/
theorem failed_extractions_retried_iff {runs : List ExtractionRun} :
    ((∀ before run after, runs = before ++ run :: after →
          (extractionHistory env rt before).Retries env rt run) ∧
        SettlesOnce (·.documentHash) (·.source = "failed")
          (extractionHistory env rt runs).attempts) ↔
      ∀ before run after, runs = before ++ run :: after →
        run.Unhampered env rt (extractionHistory env rt before).cache :=
  retries_foldl_iff rfl List.Pairwise.nil

end

/-! ### An outage -/

/-- Neither service answers. -/
def unavailable : LanguageModels where
  gemini _ := .error { cls := .external "ServiceUnavailable", message := "503" }
  groq _ := .error { cls := .external "APIConnectionError", message := "Connection error." }

/-- Gemini answers. -/
def available : LanguageModels where
  gemini _ := .ok (some "\x7b\"company_name\": \"Alpha\", \"confidence\": \"high\"\x7d")
  groq := unavailable.groq

/-- A run over one contract. -/
def sampleRun (models : LanguageModels) : ExtractionRun where
  documents := [⟨"Alpha", .text "one"⟩]
  models _ := models
  completed := ⟨List.range, fun _ => .refl _⟩

/-- **An outage is cached**: once both services have failed, the next run does not ask them. -/
theorem outage_cached :
    ¬∀ (env : IngestEnv) (rt : Runtime) (runs : List ExtractionRun),
      (∀ before run after, runs = before ++ run :: after →
        (extractionHistory env rt before).Retries env rt run) ∧
      SettlesOnce (·.documentHash) (·.source = "failed")
        (extractionHistory env rt runs).attempts := by
  intro h
  have hretries := (h sampleEnv .example [sampleRun unavailable, sampleRun available]).1
    [sampleRun unavailable] (sampleRun available) [] rfl
  have hfailed : ∀ a ∈ (extractionHistory sampleEnv .example [sampleRun unavailable]).attempts,
      a.source = "failed" := by
    decide +kernel
  have hnone : ((extractAllIdentities sampleEnv .example (sampleRun available)
      (extractionHistory sampleEnv .example [sampleRun unavailable]).cache).toOption.map
        (·.attempts)) = some [] := by
    decide +kernel
  obtain ⟨extraction, hrun, a, ha, -⟩ :=
    hretries ⟨"Alpha", .text "one"⟩ List.mem_cons_self "one" rfl fun a ha _ => hfailed a ha
  rw [hrun] at hnone
  have hattempts : extraction.attempts = [] := Option.some.inj hnone
  rw [hattempts] at ha
  cases ha

end AuditFlow
