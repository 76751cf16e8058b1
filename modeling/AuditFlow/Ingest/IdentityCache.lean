import AuditFlow.Foundation.JsonWriter
import AuditFlow.Ingest.Extraction

/-!
# The cache file of the identities

`extract_all_identities` and `load_cached_identities` of `ingest/identity_extraction.py` with the
file between them: `_save_cache` writes a JSON dictionary with two blanks of indent for each level,
`_load_cache` decodes it, and an identity is made of what stands under its hash.

**What a run returns is what is loaded afterwards** (`extracted_identities_load`), whatever runs
came before it and whatever the services answered: every document of the run has an identity in the
file, under its hash, and the same run once more asks for nothing. A file that somebody else has
written may hold values of other types, or surrogates; what becomes of a run then is left open
(`stray`).
-/

namespace AuditFlow

open Foundation

/-! ### The file -/

/-- `asdict(identity)`. -/
def DocumentIdentity.asdict (identity : DocumentIdentity) : Json.Plain :=
  .obj [("document_hash", .str identity.documentHash), ("company_name", .str identity.companyName),
    ("counterparty_name", .str identity.counterpartyName),
    ("contract_type", .str identity.contractType), ("confidence", .str identity.confidence),
    ("source", .str identity.source), ("self_declared_hint", .str identity.selfDeclaredHint)]

/-- The keyword arguments of `DocumentIdentity`. -/
def identityFields : List String :=
  ["document_hash", "company_name", "counterparty_name", "contract_type", "confidence", "source",
    "self_declared_hint"]

/-- `DocumentIdentity(**value)`, if that is an identity whose fields have the types that the class
declares, without surrogates. -/
def DocumentIdentity.ofJson? : Json → Option DocumentIdentity
  | .obj members =>
    if members.all fun m => decide (m.1 ∈ identityFields.map Str.ofString) then do
      let documentHash ← (Schema.strField members "document_hash").bind Str.text?
      let companyName ← (Schema.strField members "company_name").bind Str.text?
      let counterpartyName ← (Schema.strField members "counterparty_name").bind Str.text?
      let contractType ← (Schema.strField members "contract_type").bind Str.text?
      let confidence ← (Schema.strField members "confidence").bind Str.text?
      let source ← (Schema.strField members "source").bind Str.text?
      let selfDeclaredHint ←
        (Schema.defaultStrField members "self_declared_hint" "").bind Str.text?
      return {
        documentHash
        companyName
        counterpartyName
        contractType
        confidence
        source
        selfDeclaredHint }
    else none
  | _ => none

/-- The text that `_save_cache` writes. -/
def cacheText (cache : Dict String DocumentIdentity) : List Char :=
  Json.dumps (.obj (cache.entries.map fun e => (e.1, e.2.asdict))) { indent := some 2 }

/-- An entry of the decoded dictionary. -/
def identityField? (member : Str × Json) : Option (String × DocumentIdentity) := do
  let key ← member.1.text?
  let identity ← DocumentIdentity.ofJson? member.2
  return (key, identity)

/-- The identities of a decoded dictionary, if they are all of them. -/
def identitiesOf? : Json → Option (Dict String DocumentIdentity)
  | .obj members =>
    (members.mapM identityField?).map fun entries => Dict.empty.setAll Prod.fst Prod.snd entries
  | _ => none

/-- `_load_cache`; there is no file before the first run has saved one. -/
def loadCache (rt : Runtime) :
    Option (List Char) → Except PyError (Option (Dict String DocumentIdentity))
  | none => .ok (some .empty)
  | some text => (jsonLoads rt text).map identitiesOf?

/-! ### Runs -/

/-- What is left of a run on a file. -/
structure FileExtraction where
  attempts : List DocumentIdentity
  file : Option (List Char)
  results : Dict String DocumentIdentity

section

-- `stray` is what becomes of a run on a file that holds something else
variable (env : IngestEnv) (rt : Runtime)
  (stray : ExtractionRun → List Char → Except PyError FileExtraction)

/-- `extract_all_identities`: the file is written if there was anything to process. -/
def extractOnFile (run : ExtractionRun) (file : Option (List Char)) :
    Except PyError FileExtraction := do
  match ← loadCache rt file with
  | none => stray run (file.getD [])
  | some cache =>
    let scan ← run.documents.foldlM (scanDocument env cache) {}
    let extraction ← extractAllIdentities env rt run cache
    return {
      attempts := extraction.attempts
      file := if scan.toProcess = [] then file else some (cacheText extraction.cache)
      results := extraction.results }

/-- The file after one more run; a run that raises leaves it alone. -/
def nextFile (file : Option (List Char)) (run : ExtractionRun) : Option (List Char) :=
  match extractOnFile env rt stray run file with
  | .ok extraction => extraction.file
  | .error _ => file

/-- The file after some runs, where there was none before. -/
def fileHistory (runs : List ExtractionRun) : Option (List Char) :=
  runs.foldl (nextFile env rt stray) none

/-- `load_cached_identities`; nothing is said of a file that holds something else. -/
def loadIdentities (file : Option (List Char)) (documents : List JsonContract) :
    Except PyError (Option (Dict String DocumentIdentity)) := do
  match ← loadCache rt file with
  | none => return none
  | some cache => (loadCachedIdentities env cache documents).map some

end

/-! ### The file is read back -/

section

variable {rt : Runtime} {cache : Dict String DocumentIdentity}

private theorem depth_identity (identity : DocumentIdentity) : identity.asdict.depth = 2 := rfl

private theorem depthMembers_entries (entries : List (String × DocumentIdentity)) :
    Json.Plain.depthMembers (entries.map fun e => (e.1, e.2.asdict)) ≤ 2 := by
  induction entries with
  | nil => simp [Json.Plain.depthMembers]
  | cons e entries ih =>
    simp only [List.map_cons, Json.Plain.depthMembers, depth_identity]
    omega

/-- **An identity is read back.** -/
theorem ofJson?_asdict (identity : DocumentIdentity) :
    DocumentIdentity.ofJson? identity.asdict.toJson = some identity := by
  simp [DocumentIdentity.ofJson?, DocumentIdentity.asdict, Json.Plain.toJson,
    Json.Plain.toMembers, identityFields, Json.member, Schema.strField, Schema.defaultStrField]

private theorem mapM_identityField? (entries : List (String × DocumentIdentity)) :
    (Json.Plain.toMembers (entries.map fun e => (e.1, e.2.asdict))).mapM identityField? =
      some entries := by
  induction entries with
  | nil => rfl
  | cons e entries ih =>
    have hentry : identityField? ((e.1 : Str), e.2.asdict.toJson) = some e := by
      simp only [identityField?, ofJson?_asdict, Str.text?_ofString]
      rfl
    rw [List.map_cons, Json.Plain.toMembers, List.mapM_cons, hentry, ih]
    rfl

/-- **The file is read back** as it was saved. -/
theorem loadCache_cacheText (hdepth : 3 ≤ rt.recursionLimit)
    (cache : Dict String DocumentIdentity) :
    loadCache rt (some (cacheText cache)) = .ok (some cache) := by
  have hnested : (Json.Plain.obj (cache.entries.map fun e => (e.1, e.2.asdict))).depth ≤
      rt.recursionLimit := by
    have hentries := depthMembers_entries cache.entries
    simp only [Json.Plain.depth]
    omega
  rw [loadCache, cacheText, jsonLoads, Json.loads_dumps hnested]
  simp only [Except.map, Json.Plain.toJson, identitiesOf?, mapM_identityField?, Option.map_some,
    Dict.setAll_entries]

end

/-! ### What is found under the hashes -/

/-- The hashes of the preambles of documents. -/
def documentHashes (env : IngestEnv) (documents : List JsonContract) : List String :=
  (documents.filterMap (preambleTask env)).map Prod.fst

/-- What a cache says of documents. -/
def cachedFor (env : IngestEnv) (cache : Dict String DocumentIdentity)
    (documents : List JsonContract) (k : String) : Option DocumentIdentity :=
  if k ∈ documentHashes env documents then cache.get? k else none

section

variable {env : IngestEnv} {rt : Runtime} {cache : Dict String DocumentIdentity}
  {documents : List JsonContract} {scan scan' : ExtractionScan} {run : ExtractionRun} {k : String}

private theorem documentHashes_cons {doc : JsonContract} {text : String}
    (h : doc.context = .text text) : documentHashes env (doc :: documents) =
      hashPreamble env (preambleOf text) :: documentHashes env documents := by
  have htask : preambleTask env doc =
      some (hashPreamble env (preambleOf text), preambleOf text) := by
    rw [preambleTask, h]
    rfl
  rw [documentHashes, List.filterMap_cons_some htask, List.map_cons, documentHashes]

/-- A cached identity that is set under its hash. -/
private theorem or_set_cached {hash : String} {identity : DocumentIdentity}
    (hcache : cache.get? hash = some identity) (identities : Dict String DocumentIdentity)
    (hashes : List String) :
    (if k ∈ hashes then cache.get? k else none).or ((identities.set hash identity).get? k) =
      (if k ∈ hash :: hashes then cache.get? k else none).or (identities.get? k) := by
  rw [Dict.get?_set]
  by_cases hk : k = hash
  · subst hk
    simp only [List.mem_cons_self, if_true, hcache, Option.some_or]
    split_ifs
    · rfl
    · rfl
  · simp [hk]

/-- A hash that is not cached. -/
private theorem or_not_cached {hash : String} (hcache : cache.get? hash = none)
    (found : Option DocumentIdentity) (hashes : List String) :
    (if k ∈ hashes then cache.get? k else none).or found =
      (if k ∈ hash :: hashes then cache.get? k else none).or found := by
  by_cases hk : k = hash
  · subst hk
    simp [hcache]
  · simp [hk]

/-- The results that the scan collects are those of the cache. -/
private theorem get?_results_of_scan
    (h : documents.foldlM (scanDocument env cache) scan = .ok scan') :
    scan'.results.get? k = (cachedFor env cache documents k).or (scan.results.get? k) := by
  induction documents generalizing scan with
  | nil =>
    obtain rfl := Except.ok.inj h
    rfl
  | cons doc documents ih =>
    rw [List.foldlM_cons] at h
    rcases hcontext : doc.context with - | - | text
    · rw [scanDocument, hcontext] at h
      cases h
    · rw [scanDocument, hcontext] at h
      cases h
    · rw [scanDocument, hcontext] at h
      rw [cachedFor, documentHashes_cons hcontext]
      rcases hcache : cache.get? (hashPreamble env (preambleOf text)) with - | identity
      · simp only [ContextField.subscript, hcache, bind, Except.bind] at h
        rw [ih h, cachedFor, or_not_cached hcache]
      · simp only [ContextField.subscript, hcache, bind, Except.bind] at h
        rw [ih h, cachedFor, or_set_cached hcache]

/-- The identities that are loaded are those of the cache, and no others. -/
private theorem get?_loaded {identities identities' : Dict String DocumentIdentity}
    (h : collectIdentities env cache identities documents = .ok identities') :
    identities'.get? k = (cachedFor env cache documents k).or (identities.get? k) := by
  induction documents generalizing identities with
  | nil =>
    obtain rfl := Except.ok.inj h
    rfl
  | cons doc documents ih =>
    rw [collectIdentities] at h
    rcases hcontext : doc.context with - | - | text
    · rw [hcontext] at h
      cases h
    · rw [hcontext] at h
      cases h
    · rw [cachedFor, documentHashes_cons hcontext]
      rcases hcache : cache.get? (hashPreamble env (preambleOf text)) with - | identity
      · simp only [hcontext, ContextField.subscript, hcache] at h
        rw [ih h, cachedFor, or_not_cached hcache]
      · simp only [hcontext, ContextField.subscript, hcache] at h
        rw [ih h, cachedFor, or_set_cached hcache]

/-- A hash with no task is cached. -/
private theorem exists_task_of_not_cached (hk : k ∈ documentHashes env documents)
    (hcache : cache.get? k = none) : ∃ task ∈ pendingTasks env cache documents, task.1 = k := by
  obtain ⟨task, htask, rfl⟩ := List.mem_map.mp hk
  refine ⟨task, List.mem_filter.mpr ⟨htask, ?_⟩, rfl⟩
  rw [hcache]
  rfl

/-! ### A run on a file -/

/-- The cache after a run that returns. -/
def cacheAfter (env : IngestEnv) (rt : Runtime) (run : ExtractionRun)
    (cache : Dict String DocumentIdentity) : Dict String DocumentIdentity :=
  cache.setAll (·.documentHash) id (run.attempts env rt (pendingTasks env cache run.documents))

/-- **A run returns what is cached afterwards** for its documents. -/
private theorem get?_results (results : Dict String DocumentIdentity)
    (hresults : ∀ k, results.get? k = cachedFor env cache run.documents k) (k : String) :
    (results.setAll (·.documentHash) id
        (run.attempts env rt (pendingTasks env cache run.documents))).get? k =
      cachedFor env (cacheAfter env rt run cache) run.documents k := by
  by_cases hk : k ∈ (run.attempts env rt (pendingTasks env cache run.documents)).map
      (·.documentHash)
  · -- the hash of an attempt is that of a document
    have hmem : k ∈ documentHashes env run.documents := by
      obtain ⟨a, ha, rfl⟩ := List.mem_map.mp hk
      obtain ⟨task, htask, hhash⟩ := exists_task_of_mem_attempts ha
      rw [hhash]
      exact List.mem_map_of_mem (List.mem_filter.mp htask).1
    rw [cachedFor, if_pos hmem, cacheAfter]
    exact Dict.get?_setAll_congr hk
  · rw [Dict.get?_setAll_of_notMem hk, hresults, cachedFor, cachedFor, cacheAfter,
      Dict.get?_setAll_of_notMem hk]

/-- Every document of a run has an identity in the cache afterwards. -/
private theorem exists_cached_after (hk : k ∈ documentHashes env run.documents) :
    ∃ identity, (cacheAfter env rt run cache).get? k = some identity := by
  rcases hcache : cache.get? k with - | identity
  · obtain ⟨task, htask, rfl⟩ := exists_task_of_not_cached hk hcache
    obtain ⟨a, ha, hhash⟩ := exists_attempt_of_mem env rt run htask
    obtain ⟨b, -, -, hget⟩ : ∃ b ∈ run.attempts env rt (pendingTasks env cache run.documents),
        b.documentHash = task.1 ∧ (cacheAfter env rt run cache).get? task.1 = some (id b) :=
      Dict.get?_setAll_of_mem (List.mem_map.mpr ⟨a, ha, hhash⟩)
    exact ⟨b, hget⟩
  · by_cases hattempt : k ∈ (run.attempts env rt (pendingTasks env cache run.documents)).map
        (·.documentHash)
    · obtain ⟨b, -, -, hget⟩ : ∃ b ∈ run.attempts env rt (pendingTasks env cache run.documents),
          b.documentHash = k ∧ (cacheAfter env rt run cache).get? k = some (id b) :=
        Dict.get?_setAll_of_mem hattempt
      exact ⟨b, hget⟩
    · exact ⟨identity, (Dict.get?_setAll_of_notMem hattempt).trans hcache⟩

/-- After a run there is nothing left to process. -/
private theorem pendingTasks_after :
    pendingTasks env (cacheAfter env rt run cache) run.documents = [] := by
  refine List.filter_eq_nil_iff.mpr fun task htask => ?_
  obtain ⟨identity, hidentity⟩ : ∃ identity, (cacheAfter env rt run cache).get? task.1 =
      some identity := exists_cached_after (List.mem_map_of_mem htask)
  rw [hidentity]
  simp

variable {stray : ExtractionRun → List Char → Except PyError FileExtraction}
  {file : Option (List Char)}

/-- **A run on a file** that holds a cache: its attempts, the file afterwards, and its results. -/
theorem extractOnFile_of_loaded (env : IngestEnv)
    (stray : ExtractionRun → List Char → Except PyError FileExtraction)
    (hload : loadCache rt file = .ok (some cache))
    (hreadable : run.Readable) :
    ∃ results, extractOnFile env rt stray run file = .ok {
        attempts := run.attempts env rt (pendingTasks env cache run.documents)
        file := if pendingTasks env cache run.documents = [] then file
          else some (cacheText (cacheAfter env rt run cache))
        results } ∧
      ∀ k, results.get? k = cachedFor env (cacheAfter env rt run cache) run.documents k := by
  obtain ⟨scan', hscan, htasks⟩ : ∃ scan', run.documents.foldlM (scanDocument env cache) {} =
      .ok scan' ∧ scan'.toProcess = [] ++ pendingTasks env cache run.documents :=
    exists_scan {} hreadable
  rw [List.nil_append] at htasks
  refine ⟨scan'.results.setAll (·.documentHash) id
    (run.attempts env rt (pendingTasks env cache run.documents)), ?_, ?_⟩
  · rw [extractOnFile, hload]
    simp only [bind, Except.bind, extractAllIdentities, hscan, htasks, pure, Except.pure]
    split_ifs with hnone
    · rfl
    · rfl
  · refine get?_results scan'.results fun k => ?_
    rw [get?_results_of_scan hscan]
    exact Option.or_none

/-- A run that raises. -/
private theorem extractOnFile_raises (env : IngestEnv)
    (stray : ExtractionRun → List Char → Except PyError FileExtraction)
    (hload : loadCache rt file = .ok (some cache))
    (hreadable : ¬run.Readable) : ∃ e, extractOnFile env rt stray run file = .error e := by
  obtain ⟨e, he⟩ := extractAllIdentities_raises env rt cache hreadable
  rw [extractOnFile, hload]
  simp only [bind, Except.bind, he]
  rcases run.documents.foldlM (scanDocument env cache) {} with e' | scan'
  · exact ⟨e', rfl⟩
  · exact ⟨e, rfl⟩

private theorem attempts_nil : run.attempts env rt [] = [] := by
  simp [ExtractionRun.attempts]

/-- A run with nothing to process leaves the cache alone. -/
private theorem cacheAfter_of_done (h : pendingTasks env cache run.documents = []) :
    cacheAfter env rt run cache = cache := by
  rw [cacheAfter, h, attempts_nil]
  rfl

/-- The file that a run leaves holds the cache afterwards. -/
private theorem loadCache_after (env : IngestEnv) (hdepth : 3 ≤ rt.recursionLimit)
    (hload : loadCache rt file = .ok (some cache)) (run : ExtractionRun) :
    loadCache rt (if pendingTasks env cache run.documents = [] then file
        else some (cacheText (cacheAfter env rt run cache))) =
      .ok (some (cacheAfter env rt run cache)) := by
  split_ifs with hnone
  · rw [hload, cacheAfter_of_done hnone]
  · exact loadCache_cacheText hdepth _

/-- **What is loaded** from a file. -/
private theorem exists_loadIdentities (env : IngestEnv)
    (hload : loadCache rt file = .ok (some cache))
    (hreadable : run.Readable) :
    ∃ identities, loadIdentities env rt file run.documents = .ok (some identities) ∧
      ∀ k, identities.get? k = cachedFor env cache run.documents k := by
  obtain ⟨identities, hidentities⟩ : ∃ identities,
      loadCachedIdentities env cache run.documents = .ok identities :=
    exists_loadCachedIdentities_iff.mpr hreadable
  refine ⟨identities, ?_, fun k => (get?_loaded hidentities).trans Option.or_none⟩
  rw [loadIdentities, hload]
  simp only [bind, Except.bind, hidentities, Except.map]

/-! ### Histories -/

private theorem cache_next {history : ExtractionHistory} (hreadable : run.Readable) :
    (history.next env rt run).cache = cacheAfter env rt run history.cache := by
  obtain ⟨results, hrun⟩ := exists_extractAllIdentities env rt history.cache hreadable
  rw [ExtractionHistory.next, hrun]
  rfl

/-- In a history the identities are cached under their own hashes. -/
private theorem documentHash_of_cached {runs : List ExtractionRun} (hreadable : run.Readable)
    {identity : DocumentIdentity}
    (h : (cacheAfter env rt run (extractionHistory env rt runs).cache).get? k = some identity) :
    identity.documentHash = k := by
  have hkept : ((extractionHistory env rt runs).next env rt run).Kept :=
    (cache_eq_latest runs).next run
  rw [ExtractionHistory.Kept, cache_next hreadable] at hkept
  rw [hkept] at h
  obtain ⟨-, -, -, hkey, -⟩ := Dict.exists_of_get?_latest h
  exact hkey

/-- The next file holds the next cache. -/
private theorem loadCache_nextFile (hdepth : 3 ≤ rt.recursionLimit) {history : ExtractionHistory}
    (hload : loadCache rt file = .ok (some history.cache)) (run : ExtractionRun) :
    loadCache rt (nextFile env rt stray file run) =
      .ok (some (history.next env rt run).cache) := by
  by_cases hreadable : run.Readable
  · obtain ⟨results, hrun, -⟩ := extractOnFile_of_loaded env stray hload
      hreadable
    rw [nextFile, hrun, cache_next hreadable]
    exact loadCache_after env hdepth hload run
  · obtain ⟨e, he⟩ := extractOnFile_raises env stray hload hreadable
    obtain ⟨e', he'⟩ := extractAllIdentities_raises env rt history.cache hreadable
    rw [nextFile, he, ExtractionHistory.next, he']
    exact hload

/-- **The file of a history** holds its cache. -/
theorem loadCache_fileHistory (env : IngestEnv) (hdepth : 3 ≤ rt.recursionLimit)
    (stray : ExtractionRun → List Char → Except PyError FileExtraction)
    (runs : List ExtractionRun) :
    loadCache rt (fileHistory env rt stray runs) =
      .ok (some (extractionHistory env rt runs).cache) := by
  have hall : ∀ (runs : List ExtractionRun) (file : Option (List Char))
      (history : ExtractionHistory), loadCache rt file = .ok (some history.cache) →
      loadCache rt (runs.foldl (nextFile env rt stray) file) =
        .ok (some (runs.foldl (ExtractionHistory.next env rt) history).cache) := by
    intro runs
    induction runs with
    | nil => exact fun _ _ h => h
    | cons run runs ih => exact fun file history h => ih _ _ (loadCache_nextFile hdepth h run)
  exact hall runs none {} rfl

/-- **What a run returns is what is loaded afterwards.** A run over documents that all have a
context, on the file that any runs have left before it, returns; afterwards `load_cached_identities`
finds in the file, for the documents of the run, exactly what it has returned: one identity for each
of them, under its hash. And the same documents once more are not extracted again: the services are
not asked, the file stays as it is, and the results are the same. -/
theorem extracted_identities_load (hdepth : 3 ≤ rt.recursionLimit)
    (stray : ExtractionRun → List Char → Except PyError FileExtraction)
    (runs : List ExtractionRun) (hreadable : run.Readable) :
    ∃ extraction, extractOnFile env rt stray run (fileHistory env rt stray runs) =
        .ok extraction ∧
      (∃ identities, loadIdentities env rt extraction.file run.documents =
          .ok (some identities) ∧
        (∀ k, identities.get? k = extraction.results.get? k) ∧
        ∀ doc ∈ run.documents, ∀ text, doc.context = .text text → ∃ identity,
          identities.get? (hashPreamble env (preambleOf text)) = some identity ∧
            identity.documentHash = hashPreamble env (preambleOf text)) ∧
      ∀ again : ExtractionRun, again.documents = run.documents → ∃ results,
        extractOnFile env rt stray again extraction.file = .ok ⟨[], extraction.file, results⟩ ∧
          ∀ k, results.get? k = extraction.results.get? k := by
  have hload := loadCache_fileHistory env hdepth stray runs
  obtain ⟨results, hrun, hresults⟩ := extractOnFile_of_loaded env stray hload
    hreadable
  have hfile := loadCache_after env hdepth hload run
  refine ⟨_, hrun, ?_, fun again hagain => ?_⟩
  · obtain ⟨identities, hidentities, hloaded⟩ := exists_loadIdentities env hfile hreadable
    refine ⟨identities, hidentities, fun k => (hloaded k).trans (hresults k).symm, ?_⟩
    intro doc hdoc text htext
    have hmem : hashPreamble env (preambleOf text) ∈ documentHashes env run.documents := by
      refine List.mem_map.mpr ⟨(hashPreamble env (preambleOf text), preambleOf text), ?_, rfl⟩
      refine List.mem_filterMap.mpr ⟨doc, hdoc, ?_⟩
      rw [preambleTask, htext]
      rfl
    obtain ⟨identity, hidentity⟩ : ∃ identity, (cacheAfter env rt run
        (extractionHistory env rt runs).cache).get? (hashPreamble env (preambleOf text)) =
          some identity := exists_cached_after hmem
    refine ⟨identity, ?_, documentHash_of_cached hreadable hidentity⟩
    rw [hloaded, cachedFor, if_pos hmem, hidentity]
  · have hreadable' : again.Readable := by
      rw [ExtractionRun.Readable, hagain]
      exact hreadable
    obtain ⟨results', hrun', hresults'⟩ := extractOnFile_of_loaded env stray hfile hreadable'
    have hnone : pendingTasks env (cacheAfter env rt run (extractionHistory env rt runs).cache)
        again.documents = [] := by
      rw [hagain]
      exact pendingTasks_after
    rw [hnone, if_pos rfl, attempts_nil] at hrun'
    refine ⟨results', hrun', fun k => ?_⟩
    rw [hresults', hresults, cacheAfter_of_done hnone, hagain]

end

/-- What becomes of a file that holds a list. -/
def notACache (_ : ExtractionRun) (_ : List Char) : Except PyError FileExtraction :=
  .error { cls := .typeError, message := "list indices must be integers or slices, not str" }

/-- `extracted_identities_load` after an outage. -/
theorem extracted_identities_load_outage : ∃ extraction,
    extractOnFile sampleEnv .example notACache (sampleRun available)
        (fileHistory sampleEnv .example notACache [sampleRun unavailable]) = .ok extraction ∧
      ∃ identities, loadIdentities sampleEnv .example extraction.file
        (sampleRun available).documents = .ok (some identities) := by
  have hdepth : 3 ≤ Runtime.example.recursionLimit := by decide
  have hreadable : (sampleRun available).Readable := by
    intro doc hdoc
    obtain rfl := List.mem_singleton.mp hdoc
    exact ⟨"one", rfl⟩
  refine (extracted_identities_load hdepth notACache [sampleRun unavailable] hreadable).imp
    fun extraction h => ⟨h.1, ?_⟩
  obtain ⟨identities, hload, -⟩ := h.2.1
  exact ⟨identities, hload⟩

end AuditFlow
