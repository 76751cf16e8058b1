import AuditFlow.Ingest.Parts
import AuditFlow.Retrieval.CacheWatcher

/-!
# Reloading the indexes

`reload_index_from_disk` in `retrieval/retrieve.py`: a running worker reads both index files anew,
builds the BM25 scorer, checks what it has read, and only then **assigns the three globals**; if
anything raises before, they stay as they are.

One of the checks refuses an empty corpus, which could come from an incomplete write. Deleting the
last document writes exactly this. So a worker can be brought up to date with what completed
ingestions have saved **if and only if some chunk is left** (`reload_after`); `last_deletion` is a
worker that goes on serving a document that has been deleted.

FAISS's file format, pickling and the library BM25Okapi are parameters: a file is its content, or
what loading it raises. `Worker.step_reload` ties the reload to the steps of the cache watcher.
-/

namespace AuditFlow

open Foundation

/-! ### The globals and the files -/

/-- What loading the embedder and the index files gives; `none` is a file that is not there. -/
structure IndexFiles where
  /-- What building `OnnxEmbedder` raises. -/
  embedder : Except PyError Unit := .ok ()
  faiss : Except PyError (Option (List FaissEntry))
  bm25 : Except PyError (Option (Dict String ChunkRecord))

/-- The globals of `retrieve.py`; the store of a `FaissIndex` is `None` without a file. -/
structure IndexGlobals (Okapi : Type) where
  /-- `_embedder` has been built. -/
  embedder : Bool := false
  faissIndex : Option (Option (List FaissEntry)) := none
  bm25Index : Option (Dict String ChunkRecord) := none
  bm25Cache : Option (List String × Okapi) := none

/-- `if x is None: x = load()`. -/
def loadOnce {σ α : Type} (x : σ → Option α) (assign : α → σ → σ) (load : Except PyError α) :
    Exc PyError σ α := fun s =>
  match x s with
  | some a => (.ok a, s)
  | none =>
    match load with
    | .ok a => (.ok a, assign a s)
    | .error e => (.error e, s)

/-- `FAISS_DIR`. -/
def faissDir : String := "data/processed/config_runs/chunk_1000/faiss_index"

section

variable {Okapi : Type} (unicode : Text.Unicode)
  (bm25Okapi : List (List (List Char)) → Except PyError Okapi) (files : IndexFiles)

/-- `Bm25Index.build_bm25`. -/
def buildBm25 (corpus : Dict String ChunkRecord) : Except PyError (List String × Okapi) :=
  let tokenized := corpus.values.map fun chunk =>
    Text.words (unicode.lower chunk.rawChunkText.toList)
  (bm25Okapi tokenized).map fun okapi => (corpus.keys, okapi)

/-- `get_indexes`. -/
def getIndexes : Exc PyError (IndexGlobals Okapi)
    (Option (List FaissEntry) × Dict String ChunkRecord) := do
  loadOnce (fun g => if g.embedder then some () else none) (fun _ g => { g with embedder := true })
    files.embedder
  let faissIndex ← loadOnce (·.faissIndex) (fun index g => { g with faissIndex := some index })
    files.faiss
  let bm25Index ← loadOnce (·.bm25Index) (fun index g => { g with bm25Index := some index })
    (files.bm25.map fun corpus => corpus.getD .empty)
  pure (faissIndex, bm25Index)

/-- `get_all_chunks`. -/
def servedChunks : Exc PyError (IndexGlobals Okapi) (List ChunkRecord) :=
  getIndexes files >>= fun indexes => pure indexes.2.values

/-- The new indexes of `reload_index_from_disk`, built and checked. -/
def loadIndexes : Except PyError
    (Option (List FaissEntry) × Dict String ChunkRecord × (List String × Okapi)) := do
  let newFaissIndex ← files.faiss
  let newBm25Index ← files.bm25.map fun corpus => corpus.getD .empty
  let newBm25Cache ← buildBm25 unicode bm25Okapi newBm25Index
  if newFaissIndex = none then
    .error { cls := .runtimeError
             message := s!"No FAISS index at {faissDir} yet -- call add() to create one " ++
               "or run the initial build_index.py." }
  else if newBm25Index.keys = [] then
    .error { cls := .retrievalError
             message := "Reloaded BM25 corpus is empty -- refusing to swap in a possibly " ++
               "incomplete write" }
  else .ok (newFaissIndex, newBm25Index, newBm25Cache)

/-- `reload_index_from_disk`; a worker without an embedder loads what it does not have yet. -/
def reloadIndexFromDisk : Exc PyError (IndexGlobals Okapi) Unit := fun g =>
  if g.embedder = false then (getIndexes files >>= fun _ => pure ()) g
  else match loadIndexes unicode bm25Okapi files with
    | .ok (newFaissIndex, newBm25Index, newBm25Cache) =>
      (.ok (), { g with
        faissIndex := some newFaissIndex, bm25Index := some newBm25Index
        bm25Cache := some newBm25Cache })
    | .error e =>
      (.error { cls := .retrievalError, cause := some e.cls
                message := "Failed to reload FAISS/BM25 indexes from disk" }, g)

end

/-! ### A reload is all or nothing -/

/-- What is there is not loaded again. -/
theorem loadOnce_of_some {σ α : Type} {x : σ → Option α} {assign : α → σ → σ}
    {load : Except PyError α} {s : σ} {a : α} (h : x s = some a) :
    loadOnce x assign load s = (.ok a, s) := by
  simp only [loadOnce, h]

section

variable {Okapi : Type} {unicode : Text.Unicode}
  {bm25Okapi : List (List (List Char)) → Except PyError Okapi} {files : IndexFiles}
  {g g' : IndexGlobals Okapi}

/-- What has been loaded is swapped in. -/
theorem reload_of_loaded (hrunning : g.embedder = true) {faissIndex : Option (List FaissEntry)}
    {bm25Index : Dict String ChunkRecord} {bm25Cache : List String × Okapi}
    (h : loadIndexes unicode bm25Okapi files = .ok (faissIndex, bm25Index, bm25Cache)) :
    reloadIndexFromDisk unicode bm25Okapi files g = (.ok (), { g with
      faissIndex := some faissIndex, bm25Index := some bm25Index
      bm25Cache := some bm25Cache }) := by
  rw [reloadIndexFromDisk, hrunning, h]
  rfl

/-- If that raises, nothing is assigned. -/
theorem reload_of_raised (hrunning : g.embedder = true) {e : PyError}
    (h : loadIndexes unicode bm25Okapi files = .error e) :
    reloadIndexFromDisk unicode bm25Okapi files g =
      (.error { cls := .retrievalError, cause := some e.cls
                message := "Failed to reload FAISS/BM25 indexes from disk" }, g) := by
  rw [reloadIndexFromDisk, hrunning, h]
  rfl

/-- **A running worker whose reload raises** is left as it was. -/
theorem reload_eq_error (hrunning : g.embedder = true) {e : PyError}
    (h : reloadIndexFromDisk unicode bm25Okapi files g = (.error e, g')) :
    e.cls = .retrievalError ∧ g' = g := by
  rcases hload : loadIndexes unicode bm25Okapi files with e' | ⟨faissIndex, bm25Index, bm25Cache⟩
  · rw [reload_of_raised hrunning hload] at h
    obtain ⟨herror, rfl⟩ := Prod.mk.inj h
    exact ⟨by rw [← Except.error.inj herror], rfl⟩
  · rw [reload_of_loaded hrunning hload] at h
    cases (Prod.mk.inj h).1

/-- What has been loaded is served, without another look at the files. -/
theorem servedChunks_of_loaded {faissIndex : Option (List FaissEntry)}
    {bm25Index : Dict String ChunkRecord} (hrunning : g.embedder = true)
    (hfaiss : g.faissIndex = some faissIndex) (hbm25 : g.bm25Index = some bm25Index) :
    servedChunks files g = (.ok bm25Index.values, g) := by
  have hembedder : loadOnce (fun g : IndexGlobals Okapi => if g.embedder then some () else none)
      (fun _ g => { g with embedder := true }) files.embedder g = (.ok (), g) :=
    loadOnce_of_some (if_pos hrunning)
  have hstore : loadOnce (·.faissIndex) (fun index g => { g with faissIndex := some index })
      files.faiss g = (.ok faissIndex, g) := loadOnce_of_some hfaiss
  have hcorpus : loadOnce (·.bm25Index) (fun index g => { g with bm25Index := some index })
      (files.bm25.map fun corpus => corpus.getD .empty) g = (.ok bm25Index, g) :=
    loadOnce_of_some hbm25
  have hindexes : getIndexes files g = (.ok (faissIndex, bm25Index), g) := by
    rw [getIndexes, Exc.bind_of_ok hembedder, Exc.bind_of_ok hstore, Exc.bind_of_ok hcorpus]
    rfl
  rw [servedChunks, Exc.bind_of_ok hindexes]
  rfl

/-- Files that a reload accepts: there is a FAISS store, and a corpus that can be scored. -/
theorem reload_eq_ok {store : List FaissEntry} {corpus : Dict String ChunkRecord}
    {cache : List String × Okapi} (hrunning : g.embedder = true)
    (hfaiss : files.faiss = .ok (some store))
    (hbm25 : (files.bm25.map fun corpus => corpus.getD .empty) = .ok corpus)
    (hcache : buildBm25 unicode bm25Okapi corpus = .ok cache) (hne : corpus.keys ≠ []) :
    reloadIndexFromDisk unicode bm25Okapi files g = (.ok (), { g with
      faissIndex := some (some store), bm25Index := some corpus, bm25Cache := some cache }) := by
  have hload : loadIndexes unicode bm25Okapi files = .ok (some store, corpus, cache) := by
    simp only [loadIndexes, hfaiss, hbm25, hcache, bind, Except.bind, reduceCtorEq, if_false, hne]
  exact reload_of_loaded hrunning hload

/-- A reload refuses an index without a store and an empty corpus, unless it raises before. -/
theorem reload_of_refused {faissIndex : Option (List FaissEntry)}
    {corpus : Dict String ChunkRecord} (hrunning : g.embedder = true)
    (hfaiss : files.faiss = .ok faissIndex)
    (hbm25 : (files.bm25.map fun corpus => corpus.getD .empty) = .ok corpus)
    (hrefused : faissIndex = none ∨ corpus.keys = []) :
    ∃ e, reloadIndexFromDisk unicode bm25Okapi files g = (.error e, g) := by
  have hload : ∃ e, loadIndexes unicode bm25Okapi files = .error e := by
    rw [loadIndexes, hbm25, hfaiss]
    rcases hcache : buildBm25 unicode bm25Okapi corpus with e | cache
    · simp only [bind, Except.bind, hcache]
      exact ⟨e, rfl⟩
    · simp only [bind, Except.bind, hcache]
      split_ifs with hnone hnil
      · exact ⟨_, rfl⟩
      · exact ⟨_, rfl⟩
      · exact absurd hrefused (not_or.mpr ⟨hnone, hnil⟩)
  obtain ⟨e, he⟩ := hload
  exact ⟨_, reload_of_raised hrunning he⟩

end

/-! ### What ingestion saves -/

/-- A text has something else than white space. -/
def HasWord (text : String) : Prop := ∃ c ∈ text.toList, Text.isSpace c = false

/-- Every chunk of the BM25 corpus has a word. -/
def Stores.Worded (s : Stores) : Prop :=
  ∀ k chunk, s.bm25.get? k = some chunk → HasWord chunk.rawChunkText

/-- The index files, as ingestion has saved them. -/
def Stores.indexFiles (s : Stores) : IndexFiles where
  faiss := .ok s.faissDisk
  bm25 := .ok s.bm25Disk

/-- The corpus on disk. -/
def Stores.corpusOnDisk (s : Stores) : Dict String ChunkRecord := s.bm25Disk.getD .empty

section

variable {env : IngestEnv} {s s' : Stores} {contract : Contract}
  {identity : Option DocumentIdentity} {record : DocumentRecord}

/-- Blank pages make no chunks. -/
private theorem hasWord_of_mem_chunks (hrecord : recordOf env contract identity = some record)
    {chunk : ChunkRecord} (hchunk : chunk ∈ record.chunks) : HasWord chunk.rawChunkText := by
  obtain ⟨context, -, -, -, hchunks⟩ := buildDocumentRecord_eq_some hrecord
  rw [hchunks] at hchunk
  obtain ⟨page, -, hpage⟩ := List.mem_filterMap.mp hchunk
  simp only [chunkRecordFor] at hpage
  split_ifs at hpage with hblank
  obtain rfl := Option.some.inj hpage
  have hne : squeezeSpaces page.1.toList ≠ [] := by
    intro hnil
    rw [hnil] at hblank
    exact hblank rfl
  rw [HasWord, String.toList_ofList]
  exact Text.exists_mem_stripBy hne

private theorem Stores.Worded.serve (h : s.Worded) {call : IngestCall}
    (hcall : serve env s call = some s') : s'.Worded := by
  cases call with
  | insertOrUpdate contract identity =>
    obtain ⟨result, hrun⟩ := serve_insert_eq_some.mp hcall
    have hexit : InsertExit env Faults.none contract identity s _ _ :=
      insertOrUpdateDocument_exit contract identity s
    rw [hrun] at hexit
    dsimp only at hexit
    cases hexit with
    | noop => exact h
    | @written record hrecord =>
      have hbm25 : (Exc.stage (writeEffects record (s.diffFor env record)) s 9).bumped.bm25 =
          (s.bm25.eraseAll (s.diffFor env record).toDelete).setAll (·.chunkId) id
            (s.diffFor env record).toAdd := stage_nine_bm25
      intro k chunk hget
      rw [hbm25] at hget
      by_cases hk : k ∈ (s.diffFor env record).toAdd.map (·.chunkId)
      · obtain ⟨new, hnew, -, hset⟩ : ∃ e ∈ (s.diffFor env record).toAdd, e.chunkId = k ∧
            ((s.bm25.eraseAll (s.diffFor env record).toDelete).setAll (·.chunkId) id
              (s.diffFor env record).toAdd).get? k = some (id e) := Dict.get?_setAll_of_mem hk
        obtain rfl := Option.some.inj (hset.symm.trans hget)
        exact hasWord_of_mem_chunks hrecord (mem_chunks_of_mem_toAdd hnew)
      · rw [Dict.get?_setAll_of_notMem hk, Dict.get?_eraseAll] at hget
        split_ifs at hget
        exact h k chunk hget
  | delete documentId =>
    have hexit : DeleteExit env Faults.none documentId s _ _ := deleteDocument_exit documentId s
    rw [serve_delete_eq_some.mp hcall] at hexit
    dsimp only at hexit
    cases hexit with
    | @erased chunkIds =>
      have hbm25 : (Exc.stage (eraseEffects documentId chunkIds) s 5).bumped.bm25 =
          s.bm25.eraseAll chunkIds := rfl
      intro k chunk hget
      rw [hbm25, Dict.get?_eraseAll] at hget
      split_ifs at hget
      exact h k chunk hget

/-- What completed calls have saved: the files are the indexes in memory, whose chunks have
words. -/
private theorem saved_of_reach (h : Reach (serve env) {} s) : s.Settled ∧ s.Worded := by
  have hstart : Stores.Settled {} ∧ Stores.Worded {} :=
    ⟨⟨rfl, rfl, fun _ => rfl⟩, (fun _ _ hget => nomatch hget)⟩
  refine h.invariant (P := fun s => s.Settled ∧ s.Worded) hstart ?_
  exact fun _ _ _ hs _ hcall => ⟨hs.1.serve hcall, hs.2.serve hcall⟩

/-- A corpus with a chunk is saved together with a FAISS store. -/
private theorem exists_faissDisk (h : Reach (serve env) {} s) (hne : s.corpusOnDisk.keys ≠ []) :
    ∃ store, s.faissDisk = some store := by
  obtain ⟨hsettled, -⟩ := saved_of_reach h
  rw [Stores.corpusOnDisk, hsettled.bm25] at hne
  obtain ⟨k, hk⟩ := List.exists_mem_of_ne_nil _ hne
  obtain ⟨chunk, hget⟩ := Dict.mem_keys_iff.mp hk
  rw [hsettled.faiss, ← Option.ne_none_iff_exists']
  intro hnone
  -- without a store no document has a chunk, in BM25 either
  have hinstep := (consistent_of_reach h).inStep
  have hmem : k ∈ s.bm25Ids chunk.documentId := mem_idsIn.mpr ⟨chunk, hget, rfl⟩
  rw [hinstep.bm25, hinstep.chunkRowIds_of_none hnone] at hmem
  exact Finset.notMem_empty k hmem

/-- Such a corpus can be scored. -/
private theorem exists_bm25Cache {Okapi : Type}
    {bm25Okapi : List (List (List Char)) → Except PyError Okapi}
    (hokapi : ∀ docs, (∃ doc ∈ docs, doc ≠ []) → ∃ okapi, bm25Okapi docs = .ok okapi)
    (hlower : env.unicode.KeepsWords) (h : Reach (serve env) {} s)
    (hne : s.corpusOnDisk.keys ≠ []) :
    ∃ cache, buildBm25 env.unicode bm25Okapi s.corpusOnDisk = .ok cache := by
  obtain ⟨hsettled, hworded⟩ := saved_of_reach h
  obtain ⟨k, hk⟩ := List.exists_mem_of_ne_nil _ hne
  obtain ⟨chunk, hget⟩ := Dict.mem_keys_iff.mp hk
  have hword : HasWord chunk.rawChunkText := by
    rw [Stores.corpusOnDisk, hsettled.bm25] at hget
    exact hworded k chunk hget
  have hdoc : Text.words (env.unicode.lower chunk.rawChunkText.toList) ≠ [] :=
    Text.words_ne_nil (hlower _ hword)
  have hmem : chunk ∈ s.corpusOnDisk.values := Dict.mem_values_iff.mpr ⟨k, hget⟩
  have hsome : ∃ doc ∈ s.corpusOnDisk.values.map fun chunk =>
      Text.words (env.unicode.lower chunk.rawChunkText.toList), doc ≠ [] :=
    ⟨_, List.mem_map_of_mem hmem, hdoc⟩
  obtain ⟨okapi, hscored⟩ := hokapi _ hsome
  refine ⟨(s.corpusOnDisk.keys, okapi), ?_⟩
  rw [buildBm25, hscored]
  rfl

/-- **Reloading after completed calls.** A running worker can be reloaded exactly if a chunk is
left on disk, and then serves what is on disk; and whatever the files are, a reload that raises
leaves the globals alone. -/
theorem reload_after {Okapi : Type} {bm25Okapi : List (List (List Char)) → Except PyError Okapi}
    (hokapi : ∀ docs, (∃ doc ∈ docs, doc ≠ []) → ∃ okapi, bm25Okapi docs = .ok okapi)
    (hlower : env.unicode.KeepsWords) (h : Reach (serve env) {} s) {g : IndexGlobals Okapi}
    (hrunning : g.embedder = true) :
    (s.corpusOnDisk.keys ≠ [] →
      ∃ g', reloadIndexFromDisk env.unicode bm25Okapi s.indexFiles g = (.ok (), g') ∧
        ∀ files, servedChunks files g' = (.ok s.corpusOnDisk.values, g')) ∧
    (s.corpusOnDisk.keys = [] → ∃ e, e.cls = .retrievalError ∧
      reloadIndexFromDisk env.unicode bm25Okapi s.indexFiles g = (.error e, g)) ∧
    ∀ files e g', reloadIndexFromDisk env.unicode bm25Okapi files g = (.error e, g') → g' = g := by
  refine ⟨fun hne => ?_, fun hnil => ?_, fun files e g' hrun => (reload_eq_error hrunning hrun).2⟩
  · obtain ⟨store, hstore⟩ := exists_faissDisk h hne
    obtain ⟨cache, hcache⟩ := exists_bm25Cache hokapi hlower h hne
    have hfaiss : s.indexFiles.faiss = .ok (some store) := congrArg Except.ok hstore
    refine ⟨_, reload_eq_ok hrunning hfaiss rfl hcache hne, fun files => ?_⟩
    exact servedChunks_of_loaded hrunning rfl rfl
  · have hempty : ∃ e, reloadIndexFromDisk env.unicode bm25Okapi s.indexFiles g = (.error e, g) :=
      reload_of_refused hrunning rfl rfl (Or.inr hnil)
    obtain ⟨e, he⟩ := hempty
    exact ⟨e, (reload_eq_error hrunning he).1, he⟩

end

/-- BM25Okapi divides by the number of documents, and by that of the different words in them. -/
def sampleOkapi (docs : List (List (List Char))) : Except PyError Unit :=
  if docs.all List.isEmpty then
    .error { cls := .external "ZeroDivisionError", message := "division by zero" }
  else .ok ()

theorem sampleOkapi_ok (docs : List (List (List Char))) (h : ∃ doc ∈ docs, doc ≠ []) :
    ∃ okapi, sampleOkapi docs = .ok okapi := by
  obtain ⟨doc, hdoc, hne⟩ := h
  refine ⟨(), if_neg fun hall => ?_⟩
  exact hne (List.isEmpty_iff.mp (List.all_eq_true.mp hall doc hdoc))

/-- A worker that has loaded what is on disk. -/
def loadedWorker (s : Stores) : IndexGlobals Unit where
  embedder := true
  faissIndex := some s.faissDisk
  bm25Index := some s.corpusOnDisk

/-- `reload_after` for a worker that has loaded the files before there was a chunk. -/
theorem reload_after_insert : ∃ s g', exec (serve sampleEnv) {} [sampleInsert "one"] = some s ∧
    s.corpusOnDisk.keys ≠ [] ∧
    reloadIndexFromDisk sampleEnv.unicode sampleOkapi s.indexFiles (loadedWorker {}) =
      (.ok (), g') ∧ ∀ files, servedChunks files g' = (.ok s.corpusOnDisk.values, g') := by
  have hrun : (exec (serve sampleEnv) {} [sampleInsert "one"]).any (fun s =>
      decide (s.corpusOnDisk.keys ≠ [])) = true := by
    decide +kernel
  obtain ⟨s, hs, hkeys⟩ := (Option.any_eq_true _ _).mp hrun
  have hne : s.corpusOnDisk.keys ≠ [] := of_decide_eq_true hkeys
  have hrunning : (loadedWorker {}).embedder = true := rfl
  obtain ⟨g', hreload, hserved⟩ :=
    (reload_after sampleOkapi_ok Text.keepsWords_ascii (reach_of_exec hs) hrunning).1 hne
  exact ⟨s, g', hs, hne, hreload, hserved⟩

/-- **The last deletion is not taken over**: the only document is deleted, a worker that has loaded
it is reloaded, which raises, and the worker goes on serving the document. -/
theorem last_deletion : ∃ s t e, exec (serve sampleEnv) {} [sampleInsert "one"] = some s ∧
    serve sampleEnv s (.delete "alpha") = some t ∧ t.corpusOnDisk.values = [] ∧
    reloadIndexFromDisk sampleEnv.unicode sampleOkapi t.indexFiles (loadedWorker s) =
      (.error e, loadedWorker s) ∧ s.corpusOnDisk.values ≠ [] ∧
    ∀ files, servedChunks files (loadedWorker s) = (.ok s.corpusOnDisk.values, loadedWorker s) := by
  have hrun : (exec (serve sampleEnv) {} [sampleInsert "one"]).any (fun s =>
      decide (s.corpusOnDisk.values ≠ []) &&
        (serve sampleEnv s (.delete "alpha")).any fun t =>
          decide (t.corpusOnDisk.values = [])) = true := by
    decide +kernel
  obtain ⟨s, hs, hboth⟩ := (Option.any_eq_true _ _).mp hrun
  obtain ⟨hvalues, hdelete⟩ := (Bool.and_eq_true _ _).mp hboth
  obtain ⟨t, ht, hempty⟩ := (Option.any_eq_true _ _).mp hdelete
  have hnil : t.corpusOnDisk.values = [] := of_decide_eq_true hempty
  have hkeys : t.corpusOnDisk.keys = [] := by
    rw [Dict.keys, List.map_eq_nil_iff.mp hnil]
    rfl
  have hreload : ∃ e, reloadIndexFromDisk sampleEnv.unicode sampleOkapi t.indexFiles
      (loadedWorker s) = (.error e, loadedWorker s) :=
    reload_of_refused rfl rfl rfl (Or.inr hkeys)
  obtain ⟨e, he⟩ := hreload
  exact ⟨s, t, e, hs, ht, hnil, he, of_decide_eq_true hvalues,
    fun files => servedChunks_of_loaded rfl rfl rfl⟩

/-! ### The reload of the cache watcher -/

/-- The files of `Published`, read without a failure. -/
def Published.indexFiles (p : Published) : IndexFiles where
  faiss := .ok p.faissDisk
  bm25 := .ok (p.bm25Disk.map (·.records))

/-- The globals of a worker. -/
def Worker.globals (w : Worker) : IndexGlobals Unit where
  embedder := w.embedder
  faissIndex := w.faissIndex.map (·.content)
  bm25Index := w.bm25Index.map (·.content.records)
  bm25Cache := w.bm25Cache.map fun cache => (cache.content, ())

/-- **The reads and the swap of a worker are a reload**, if the files do not change between them:
the worker goes on to `Sessions.reload` exactly if `reload_index_from_disk` returns. -/
theorem Worker.step_reload (unicode : Text.Unicode) {p : Published} {w : Worker} {current : ℕ}
    (hstage : w.stage = .readingFaiss current) (hrunning : w.embedder = true)
    (now₁ now₂ now₃ : ℕ) :
    (((w.step p now₁ false).step p now₂ false).step p now₃ false).globals =
        (reloadIndexFromDisk unicode (fun _ => .ok ()) p.indexFiles w.globals).2 ∧
      ((((w.step p now₁ false).step p now₂ false).step p now₃ false).stage = .reloading current ↔
        (reloadIndexFromDisk unicode (fun _ => .ok ()) p.indexFiles w.globals).1 = .ok ()) := by
  have hsteps : ((w.step p now₁ false).step p now₂ false).step p now₃ false =
      if p.faissDisk = none ∨ (p.bm25Disk.getD .empty).records.keys = [] then
        { w with stage := .polling }
      else { w with
        faissIndex := some ⟨p.faissDisk, now₁⟩, bm25Index := some ⟨p.bm25Disk.getD .empty, now₂⟩
        bm25Cache := some (buildBm25Cache ⟨p.bm25Disk.getD .empty, now₂⟩)
        stage := .reloading current, assigned := false } := by
    simp only [Worker.step, hstage, Worker.swap, if_false, Bool.false_eq_true]
  have hrecords : (p.bm25Disk.map (·.records)).getD .empty =
      (p.bm25Disk.getD .empty).records := by
    cases p.bm25Disk with
    | none => rfl
    | some corpus => rfl
  have hbm25 : (p.indexFiles.bm25.map fun corpus => corpus.getD .empty) =
      .ok (p.bm25Disk.getD .empty).records := congrArg Except.ok hrecords
  have hglobals : w.globals.embedder = true := hrunning
  rw [hsteps]
  split_ifs with hrefused
  · have hraises : ∃ e, reloadIndexFromDisk unicode (fun _ => .ok ()) p.indexFiles w.globals =
        (.error e, w.globals) := reload_of_refused hglobals rfl hbm25 hrefused
    obtain ⟨e, he⟩ := hraises
    rw [he]
    refine ⟨rfl, ?_⟩
    constructor
    · intro h
      cases h
    · intro h
      cases h
  · obtain ⟨hstore, hkeys⟩ := not_or.mp hrefused
    obtain ⟨store, hsome⟩ := Option.ne_none_iff_exists'.mp hstore
    have hreload : reloadIndexFromDisk unicode (fun _ => .ok ()) p.indexFiles w.globals = _ :=
      reload_eq_ok hglobals (congrArg Except.ok hsome) hbm25 rfl hkeys
    rw [hreload, hsome]
    exact ⟨rfl, iff_of_true rfl rfl⟩

end AuditFlow
