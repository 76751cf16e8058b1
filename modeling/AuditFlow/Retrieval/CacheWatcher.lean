import AuditFlow.Foundation.Transition
import AuditFlow.Ingest.Stores
import AuditFlow.Orchestration.Matching
import AuditFlow.Verification.Verify
import Mathlib.Logic.Function.Basic

/-!
# The cache watcher

A worker loads FAISS and BM25 from disk when its module is imported, and from then on serves these
copies. `retrieval/cache_watcher.py` keeps them fresh: ingestions in other processes save both files
and then increment `index:version`; the worker polls the counter, and when it has advanced, calls
`reload_index_from_disk` and `Sessions.reload` and takes note of the version. A reload may fail
anywhere, and is tried again at the next poll.

The first poll only takes note of the version: it assumes that what the import loaded is of that
version. And `_bm25_cache`, the scorer that requests rank with, is not only assigned by a reload: a
request that finds none builds it from the corpus that is served, and assigns it when it is done,
**whatever has been swapped in since**. `caughtUp_iff` says that a worker that has noted a version
serves what was saved for it if and only if neither happens too late: the first poll that gets
through finds a version whose files had been saved before the import read them, and no request puts
in place a scorer that is older than the saves. `stale_from_the_start` is an ingestion between
the import and the first poll, and `stale_after_the_swap` a request during a reload.
-/

namespace AuditFlow

open Foundation

/-! ### What the processes share -/

/-- A BM25 corpus: chunks under their ids. -/
structure Corpus where
  records : Dict String ChunkRecord
  keyed : ∀ k chunk, records.get? k = some chunk → chunk.chunkId = k

namespace Corpus

/-- The corpus without chunks. -/
def empty : Corpus := ⟨.empty, fun _ _ h => nomatch h⟩

/-- The chunks, added one after the other. -/
def ofChunks (chunks : List ChunkRecord) : Corpus where
  records := Dict.empty.setAll (·.chunkId) id chunks
  keyed k chunk h := by
    by_cases hk : k ∈ chunks.map (·.chunkId)
    · obtain ⟨chunk', -, hid, hget⟩ : ∃ chunk' ∈ chunks, chunk'.chunkId = k ∧
          (Dict.empty.setAll (·.chunkId) id chunks).get? k = some chunk' :=
        Dict.get?_setAll_of_mem hk
      obtain rfl := Option.some.inj (hget.symm.trans h)
      exact hid
    · rw [Dict.get?_setAll_of_notMem hk] at h
      cases h

end Corpus

/-- The index files, the documents in Postgres, and the counter in Redis. -/
structure Published where
  /-- The FAISS store on disk, if there is one. -/
  faissDisk : Option (List FaissEntry) := none
  /-- The BM25 corpus on disk, if there is one. -/
  bm25Disk : Option Corpus := none
  /-- What `get_all_document_identities` makes of the table `documents`. -/
  identities : Dict String Identity := .empty
  /-- `index:version`. -/
  indexVersion : ℕ := 0

/-- The moments at which an ingestion has saved its two files. -/
structure Saves where
  faissSavedAt : ℕ
  bm25SavedAt : ℕ
  deriving DecidableEq, Repr

/-- How far an ingestion has come. -/
inductive Ingestion
  | idle
  | savedFaiss (faissSavedAt : ℕ)
  | savedBm25 (saves : Saves)
  | wrotePostgres (saves : Saves)
  deriving DecidableEq, Repr

/-! ### A worker -/

/-- A file in memory, and the moment at which it was read. -/
structure Copy (α : Type) where
  content : α
  readAt : ℕ

/-- Where a worker stands. -/
inductive WorkerStage
  /-- In `get_indexes`, on behalf of the import or of a reload. -/
  | gettingIndexes (reload : Option ℕ)
  /-- In `Sessions.__init__`, which ends the import. -/
  | constructing
  /-- Before the next look at the version. -/
  | polling
  | readingFaiss (current : ℕ)
  | readingBm25 (current : ℕ) (newFaiss : Copy (Option (List FaissEntry)))
  | swapping (current : ℕ) (newFaiss : Copy (Option (List FaissEntry)))
      (newBm25 : Copy Corpus)
  /-- In `Sessions.reload`. -/
  | reloading (current : ℕ)
  /-- The import has failed. -/
  | dead

/-- `_bm25_cache`: the chunk ids that a scorer ranks, and when the corpus that it was built from was
read. -/
abbrev Bm25Cache := Copy (List String)

/-- The scorer of a corpus. -/
def buildBm25Cache (bm25Index : Copy Corpus) : Bm25Cache :=
  ⟨bm25Index.content.records.keys, bm25Index.readAt⟩

/-- The globals of a worker. -/
structure Worker where
  /-- `_embedder` has been built. -/
  embedder : Bool := false
  /-- `_faiss_index`, whose store is `None` if there was no file. -/
  faissIndex : Option (Copy (Option (List FaissEntry))) := none
  /-- `_bm25_index`. -/
  bm25Index : Option (Copy Corpus) := none
  /-- `_bm25_cache`. -/
  bm25Cache : Option Bm25Cache := none
  /-- `pipeline.chunk_lookup`. -/
  chunkLookup : Dict String String := .empty
  /-- `pipeline.all_identities`. -/
  identities : Dict String Identity := .empty
  /-- `_last_seen_version`. -/
  lastSeenVersion : Option ℕ := none
  stage : WorkerStage := .gettingIndexes none
  /-- Ghost: a request has assigned `_bm25_cache` since the last swap. -/
  assigned : Bool := false

namespace Worker

variable (p : Published) (now : ℕ) (raises : Bool) (w : Worker)

/-- The corpus that is served. -/
def corpus : Corpus := (w.bm25Index.map (·.content)).getD .empty

/-- The tables of `Sessions`, rebuilt. -/
def rebuilt : Worker :=
  { w with chunkLookup := buildChunkLookup w.corpus.records.values, identities := p.identities }

/-- `get_indexes`: load what is not there yet, then go on. -/
def getIndexes (reload : Option ℕ) : Worker :=
  if raises then { w with stage := reload.elim .dead fun _ => .polling }
  else if w.embedder = false then { w with embedder := true }
  else if w.faissIndex.isNone then { w with faissIndex := some ⟨p.faissDisk, now⟩ }
  else if w.bm25Index.isNone then { w with bm25Index := some ⟨p.bm25Disk.getD .empty, now⟩ }
  else { w with stage := reload.elim .constructing .reloading }

/-- An iteration of `watch_index_version`, up to the reload. -/
def poll : Worker :=
  match w.lastSeenVersion with
  | none => { w with lastSeenVersion := some p.indexVersion }
  | some seen =>
    if seen < p.indexVersion then
      { w with stage := if w.embedder then .readingFaiss p.indexVersion
          else .gettingIndexes (some p.indexVersion) }
    else w

/-- The end of `reload_index_from_disk`: the new indexes are checked, and swapped in. -/
def swap (current : ℕ) (newFaiss : Copy (Option (List FaissEntry)))
    (newBm25 : Copy Corpus) : Worker :=
  -- there must be a store, and an empty corpus may be an incomplete write
  if newFaiss.content = none ∨ newBm25.content.records.keys = [] then { w with stage := .polling }
  else { w with
    faissIndex := some newFaiss, bm25Index := some newBm25
    bm25Cache := some (buildBm25Cache newBm25), stage := .reloading current, assigned := false }

/-- One step of a worker. `watch_index_version` swallows what an iteration raises. -/
def step : Worker :=
  match w.stage with
  | .gettingIndexes reload => w.getIndexes p now raises reload
  | .constructing =>
    if raises then { w with stage := .dead } else { w.rebuilt p with stage := .polling }
  | .polling => if raises then w else w.poll p
  | .readingFaiss current =>
    { w with stage := if raises then .polling else .readingBm25 current ⟨p.faissDisk, now⟩ }
  | .readingBm25 current newFaiss =>
    { w with stage := if raises then .polling
        else .swapping current newFaiss ⟨p.bm25Disk.getD .empty, now⟩ }
  | .swapping current newFaiss newBm25 =>
    if raises then { w with stage := .polling } else w.swap current newFaiss newBm25
  | .reloading current =>
    if raises then { w with stage := .polling }
    else { w.rebuilt p with lastSeenVersion := some current, stage := .polling }
  | .dead => w

/-- The module has been imported, so that requests are answered. -/
def imported : Bool :=
  match w.stage with
  | .gettingIndexes none | .constructing | .dead => false
  | _ => true

/-- A request has built a scorer. -/
def assignCache (bm25Index : Copy Corpus) : Worker :=
  { w with bm25Cache := some (buildBm25Cache bm25Index), assigned := true }

end Worker

/-- How far a request is in `_get_cached_bm25`. -/
inductive CacheRequest
  /-- It is somewhere else. -/
  | idle
  /-- It has found no `_bm25_cache`. -/
  | foundNone
  /-- It builds a scorer of this corpus. -/
  | building (bm25Index : Copy Corpus)

/-- One step of a request in `_get_cached_bm25`. -/
def CacheRequest.step (w : Worker) (raises : Bool) : CacheRequest → Option (CacheRequest × Worker)
  | .idle =>
    if w.imported then some (if w.bm25Cache.isNone then .foundNone else .idle, w) else none
  | .foundNone => w.bm25Index.map fun bm25Index => (.building bm25Index, w)
  | .building bm25Index =>
    -- an empty corpus cannot be scored
    some (.idle, if raises ∨ bm25Index.content.records.keys = [] then w
      else w.assignCache bm25Index)

/-! ### The system -/

/-- A worker among ingesting processes, at a moment. -/
structure WatchState (ι : Type) where
  now : ℕ := 0
  published : Published
  /-- Who is where in an ingestion. -/
  ingestions : ι → Ingestion := fun _ => .idle
  /-- The saves that each version announces. -/
  announced : ℕ → Saves := fun _ => ⟨0, 0⟩
  worker : Worker := {}
  /-- The requests that the worker answers meanwhile. -/
  requests : ℕ → CacheRequest := fun _ => .idle

/-- What happens next. -/
inductive WatchLabel (ι : Type)
  | saveFaiss (i : ι) (store : List FaissEntry)
  | saveBm25 (i : ι) (corpus : Corpus)
  | writePostgres (i : ι) (identities : Dict String Identity)
  | bumpIndexVersion (i : ι)
  /-- An ingestion raises. -/
  | raise (i : ι)
  /-- The worker takes a step, which may raise. -/
  | worker (raises : Bool)
  /-- A request takes a step in `_get_cached_bm25`, which may raise. -/
  | request (r : ℕ) (raises : Bool)

section

variable {ι : Type} [DecidableEq ι]

/-- An ingestion goes on. -/
def WatchState.proceed (s : WatchState ι) (i : ι) (next : Ingestion) (published : Published) :
    WatchState ι :=
  { s with
    now := s.now + 1, published, ingestions := Function.update s.ingestions i next }

/-- One step of the system: an ingestion saves FAISS, saves BM25, writes Postgres and increments
the version, in this order. -/
def watchStep (s : WatchState ι) : WatchLabel ι → Option (WatchState ι)
  | .saveFaiss i store =>
    match s.ingestions i with
    | .idle =>
      some (s.proceed i (.savedFaiss s.now) { s.published with faissDisk := some store })
    | _ => none
  | .saveBm25 i corpus =>
    match s.ingestions i with
    | .savedFaiss faissSavedAt => some (s.proceed i (.savedBm25 ⟨faissSavedAt, s.now⟩)
        { s.published with bm25Disk := some corpus })
    | _ => none
  | .writePostgres i identities =>
    match s.ingestions i with
    | .savedBm25 saves =>
      some (s.proceed i (.wrotePostgres saves) { s.published with identities })
    | _ => none
  | .bumpIndexVersion i =>
    match s.ingestions i with
    | .wrotePostgres saves =>
      let version := s.published.indexVersion + 1
      some { s.proceed i .idle { s.published with indexVersion := version } with
        announced := Function.update s.announced version saves }
    | _ => none
  | .raise i => some (s.proceed i .idle s.published)
  | .worker raises =>
    some { s with now := s.now + 1, worker := s.worker.step s.published s.now raises }
  | .request r raises =>
    ((s.requests r).step s.worker raises).map fun (request, worker) =>
      { s with now := s.now + 1, worker, requests := Function.update s.requests r request }

end

/-! ### Caught up -/

/-- The two indexes that a worker serves were read no earlier than the saves. -/
def Worker.IndexSince (w : Worker) (saves : Saves) : Prop :=
  (∃ copy, w.faissIndex = some copy ∧ saves.faissSavedAt ≤ copy.readAt) ∧
    ∃ copy, w.bm25Index = some copy ∧ saves.bm25SavedAt ≤ copy.readAt

/-- The scorer, if there is one, is of a corpus that was read no earlier than it was saved. -/
def Worker.CacheSince (w : Worker) (saves : Saves) : Prop :=
  ∀ cache, w.bm25Cache = some cache → saves.bm25SavedAt ≤ cache.readAt

/-- All that a worker serves was read no earlier than the saves. -/
def Worker.LoadedSince (w : Worker) (saves : Saves) : Prop :=
  w.IndexSince saves ∧ w.CacheSince saves

/-- A worker serves what was saved for the version that it has seen. -/
def Worker.CaughtUp (announced : ℕ → Saves) (w : Worker) : Prop :=
  ∀ v, w.lastSeenVersion = some v → w.LoadedSince (announced v)

/-- **Caught up**, in a state of the system. -/
def WatchState.CaughtUp {ι : Type} (s : WatchState ι) : Prop := s.worker.CaughtUp s.announced

/-- What a worker takes note of is served: the first poll that gets through finds a version whose
files had been saved before the import read them, and at the end of a reload no request has put an
older scorer in the place of the one that was swapped in. -/
def Worker.NotesFresh (announced : ℕ → Saves) (version : ℕ) (w : Worker) : Prop :=
  match w.stage with
  | .polling => w.lastSeenVersion = none → w.LoadedSince (announced version)
  | .reloading current => w.assigned = true → w.CacheSince (announced current)
  | _ => True

/-- What the worker takes note of is served, and no request assigns a scorer that is older than the
saves of the version that the worker has seen. -/
def StaysFresh {ι : Type} (s : WatchState ι) : WatchLabel ι → Prop
  | .worker raises =>
    raises = false → s.worker.NotesFresh s.announced s.published.indexVersion
  | .request r raises => raises = false → ∀ bm25Index v, s.requests r = .building bm25Index →
    bm25Index.content.records.keys ≠ [] → s.worker.lastSeenVersion = some v →
      (s.announced v).bm25SavedAt ≤ bm25Index.readAt
  | _ => True

/-! ### What holds of a worker -/

/-- Both moments are over. -/
structure Saves.Past (now : ℕ) (saves : Saves) : Prop where
  faiss : saves.faissSavedAt ≤ now
  bm25 : saves.bm25SavedAt ≤ now

/-- What has been read for a reload to `current` is not older than the saves of any version up to
it. -/
def StageSound (announced : ℕ → Saves) (version : ℕ) (w : Worker) : WorkerStage → Prop
  | .gettingIndexes none | .dead => w.lastSeenVersion = none
  -- an imported module has its embedder, so that a reload never comes here
  | .gettingIndexes (some _) => False
  | .constructing => w.lastSeenVersion = none ∧ w.embedder = true
  | .polling => w.embedder = true
  | .readingFaiss current =>
    w.embedder = true ∧ current ≤ version ∧ ∀ v, w.lastSeenVersion = some v → v ≤ current
  | .readingBm25 current newFaiss =>
    w.embedder = true ∧ current ≤ version ∧ (∀ v, w.lastSeenVersion = some v → v ≤ current) ∧
      ∀ v ≤ current, (announced v).faissSavedAt ≤ newFaiss.readAt
  | .swapping current newFaiss newBm25 =>
    w.embedder = true ∧ current ≤ version ∧ (∀ v, w.lastSeenVersion = some v → v ≤ current) ∧
      ∀ v ≤ current, (announced v).faissSavedAt ≤ newFaiss.readAt ∧
        (announced v).bm25SavedAt ≤ newBm25.readAt
  | .reloading current =>
    w.embedder = true ∧ current ≤ version ∧ w.IndexSince (announced current) ∧
      (w.assigned = false → w.CacheSince (announced current))

/-- The invariant of a worker. -/
structure Worker.Sound (announced : ℕ → Saves) (version : ℕ) (w : Worker) : Prop where
  seen : ∀ v, w.lastSeenVersion = some v → v ≤ version
  stage : StageSound announced version w w.stage

section

variable {announced : ℕ → Saves} {version now : ℕ} {p : Published} {w : Worker} {saves : Saves}

theorem Worker.sound_start : ({} : Worker).Sound announced version :=
  ⟨(fun _ hseen => nomatch hseen), rfl⟩

/-- A new version leaves those that a worker knows alone. -/
theorem Worker.Sound.bump (h : w.Sound announced version) :
    w.Sound (Function.update announced (version + 1) saves) (version + 1) := by
  have hold : ∀ v ≤ version, Function.update announced (version + 1) saves v = announced v := by
    intro v hv
    exact Function.update_of_ne (by omega) _ _
  refine ⟨fun v hv => (h.seen v hv).trans (Nat.le_succ version), ?_⟩
  have hstage := h.stage
  cases hw : w.stage with
  | gettingIndexes reload =>
    rw [hw] at hstage
    cases reload with
    | none => exact hstage
    | some current => exact hstage
  | constructing | polling | dead =>
    rw [hw] at hstage
    exact hstage
  | readingFaiss current =>
    rw [hw] at hstage
    obtain ⟨hembedder, hle, hseen⟩ := hstage
    exact ⟨hembedder, hle.trans (Nat.le_succ version), hseen⟩
  | readingBm25 current newFaiss =>
    rw [hw] at hstage
    obtain ⟨hembedder, hle, hseen, hread⟩ := hstage
    refine ⟨hembedder, hle.trans (Nat.le_succ version), hseen, fun v hv => ?_⟩
    rw [hold v (hv.trans hle)]
    exact hread v hv
  | swapping current newFaiss newBm25 =>
    rw [hw] at hstage
    obtain ⟨hembedder, hle, hseen, hread⟩ := hstage
    refine ⟨hembedder, hle.trans (Nat.le_succ version), hseen, fun v hv => ?_⟩
    rw [hold v (hv.trans hle)]
    exact hread v hv
  | reloading current =>
    rw [hw] at hstage
    obtain ⟨hembedder, hle, hloaded⟩ := hstage
    refine ⟨hembedder, hle.trans (Nat.le_succ version), ?_⟩
    rw [hold current hle]
    exact hloaded

/-- A scorer that a request assigns is no matter of the watcher. -/
theorem Worker.Sound.assignCache (h : w.Sound announced version) (bm25Index : Copy Corpus) :
    (w.assignCache bm25Index).Sound announced version := by
  refine ⟨h.seen, ?_⟩
  have hstage := h.stage
  rw [Worker.assignCache]
  dsimp only
  cases hw : w.stage with
  | gettingIndexes reload =>
    rw [hw] at hstage
    cases reload with
    | none => exact hstage
    | some current => exact hstage
  | constructing | polling | readingFaiss | readingBm25 | swapping | dead =>
    rw [hw] at hstage
    exact hstage
  | reloading current =>
    rw [hw] at hstage
    obtain ⟨hembedder, hle, hindex, -⟩ := hstage
    exact ⟨hembedder, hle, hindex, fun hassigned => nomatch hassigned⟩

/-- **An assigned scorer** leaves a worker caught up if its corpus was read since the saves. -/
theorem Worker.caughtUp_assignCache_iff (hcaught : w.CaughtUp announced)
    {bm25Index : Copy Corpus} :
    (w.assignCache bm25Index).CaughtUp announced ↔ ∀ v, w.lastSeenVersion = some v →
      (announced v).bm25SavedAt ≤ bm25Index.readAt := by
  constructor
  · intro hafter v hv
    exact (hafter v hv).2 (buildBm25Cache bm25Index) rfl
  · intro hread v hv
    refine ⟨(hcaught v hv).1, fun cache hcache => ?_⟩
    obtain rfl := Option.some.inj hcache
    exact hread v hv

/-- A new version does not change whether a worker is caught up. -/
theorem Worker.caughtUp_bump_iff (h : w.Sound announced version) :
    w.CaughtUp (Function.update announced (version + 1) saves) ↔ w.CaughtUp announced := by
  refine forall₂_congr fun v hv => ?_
  have hle := h.seen v hv
  rw [Function.update_of_ne (by omega)]

/-! ### One step of a worker -/

/-- Until it has been imported, a worker has seen nothing. -/
private theorem sound_getIndexes (hseen : w.lastSeenVersion = none) (raises : Bool)
    (hstage : w.stage = .gettingIndexes none) :
    (w.getIndexes p now raises none).Sound announced version ∧
      (w.getIndexes p now raises none).lastSeenVersion = none := by
  have hnone : ∀ v, w.lastSeenVersion = some v → v ≤ version := by
    intro v hv
    rw [hseen] at hv
    cases hv
  have hstays : ∀ w' : Worker, w'.stage = w.stage → w'.lastSeenVersion = w.lastSeenVersion →
      StageSound announced version w' w'.stage := by
    intro w' hstage' hseen'
    rw [hstage', hstage]
    exact hseen'.trans hseen
  rw [Worker.getIndexes]
  split_ifs with hraises hembedder hfaiss hbm25
  · exact ⟨⟨hnone, hseen⟩, hseen⟩
  · exact ⟨⟨hnone, hstays _ rfl rfl⟩, hseen⟩
  · exact ⟨⟨hnone, hstays _ rfl rfl⟩, hseen⟩
  · exact ⟨⟨hnone, hstays _ rfl rfl⟩, hseen⟩
  · exact ⟨⟨hnone, hseen, Bool.eq_true_of_not_eq_false hembedder⟩, hseen⟩

/-- **A poll** starts a reload, or is the first one and takes note of the version. -/
private theorem sound_poll (h : w.Sound announced p.indexVersion) (hstage : w.stage = .polling) :
    (w.poll p).Sound announced p.indexVersion ∧ (w.CaughtUp announced →
      ((w.poll p).CaughtUp announced ↔
        (w.lastSeenVersion = none → w.LoadedSince (announced p.indexVersion)))) := by
  have hembedder : w.embedder = true := by
    have hsound := h.stage
    rwa [hstage] at hsound
  rw [Worker.poll]
  split
  case h_1 hseen =>
    refine ⟨⟨fun v hv => (Option.some.inj hv).ge, ?_⟩, fun _ => ?_⟩
    · dsimp only
      rw [hstage]
      exact hembedder
    · constructor
      · exact fun hcaught _ => hcaught p.indexVersion rfl
      · intro hfresh v hv
        obtain rfl := Option.some.inj hv
        exact hfresh hseen
  case h_2 seen hseen =>
    have hnot : ¬w.lastSeenVersion = none := by
      rw [hseen]
      exact Option.some_ne_none seen
    split_ifs with hlt
    · refine ⟨⟨h.seen, ?_⟩, fun hcaught => iff_of_true hcaught fun hnone => absurd hnone hnot⟩
      dsimp only
      rw [hembedder]
      exact ⟨rfl, le_rfl, h.seen⟩
    · exact ⟨h, fun hcaught => iff_of_true hcaught fun hnone => absurd hnone hnot⟩

/-- **The swap** is refused, or what it puts in place was read for the version. -/
private theorem sound_swap {current : ℕ} {newFaiss : Copy (Option (List FaissEntry))}
    {newBm25 : Copy Corpus} (h : w.Sound announced version)
    (hstage : w.stage = .swapping current newFaiss newBm25) :
    (w.swap current newFaiss newBm25).Sound announced version ∧
      (w.CaughtUp announced → (w.swap current newFaiss newBm25).CaughtUp announced) := by
  have hsound := h.stage
  rw [hstage] at hsound
  obtain ⟨hembedder, hle, hseen, hread⟩ := hsound
  have hloaded : ∀ v ≤ current, ({ w with
      faissIndex := some newFaiss, bm25Index := some newBm25
      bm25Cache := some (buildBm25Cache newBm25), stage := .reloading current, assigned := false } :
        Worker).LoadedSince (announced v) := by
    intro v hv
    obtain ⟨hfaiss, hbm25⟩ := hread v hv
    refine ⟨⟨⟨newFaiss, rfl, hfaiss⟩, ⟨newBm25, rfl, hbm25⟩⟩, fun cache hcache => ?_⟩
    -- all three globals come from the same two reads
    obtain rfl := Option.some.inj hcache
    exact hbm25
  rw [Worker.swap]
  split_ifs with hrefused
  · exact ⟨⟨h.seen, hembedder⟩, fun hcaught => hcaught⟩
  · obtain ⟨hindex, hcache⟩ := hloaded current le_rfl
    refine ⟨⟨h.seen, hembedder, hle, hindex, fun _ => hcache⟩, fun _ v hv => ?_⟩
    exact hloaded v (hseen v hv)

/-- **The end of a reload** takes note of a version whose files have been swapped in; only a request
can have put an older scorer in their place. -/
private theorem caughtUp_reloaded_iff {current : ℕ} (hindex : w.IndexSince (announced current))
    (hcache : w.assigned = false → w.CacheSince (announced current)) :
    ({ w.rebuilt p with lastSeenVersion := some current, stage := .polling } :
        Worker).CaughtUp announced ↔ (w.assigned = true → w.CacheSince (announced current)) := by
  constructor
  · exact fun hcaught _ => (hcaught current rfl).2
  · intro hrequests v hv
    obtain rfl := Option.some.inj hv
    refine ⟨hindex, ?_⟩
    rcases hassigned : w.assigned with - | -
    · exact hcache hassigned
    · exact hrequests hassigned

/-- **One step of a worker** keeps the invariant, and keeps it caught up unless it takes note of a
version too early. -/
theorem Worker.Sound.step (h : w.Sound announced p.indexVersion)
    (hpast : ∀ v ≤ p.indexVersion, (announced v).Past now) (raises : Bool) :
    (w.step p now raises).Sound announced p.indexVersion ∧ (w.CaughtUp announced →
      ((w.step p now raises).CaughtUp announced ↔
        (raises = false → w.NotesFresh announced p.indexVersion))) := by
  have hsound := h.stage
  rw [Worker.step, Worker.NotesFresh]
  cases hstage : w.stage with
  | gettingIndexes reload =>
    rw [hstage] at hsound
    cases reload with
    | none =>
      obtain ⟨hkept, hnone⟩ : (w.getIndexes p now raises none).Sound announced p.indexVersion ∧
        (w.getIndexes p now raises none).lastSeenVersion = none :=
          sound_getIndexes hsound raises hstage
      refine ⟨hkept, fun _ => iff_of_true (fun v hv => ?_) fun _ => trivial⟩
      rw [hnone] at hv
      cases hv
    | some current => exact absurd hsound not_false
  | constructing =>
    rw [hstage] at hsound
    obtain ⟨hnone, hembedder⟩ := hsound
    dsimp only
    split_ifs with hraises
    · exact ⟨⟨h.seen, hnone⟩, fun hcaught => iff_of_true hcaught fun _ => trivial⟩
    · exact ⟨⟨h.seen, hembedder⟩, fun hcaught => iff_of_true hcaught fun _ => trivial⟩
  | polling =>
    dsimp only
    split_ifs with hraises
    · refine ⟨h, fun hcaught => iff_of_true hcaught fun hfalse => ?_⟩
      rw [hfalse] at hraises
      cases hraises
    · obtain ⟨hkept, hcaught⟩ := sound_poll h hstage
      refine ⟨hkept, fun hbefore => (hcaught hbefore).trans ?_⟩
      simp only [Bool.eq_false_of_not_eq_true hraises, forall_const]
  | readingFaiss current =>
    rw [hstage] at hsound
    obtain ⟨hembedder, hle, hseen⟩ := hsound
    refine ⟨⟨h.seen, ?_⟩, fun hcaught => iff_of_true hcaught fun _ => trivial⟩
    dsimp only
    split_ifs with hraises
    · exact hembedder
    · exact ⟨hembedder, hle, hseen, fun v hv => (hpast v (hv.trans hle)).faiss⟩
  | readingBm25 current newFaiss =>
    rw [hstage] at hsound
    obtain ⟨hembedder, hle, hseen, hread⟩ := hsound
    refine ⟨⟨h.seen, ?_⟩, fun hcaught => iff_of_true hcaught fun _ => trivial⟩
    dsimp only
    split_ifs with hraises
    · exact hembedder
    · exact ⟨hembedder, hle, hseen, fun v hv => ⟨hread v hv, (hpast v (hv.trans hle)).bm25⟩⟩
  | swapping current newFaiss newBm25 =>
    rw [hstage] at hsound
    obtain ⟨hembedder, -, -, -⟩ := hsound
    dsimp only
    split_ifs with hraises
    · exact ⟨⟨h.seen, hembedder⟩, fun hcaught => iff_of_true hcaught fun _ => trivial⟩
    · obtain ⟨hkept, hcaught⟩ := sound_swap h hstage
      exact ⟨hkept, fun hbefore => iff_of_true (hcaught hbefore) fun _ => trivial⟩
  | reloading current =>
    rw [hstage] at hsound
    obtain ⟨hembedder, hle, hindex, hcache⟩ := hsound
    dsimp only
    split_ifs with hraises
    · refine ⟨⟨h.seen, hembedder⟩, fun hcaught => iff_of_true hcaught fun hfalse => ?_⟩
      rw [hfalse] at hraises
      cases hraises
    · refine ⟨⟨fun v hv => ?_, hembedder⟩, fun _ => ?_⟩
      · obtain rfl := Option.some.inj hv
        exact hle
      · refine (caughtUp_reloaded_iff hindex hcache).trans ?_
        simp only [Bool.eq_false_of_not_eq_true hraises, forall_const]
  | dead =>
    exact ⟨h, fun hcaught => iff_of_true hcaught fun _ => trivial⟩

end

/-! ### One step of the system -/

/-- What an ingestion has saved, it has saved before. -/
def Ingestion.Past (now : ℕ) : Ingestion → Prop
  | idle => True
  | savedFaiss faissSavedAt => faissSavedAt ≤ now
  | savedBm25 saves | wrotePostgres saves => saves.Past now

section

variable {ι : Type} {s s' : WatchState ι} {l : WatchLabel ι}

/-- The invariant of the system. -/
structure WatchState.Sound (s : WatchState ι) : Prop where
  ingestions : ∀ i, (s.ingestions i).Past s.now
  announced : ∀ v, (s.announced v).Past s.now
  worker : s.worker.Sound s.announced s.published.indexVersion

private theorem Saves.Past.succ {now : ℕ} {saves : Saves} (h : saves.Past now) :
    saves.Past (now + 1) := ⟨h.faiss.trans (Nat.le_succ now), h.bm25.trans (Nat.le_succ now)⟩

private theorem Ingestion.Past.succ {now : ℕ} {ingestion : Ingestion} (h : ingestion.Past now) :
    ingestion.Past (now + 1) := by
  cases ingestion with
  | idle => trivial
  | savedFaiss faissSavedAt => exact Nat.le_succ_of_le h
  | savedBm25 saves | wrotePostgres saves => exact Saves.Past.succ h

/-- **What a request does to a worker** in `_get_cached_bm25`: it assigns the scorer that it has
built, if anything. -/
theorem CacheRequest.step_cases {w w' : Worker} {raises : Bool} {request request' : CacheRequest}
    (h : request.step w raises = some (request', w')) :
    w' = w ∧ (∀ bm25Index, request = .building bm25Index → raises = false →
        bm25Index.content.records.keys = []) ∨
      ∃ bm25Index, request = .building bm25Index ∧ raises = false ∧
        bm25Index.content.records.keys ≠ [] ∧ w' = w.assignCache bm25Index := by
  cases request with
  | idle =>
    simp only [CacheRequest.step, Option.ite_none_right_eq_some, Option.some.injEq,
      Prod.mk.injEq] at h
    exact Or.inl ⟨h.2.2.symm, fun _ hbuilding => nomatch hbuilding⟩
  | foundNone =>
    obtain ⟨bm25Index, -, hindex⟩ := Option.map_eq_some_iff.mp h
    obtain ⟨-, rfl⟩ := Prod.mk.inj hindex
    exact Or.inl ⟨rfl, fun _ hbuilding => nomatch hbuilding⟩
  | building bm25Index =>
    obtain ⟨-, rfl⟩ := Prod.mk.inj (Option.some.inj h)
    split_ifs with hnothing
    · refine Or.inl ⟨rfl, fun bm25Index' hbuilding hreturns => ?_⟩
      obtain rfl := CacheRequest.building.inj hbuilding
      exact hnothing.resolve_left (by simp [hreturns])
    · obtain ⟨hreturns, hkeys⟩ := not_or.mp hnothing
      exact Or.inr ⟨bm25Index, rfl, Bool.eq_false_of_not_eq_true hreturns, hkeys, rfl⟩

/-- The worker is moved by its own steps, and a request may assign its scorer. -/
theorem watchStep_worker [DecidableEq ι] (h : watchStep s l = some s') :
    s'.worker = s.worker ∨ (∃ raises, l = .worker raises ∧
        s'.worker = s.worker.step s.published s.now raises) ∨
      ∃ bm25Index, s'.worker = s.worker.assignCache bm25Index := by
  cases l with
  | worker raises =>
    obtain rfl := Option.some.inj h
    exact Or.inr (Or.inl ⟨raises, rfl, rfl⟩)
  | request r raises =>
    obtain ⟨⟨request, worker⟩, hrequest, rfl⟩ := Option.map_eq_some_iff.mp h
    rcases CacheRequest.step_cases hrequest with ⟨hsame, -⟩ | ⟨bm25Index, -, -, -, hworker⟩
    · exact Or.inl hsame
    · exact Or.inr (Or.inr ⟨bm25Index, hworker⟩)
  | raise i =>
    obtain rfl := Option.some.inj h
    exact Or.inl rfl
  | saveFaiss | saveBm25 | writePostgres | bumpIndexVersion =>
    rw [watchStep] at h
    split at h
    · obtain rfl := Option.some.inj h
      exact Or.inl rfl
    · cases h

/-- Before anything has happened. -/
def WatchState.start (p : Published) : WatchState ι := { published := p }

theorem sound_start (p : Published) : (WatchState.start p : WatchState ι).Sound :=
  ⟨fun _ => trivial, fun _ => ⟨le_rfl, le_rfl⟩, Worker.sound_start⟩

variable [DecidableEq ι]

/-- An ingestion that announces nothing does not concern the worker. -/
private theorem sound_proceed (h : s.Sound) {i : ι} {next : Ingestion} {published : Published}
    (hnext : next.Past (s.now + 1))
    (hversion : published.indexVersion = s.published.indexVersion) :
    (s.proceed i next published).Sound := by
  refine ⟨fun j => ?_, fun v => (h.announced v).succ, ?_⟩
  · rw [WatchState.proceed]
    dsimp only
    rcases eq_or_ne j i with rfl | hne
    · rw [Function.update_self]
      exact hnext
    · rw [Function.update_of_ne hne]
      exact (h.ingestions j).succ
  · rw [WatchState.proceed]
    dsimp only
    rw [hversion]
    exact h.worker

/-- **A version is announced**: what the worker knows of the versions before it stays. -/
private theorem sound_bump (h : s.Sound) {i : ι} {saves : Saves} (hsaves : saves.Past s.now) :
    let version := s.published.indexVersion + 1
    let s' := { s.proceed i .idle { s.published with indexVersion := version } with
      announced := Function.update s.announced version saves }
    s'.Sound ∧ (s'.CaughtUp ↔ s.CaughtUp) := by
  refine ⟨⟨fun j => ?_, fun v => ?_, h.worker.bump⟩, Worker.caughtUp_bump_iff h.worker⟩
  · rw [WatchState.proceed]
    dsimp only
    rcases eq_or_ne j i with rfl | hne
    · rw [Function.update_self]
      trivial
    · rw [Function.update_of_ne hne]
      exact (h.ingestions j).succ
  · dsimp only
    rcases eq_or_ne v (s.published.indexVersion + 1) with rfl | hne
    · rw [Function.update_self]
      exact hsaves.succ
    · rw [Function.update_of_ne hne]
      exact (h.announced v).succ

/-- **A request's step** leaves the worker caught up, unless the scorer that it assigns is older
than the saves. -/
private theorem sound_request (h : s.Sound) {r : ℕ} {raises : Bool}
    (hstep : watchStep s (.request r raises) = some s') :
    s'.Sound ∧ (s.CaughtUp → (s'.CaughtUp ↔ StaysFresh s (.request r raises))) := by
  obtain ⟨⟨request, worker⟩, hrequest, rfl⟩ := Option.map_eq_some_iff.mp hstep
  have hsound : ∀ worker : Worker, worker.Sound s.announced s.published.indexVersion →
      ({ s with now := s.now + 1, worker, requests := Function.update s.requests r request } :
        WatchState ι).Sound :=
    fun _ hworker => ⟨fun i => (h.ingestions i).succ, fun v => (h.announced v).succ, hworker⟩
  rcases CacheRequest.step_cases hrequest with
    ⟨hsame, hnothing⟩ | ⟨bm25Index, hbuilding, hreturns, hkeys, hworker⟩
  · subst hsame
    refine ⟨hsound _ h.worker, fun hcaught => iff_of_true hcaught ?_⟩
    intro hreturns bm25Index v hbuilding hkeys
    exact absurd (hnothing bm25Index hbuilding hreturns) hkeys
  · subst hworker
    refine ⟨hsound _ (h.worker.assignCache bm25Index), fun hcaught => ?_⟩
    refine (Worker.caughtUp_assignCache_iff hcaught).trans ?_
    constructor
    · intro hread _ bm25Index' v hbuilding' _ hseen
      obtain rfl := CacheRequest.building.inj (hbuilding.symm.trans hbuilding')
      exact hread v hseen
    · exact fun hfresh v hseen => hfresh hreturns bm25Index v hbuilding hkeys hseen

/-- **One step** keeps the invariant, and keeps the worker caught up exactly if it stays fresh. -/
theorem WatchState.Sound.step (h : s.Sound) (hstep : watchStep s l = some s') :
    s'.Sound ∧ (s.CaughtUp → (s'.CaughtUp ↔ StaysFresh s l)) := by
  cases l with
  | saveFaiss i store =>
    rw [watchStep] at hstep
    split at hstep
    · obtain rfl := Option.some.inj hstep
      exact ⟨sound_proceed h (Nat.le_succ s.now) rfl, fun hcaught => iff_of_true hcaught trivial⟩
    · cases hstep
  | saveBm25 i corpus =>
    rw [watchStep] at hstep
    split at hstep
    case h_1 faissSavedAt hi =>
      have hpast := h.ingestions i
      rw [hi] at hpast
      obtain rfl := Option.some.inj hstep
      have hnext : Ingestion.Past (s.now + 1) (.savedBm25 ⟨faissSavedAt, s.now⟩) :=
        ⟨Nat.le_succ_of_le hpast, Nat.le_succ s.now⟩
      exact ⟨sound_proceed h hnext rfl, fun hcaught => iff_of_true hcaught trivial⟩
    · cases hstep
  | writePostgres i identities =>
    rw [watchStep] at hstep
    split at hstep
    case h_1 saves hi =>
      have hpast : saves.Past s.now := by
        have hpast := h.ingestions i
        rwa [hi] at hpast
      obtain rfl := Option.some.inj hstep
      have hnext : Ingestion.Past (s.now + 1) (.wrotePostgres saves) := hpast.succ
      exact ⟨sound_proceed h hnext rfl, fun hcaught => iff_of_true hcaught trivial⟩
    · cases hstep
  | bumpIndexVersion i =>
    rw [watchStep] at hstep
    split at hstep
    case h_1 saves hi =>
      have hpast : saves.Past s.now := by
        have hpast := h.ingestions i
        rwa [hi] at hpast
      obtain rfl := Option.some.inj hstep
      obtain ⟨hsound, hcaught⟩ := sound_bump h (i := i) hpast
      exact ⟨hsound, fun hbefore => iff_of_true (hcaught.mpr hbefore) trivial⟩
    · cases hstep
  | raise i =>
    obtain rfl := Option.some.inj hstep
    exact ⟨sound_proceed h trivial rfl, fun hcaught => iff_of_true hcaught trivial⟩
  | worker raises =>
    obtain rfl := Option.some.inj hstep
    obtain ⟨hworker, hcaught⟩ := h.worker.step (fun v _ => h.announced v) raises
    exact ⟨⟨fun i => (h.ingestions i).succ, fun v => (h.announced v).succ, hworker⟩, hcaught⟩
  | request r raises => exact sound_request h hstep

/-! ### Runs -/

theorem sound_of_exec {p : Published} {labels : List (WatchLabel ι)}
    (hrun : exec watchStep (.start p) labels = some s) : s.Sound :=
  (reach_of_exec hrun).invariant (sound_start p) fun _ _ _ h _ hstep => (h.step hstep).1

/-- **A caught-up worker is fresh.** Throughout a run of a worker among any number of ingesting
processes and of requests, the indexes and the scorer that the worker serves were read no earlier
than the saves of the version that it has seen, if and only if the first poll that gets through
finds a version that had been saved before the import read its files, and no request assigns a
scorer of a corpus read before the saves of the version that the worker has seen or is reloading. -/
theorem caughtUp_iff (p : Published) (labels : List (WatchLabel ι)) :
    (∀ before after s, labels = before ++ after →
      exec watchStep (.start p) before = some s → s.CaughtUp) ↔
    ∀ before l after s s', labels = before ++ l :: after →
      exec watchStep (.start p) before = some s → watchStep s l = some s' → StaysFresh s l := by
  have hstart : (WatchState.start p : WatchState ι).CaughtUp := fun _ hseen => nomatch hseen
  refine forall_exec_iff hstart ?_
  intro before l after s s' _ hrun hstep hcaught
  exact ((sound_of_exec hrun).step hstep).2 hcaught

end

/-! ### An ingestion before the first poll -/

/-- A chunk and what FAISS keeps of it. -/
def watchedChunk (chunkId rawChunkText : String) : ChunkRecord where
  chunkId := chunkId
  documentId := "A"
  chunkIndex := 0
  rawChunkText := rawChunkText
  embeddingText := rawChunkText
  contentHash := rawChunkText

/-- What FAISS keeps of a chunk. -/
def watchedEntry (chunk : ChunkRecord) : FaissEntry where
  id := chunk.chunkId
  text := chunk.embeddingText
  metadata :=
    { chunkId := chunk.chunkId, documentId := chunk.documentId, documentTitle := "Alpha"
      companyName := "", counterpartyName := "", contractType := "", identitySource := ""
      identityConfidence := "", selfDeclaredHint := "", rawTitle := "Alpha"
      chunkIndexInDoc := chunk.chunkIndex, isPreamble := chunk.isPreamble
      rawChunkText := chunk.rawChunkText }

/-- The ingestion of one chunk into empty indexes. -/
def ingestChunk (chunk : ChunkRecord) : List (WatchLabel ℕ) :=
  [.saveFaiss 0 [watchedEntry chunk], .saveBm25 0 (.ofChunks [chunk]), .writePostgres 0 .empty,
   .bumpIndexVersion 0]

/-- A worker is imported, a chunk is ingested, and the worker polls for the first time. -/
def ingestedMeanwhile : List (WatchLabel ℕ) :=
  List.replicate 5 (.worker false) ++ ingestChunk (watchedChunk "A::1" "one") ++ [.worker false]

/-- **Stale from the start**: the first poll takes note of a version whose ingestion came too late
for the import, and the worker does not reload until the next one. -/
theorem stale_from_the_start :
    ¬∀ (p : Published) (labels : List (WatchLabel ℕ)) (s : WatchState ℕ),
      exec watchStep (.start p) labels = some s → s.CaughtUp := by
  intro h
  have hrun : (exec watchStep (.start {}) ingestedMeanwhile).map (fun s =>
      (s.worker.lastSeenVersion, s.worker.bm25Index.map (·.readAt), s.announced 1)) =
        some (some 1, some 2, ⟨5, 6⟩) := by decide +kernel
  obtain ⟨s, hs, heq⟩ := Option.map_eq_some_iff.mp hrun
  obtain ⟨hseen, hread, hannounced⟩ : s.worker.lastSeenVersion = some 1 ∧
      s.worker.bm25Index.map (·.readAt) = some 2 ∧ s.announced 1 = ⟨5, 6⟩ := by
    simpa only [Prod.mk.injEq] using heq
  obtain ⟨⟨-, copy, hcopy, hle⟩, -⟩ := h {} ingestedMeanwhile s hs 1 hseen
  rw [hcopy, Option.map_some, Option.some.injEq] at hread
  rw [hannounced, hread] at hle
  exact absurd hle (by decide)

/-! ### A request during a reload -/

/-- A request finds no scorer and takes the corpus; another chunk is ingested, the worker reloads,
and only then the request assigns the scorer that it has built. -/
def rankedMeanwhile : List (WatchLabel ℕ) :=
  ingestChunk (watchedChunk "A::1" "one") ++ List.replicate 6 (.worker false) ++
    List.replicate 2 (.request 0 false) ++ ingestChunk (watchedChunk "A::2" "two") ++
    List.replicate 5 (.worker false) ++ [.request 0 false]

/-- **Stale after the swap**: the indexes are those of the version that the worker has seen, and the
scorer is not. -/
theorem stale_after_the_swap : ∃ s : WatchState ℕ,
    exec watchStep (.start {}) rankedMeanwhile = some s ∧ s.worker.lastSeenVersion = some 2 ∧
      s.worker.IndexSince (s.announced 2) ∧ ¬s.worker.CacheSince (s.announced 2) := by
  have hrun : (exec watchStep (.start {}) rankedMeanwhile).map (fun s =>
      (s.worker.lastSeenVersion, s.worker.faissIndex.map (·.readAt),
        s.worker.bm25Index.map (·.readAt), s.worker.bm25Cache.map (·.readAt), s.announced 2)) =
      some (some 2, some 17, some 18, some 6, ⟨12, 13⟩) := by decide +kernel
  obtain ⟨s, hs, heq⟩ := Option.map_eq_some_iff.mp hrun
  simp only [Prod.mk.injEq, Option.map_eq_some_iff] at heq
  obtain ⟨hseen, ⟨faissIndex, hfaiss, hfaissRead⟩, ⟨bm25Index, hbm25, hbm25Read⟩,
    ⟨cache, hcache, hcacheRead⟩, hannounced⟩ := heq
  refine ⟨s, hs, hseen, ⟨⟨faissIndex, hfaiss, ?_⟩, ⟨bm25Index, hbm25, ?_⟩⟩, fun hsince => ?_⟩
  · rw [hannounced, hfaissRead]
    decide
  · rw [hannounced, hbm25Read]
    decide
  · have hread := hsince cache hcache
    rw [hannounced, hcacheRead] at hread
    exact absurd hread (by decide)

end AuditFlow
