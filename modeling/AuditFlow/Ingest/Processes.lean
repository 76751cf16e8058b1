import AuditFlow.Foundation.Transition
import AuditFlow.Ingest.Agreement
import Mathlib.Tactic.IntervalCases

/-!
# Ingesting processes

Several processes ingest into the same index directory and the same database. Each has an
`IngestionService` of its own, which loads FAISS and the BM25 corpus from disk when it is
constructed, and from then on changes its copies and saves them **as a whole**; Postgres is changed
row by row. The processes are interleaved operation by operation.

A save keeps what the process has in memory, so that it loses what others have saved since the
process loaded its copy. `stored_on_disk` says when nothing is lost: as long as every save keeps the
ids that are stored in Postgres, except for those that the call deletes, and those that another
running call is still to insert there. `document_lost` is two processes that were started together:
the second save overwrites the first, and Postgres still has both documents.
-/

namespace AuditFlow

open Foundation

/-! ### The files -/

/-- What an instance keeps a copy of. -/
inductive IndexFile
  | faiss
  | bm25
  deriving DecidableEq, Repr

/-- So many writes of a call have been done when its new chunks are in memory. -/
def IndexFile.added : IndexFile → ℕ
  | .faiss => 2
  | .bm25 => 5

/-- So many writes of a call have been done when the file is saved. -/
def IndexFile.saved : IndexFile → ℕ
  | .faiss => 3
  | .bm25 => 6

namespace Stores

/-- The ids in a file. -/
def onDisk (s : Stores) : IndexFile → List String
  | .faiss => (s.faissDisk.getD []).map (·.id)
  | .bm25 => (s.bm25Disk.getD .empty).keys

/-- The ids in the copy in memory. -/
def inMemory (s : Stores) : IndexFile → List String
  | .faiss => s.faissEntries.map (·.id)
  | .bm25 => s.bm25.keys

variable {s : Stores} {f : IndexFile} {record : DocumentRecord} {diff : DocumentDiff}
  {effect : Stores → Stores} {n : ℕ} {k : String}

private theorem onDisk_addedToFaiss (toAdd : List ChunkRecord) :
    (addedToFaiss record toAdd s).onDisk f = s.onDisk f := by
  rw [addedToFaiss_eq]
  cases f <;> rfl

/-- A write changes a file only if it saves it. -/
private theorem onDisk_effect (heffect : (writeEffects record diff)[n]? = some effect) :
    (effect s).onDisk f = if n + 1 = f.saved then s.inMemory f else s.onDisk f := by
  have hn : n < 9 := (List.getElem?_eq_some_iff.mp heffect).1
  rcases eq_or_ne n 1 with rfl | hne
  · obtain rfl := Option.some.inj heffect
    rw [onDisk_addedToFaiss]
    cases f <;> rfl
  · interval_cases n <;> first
      | exact absurd rfl hne
      | obtain rfl := Option.some.inj heffect
        cases f <;> rfl

/-- The new chunks are in memory when they have been added. -/
private theorem mem_inMemory_effect (heffect : (writeEffects record diff)[n]? = some effect)
    (hn : n + 1 = f.added) (hk : k ∈ diff.toAdd.map (·.chunkId)) : k ∈ (effect s).inMemory f := by
  cases f with
  | faiss =>
    obtain rfl : n = 1 := Nat.succ.inj hn
    obtain rfl := Option.some.inj heffect
    have hne : diff.toAdd ≠ [] := by
      rintro hnil
      rw [hnil] at hk
      exact List.not_mem_nil hk
    rw [addedToFaiss, if_neg hne, inMemory, faissEntries_withFaiss, List.map_append,
      List.mem_append]
    -- an entry that is skipped is there already
    refine or_iff_not_imp_left.mpr fun hnew => ?_
    obtain ⟨chunk, hchunk, rfl⟩ := List.mem_map.mp hk
    have hentry : faissEntryOf record chunk ∈ diff.toAdd.map (faissEntryOf record) :=
      List.mem_map_of_mem hchunk
    exact List.mem_map_of_mem (List.mem_filter.mpr ⟨hentry, decide_eq_true hnew⟩)
  | bm25 =>
    obtain rfl : n = 4 := Nat.succ.inj hn
    obtain rfl := Option.some.inj heffect
    exact Dict.mem_keys_setAll.mpr (Or.inr hk)

/-- From then on the copy does not change. -/
private theorem inMemory_effect (heffect : (writeEffects record diff)[n]? = some effect)
    (hn : f.added ≤ n) : (effect s).inMemory f = s.inMemory f := by
  have hlt : n < 9 := (List.getElem?_eq_some_iff.mp heffect).1
  have htwo : 2 ≤ n := by
    refine le_trans ?_ hn
    cases f <;> decide
  cases f with
  | faiss =>
    interval_cases n <;>
      obtain rfl := Option.some.inj heffect <;> rfl
  | bm25 =>
    have hfive : 5 ≤ n := hn
    interval_cases n <;>
      obtain rfl := Option.some.inj heffect <;> rfl

private theorem mem_keys_foldl_insertChunk {rows : Dict String ChunkRecord}
    {chunks : List ChunkRecord} (hk : k ∈ (chunks.foldl insertChunk rows).keys) :
    k ∈ rows.keys ∨ k ∈ chunks.map (·.chunkId) := by
  induction chunks generalizing rows with
  | nil => exact Or.inl hk
  | cons chunk chunks ih =>
    rw [List.map_cons, List.mem_cons]
    rcases ih hk with hmem | hmem
    · rw [insertChunk] at hmem
      split_ifs at hmem with hthere
      · exact Or.inl hmem
      · rw [Dict.keys_set] at hmem
        split_ifs at hmem with hin
        · exact Or.inl hmem
        · rw [List.mem_append, List.mem_singleton] at hmem
          exact hmem.imp_right Or.inl
    · exact Or.inr (Or.inr hmem)

/-- A chunk row is there before a write, and not deleted by it, or it is inserted by it. -/
private theorem mem_keys_chunks_effect (heffect : (writeEffects record diff)[n]? = some effect)
    (hk : k ∈ (effect s).chunks.keys) :
    k ∈ s.chunks.keys ∧ (n = 7 → k ∉ diff.toDelete) ∨
      n = 8 ∧ k ∈ diff.toAdd.map (·.chunkId) := by
  have hn : n < 9 := (List.getElem?_eq_some_iff.mp heffect).1
  rcases eq_or_ne n 7 with rfl | hseven
  · obtain rfl := Option.some.inj heffect
    obtain ⟨chunk, hget⟩ := Dict.mem_keys_iff.mp hk
    rw [withoutChunks, Dict.get?_eraseAll] at hget
    split_ifs at hget with hdeleted
    exact Or.inl ⟨Dict.mem_keys_iff.mpr ⟨chunk, hget⟩, fun _ => hdeleted⟩
  · rcases eq_or_ne n 8 with rfl | height
    · obtain rfl := Option.some.inj heffect
      rcases mem_keys_foldl_insertChunk hk with hold | hnew
      · exact Or.inl ⟨hold, fun h => absurd h hseven⟩
      · exact Or.inr ⟨rfl, hnew⟩
    · have hsame : (effect s).chunks = s.chunks := by
        rcases eq_or_ne n 1 with rfl | hne
        · obtain rfl := Option.some.inj heffect
          exact addedToFaiss_chunks diff.toAdd
        · interval_cases n <;> first
            | contradiction
            | obtain rfl := Option.some.inj heffect
              rfl
      rw [hsame] at hk
      exact Or.inl ⟨hk, fun h => absurd h hseven⟩

end Stores

/-! ### The processes -/

/-- The copies of an instance. -/
structure ServiceMemory where
  faiss : Option (List FaissEntry) := none
  bm25 : Dict String ChunkRecord := .empty

/-- Where an instance stands. -/
inductive ServiceStage
  | unstarted
  /-- The constructor has read FAISS. -/
  | loadedFaiss
  | idle
  /-- The contract is new, and its stored chunk ids are read next. -/
  | diffing (record : DocumentRecord)
  /-- So many of the writes are done. -/
  | writing (record : DocumentRecord) (diff : DocumentDiff) (done : ℕ)

/-- What the processes share, and what each of them has for itself. -/
structure Processes (ι : Type) where
  faissDisk : Option (List FaissEntry) := none
  bm25Disk : Option (Dict String ChunkRecord) := none
  documents : Dict String DocumentRecord := .empty
  chunks : Dict String ChunkRecord := .empty
  indexVersion : ℕ := 0
  memory : ι → ServiceMemory := fun _ => {}
  stage : ι → ServiceStage := fun _ => .unstarted

/-- What happens next. -/
inductive ProcessLabel (ι : Type)
  /-- An instance is constructed. -/
  | construct (i : ι)
  /-- `insert_or_update_document` is called, and looks the document up. -/
  | call (i : ι) (contract : Contract) (identity : Option DocumentIdentity)
  /-- The call goes on. -/
  | proceed (i : ι)

section

variable {ι : Type} [DecidableEq ι]

namespace Processes

/-- The stores as an instance sees them. -/
def stores (s : Processes ι) (i : ι) : Stores where
  faiss := (s.memory i).faiss
  faissDisk := s.faissDisk
  bm25 := (s.memory i).bm25
  bm25Disk := s.bm25Disk
  documents := s.documents
  chunks := s.chunks
  indexVersion := s.indexVersion

/-- An instance has left the stores behind, and has come to a stage. -/
def leave (s : Processes ι) (i : ι) (after : Stores) (stage : ServiceStage) : Processes ι where
  faissDisk := after.faissDisk
  bm25Disk := after.bm25Disk
  documents := after.documents
  chunks := after.chunks
  indexVersion := after.indexVersion
  memory := Function.update s.memory i ⟨after.faiss, after.bm25⟩
  stage := Function.update s.stage i stage

/-- An operation of a call, which goes on at `next`; a call that raises is over. -/
def perform {α : Type} (s : Processes ι) (i : ι) (op : Exc PyError Stores α)
    (next : α → ServiceStage) : Processes ι :=
  match op (s.stores i) with
  | (.ok a, after) => s.leave i after (next a)
  | (.error _, after) => s.leave i after .idle

/-- The constructors: FAISS is loaded first. -/
def construct (s : Processes ι) (i : ι) : Option (Processes ι) :=
  match s.stage i with
  | .unstarted => some (s.leave i { s.stores i with faiss := s.faissDisk } .loadedFaiss)
  | .loadedFaiss => some (s.leave i { s.stores i with bm25 := s.bm25Disk.getD .empty } .idle)
  | _ => none

end Processes

variable (env : IngestEnv)

/-- The beginning of `insert_or_update_document`: a contract without context raises, one that is
stored already is a no-op. -/
def beginCall (s : Processes ι) (i : ι) (contract : Contract)
    (identity : Option DocumentIdentity) : Option (Processes ι) :=
  match s.stage i with
  | .idle => some <| match recordOf env contract identity with
    | some record => s.perform i (getDocument Faults.none record.documentId) fun existing =>
      if existing.any fun row => row.contentHash = record.contentHash then .idle
      else .diffing record
    -- no context to chunk
    | none => s.leave i (s.stores i) .idle
  | _ => none

/-- The next operation of a call: the ids are read, then come the writes, and at last the bump. -/
def continueCall (s : Processes ι) (i : ι) : Option (Processes ι) :=
  match s.stage i with
  | .diffing record => some <| s.perform i (getChunkIdsForDocument Faults.none record.documentId)
      fun oldChunkIds => .writing record (documentDiff env record oldChunkIds) 0
  | .writing record diff done => some <|
    match (writeDocument env Faults.none record diff)[done]? with
    | some write => s.perform i write fun _ => .writing record diff (done + 1)
    | none => s.perform i (bumpIndexVersion Faults.none) fun _ => .idle
  | _ => none

/-- One step. -/
def processStep (s : Processes ι) : ProcessLabel ι → Option (Processes ι)
  | .construct i => s.construct i
  | .call i contract identity => beginCall env s i contract identity
  | .proceed i => continueCall env s i

/-! ### What a call still owes -/

namespace ServiceStage

/-- The file is saved without `k`, and the row of `k` is still to be deleted. -/
def StillDeletes (f : IndexFile) (k : String) : ServiceStage → Prop
  | .writing _ diff done => f.saved ≤ done ∧ done ≤ 7 ∧ k ∈ diff.toDelete
  | _ => False

/-- The file is saved with `k`, and the row of `k` is still to be inserted. -/
def StillInserts (f : IndexFile) (k : String) : ServiceStage → Prop
  | .writing _ diff done => f.saved ≤ done ∧ done ≤ 8 ∧ k ∈ diff.toAdd.map (·.chunkId)
  | _ => False

/-- What has been added is in memory when the file is about to be saved. -/
def HoldsAdded (f : IndexFile) (ids : List String) : ServiceStage → Prop
  | .writing _ diff done =>
    f.added ≤ done → done < f.saved → ∀ k ∈ diff.toAdd.map (·.chunkId), k ∈ ids
  | _ => True

/-- No write is done. -/
def NothingDone : ServiceStage → Prop
  | .writing _ _ done => done = 0
  | _ => True

/-- No file is saved whose deletions are still to reach the rows. -/
def Settled : ServiceStage → Prop
  | .writing _ _ done => done ≤ 2 ∨ 8 ≤ done
  | _ => True

variable {stage : ServiceStage} {f : IndexFile} {k : String} {ids : List String}

private theorem Settled.not_stillDeletes (h : stage.Settled) : ¬stage.StillDeletes f k := by
  intro hdeletes
  cases stage with
  | writing record diff done =>
    obtain ⟨hsaved, hseven, -⟩ := hdeletes
    have hthree : 3 ≤ f.saved := by cases f <;> decide
    rcases h with hle | hge
    · omega
    · omega
  | _ => exact hdeletes

private theorem NothingDone.not_stillInserts (h : stage.NothingDone) :
    ¬stage.StillInserts f k := by
  intro hinserts
  cases stage with
  | writing record diff done =>
    have hthree : 3 ≤ f.saved := by cases f <;> decide
    have hzero : done = 0 := h
    have hsaved : f.saved ≤ done := hinserts.1
    omega
  | _ => exact hinserts

private theorem NothingDone.holdsAdded (h : stage.NothingDone) : stage.HoldsAdded f ids := by
  cases stage with
  | writing record diff done =>
    intro hadded
    have htwo : 2 ≤ f.added := by cases f <;> decide
    have hzero : done = 0 := h
    omega
  | _ => exact trivial

end ServiceStage

namespace Processes

/-- The ids in a file. -/
def onDisk (s : Processes ι) : IndexFile → List String
  | .faiss => (s.faissDisk.getD []).map (·.id)
  | .bm25 => (s.bm25Disk.getD .empty).keys

/-- At a save, the copy that is saved has each id of the file that is stored in Postgres and not
deleted by the call, or that another running call is still to insert. -/
def Keeps (s : Processes ι) (i : ι) : ServiceStage → Prop
  | .writing _ diff done => ∀ f : IndexFile, done + 1 = f.saved → ∀ k ∈ s.onDisk f,
      k ∈ s.chunks.keys ∧ k ∉ diff.toDelete ∨ (∃ j, j ≠ i ∧ (s.stage j).StillInserts f k) →
        k ∈ (s.stores i).inMemory f
  | _ => True

/-- Every chunk row is in the file, except for what a running call still deletes. -/
structure Accounted (s : Processes ι) (f : IndexFile) : Prop where
  rows : ∀ k ∈ s.chunks.keys, k ∈ s.onDisk f ∨ ∃ i, (s.stage i).StillDeletes f k
  inserts : ∀ i k, (s.stage i).StillInserts f k → k ∈ s.onDisk f
  memory : ∀ i, (s.stage i).HoldsAdded f ((s.stores i).inMemory f)

variable {s : Processes ι} {i j : ι} {after : Stores} {stage : ServiceStage} {f : IndexFile}
  {k : String}

omit [DecidableEq ι] in
theorem onDisk_stores (s : Processes ι) (i : ι) (f : IndexFile) :
    (s.stores i).onDisk f = s.onDisk f := by
  cases f with
  | faiss => rfl
  | bm25 => rfl

@[simp] theorem onDisk_leave : (s.leave i after stage).onDisk f = after.onDisk f := by
  cases f with
  | faiss => rfl
  | bm25 => rfl

@[simp] theorem stage_leave_self : (s.leave i after stage).stage i = stage :=
  Function.update_self ..

theorem stage_leave_of_ne (h : j ≠ i) : (s.leave i after stage).stage j = s.stage j :=
  Function.update_of_ne h ..

@[simp] theorem inMemory_leave_self :
    ((s.leave i after stage).stores i).inMemory f = after.inMemory f := by
  cases f with
  | faiss => simp [Stores.inMemory, Stores.faissEntries, stores, leave]
  | bm25 => simp [Stores.inMemory, stores, leave]

theorem inMemory_leave_of_ne (h : j ≠ i) :
    ((s.leave i after stage).stores j).inMemory f = (s.stores j).inMemory f := by
  have hmemory : (s.leave i after stage).memory j = s.memory j := Function.update_of_ne h ..
  cases f with
  | faiss => rw [Stores.inMemory, Stores.faissEntries, stores, hmemory]; rfl
  | bm25 => rw [Stores.inMemory, stores, hmemory]; rfl

/-- A step that writes neither to the files nor to the chunk rows. -/
private theorem Accounted.leave (h : s.Accounted f) (hdisk : after.onDisk f = s.onDisk f)
    (hchunks : after.chunks = s.chunks) (hbefore : (s.stage i).Settled)
    (hafter : stage.NothingDone) : (s.leave i after stage).Accounted f where
  rows k hk := by
    have hrow : k ∈ s.chunks.keys := hchunks ▸ hk
    rw [onDisk_leave, hdisk]
    refine (h.rows k hrow).imp_right fun ⟨j, hj⟩ => ⟨j, ?_⟩
    have hne : j ≠ i := by
      rintro rfl
      exact hbefore.not_stillDeletes hj
    rwa [stage_leave_of_ne hne]
  inserts j k hj := by
    rw [onDisk_leave, hdisk]
    rcases eq_or_ne j i with rfl | hne
    · rw [stage_leave_self] at hj
      exact absurd hj hafter.not_stillInserts
    · rw [stage_leave_of_ne hne] at hj
      exact h.inserts j k hj
  memory j := by
    rcases eq_or_ne j i with rfl | hne
    · rw [stage_leave_self]
      exact hafter.holdsAdded
    · rw [stage_leave_of_ne hne, inMemory_leave_of_ne hne]
      exact h.memory j

section

variable {record : DocumentRecord} {diff : DocumentDiff} {n : ℕ} {effect : Stores → Stores}

private theorem onDisk_write (heffect : (writeEffects record diff)[n]? = some effect) :
    (s.leave i (effect (s.stores i)) stage).onDisk f =
      if n + 1 = f.saved then (s.stores i).inMemory f else s.onDisk f := by
  rw [onDisk_leave, Stores.onDisk_effect heffect, onDisk_stores]

omit [DecidableEq ι] in
/-- What is added stays in memory up to the save. -/
private theorem Accounted.memory_write (h : s.Accounted f)
    (hstage : s.stage i = .writing record diff n)
    (heffect : (writeEffects record diff)[n]? = some effect) :
    (ServiceStage.writing record diff (n + 1)).HoldsAdded f
      ((effect (s.stores i)).inMemory f) := by
  intro hadded hsaved k hnew
  rcases eq_or_ne (n + 1) f.added with heq | hlater
  · exact Stores.mem_inMemory_effect heffect heq hnew
  · rw [Stores.inMemory_effect heffect (by omega)]
    have hmemory := h.memory i
    rw [hstage] at hmemory
    exact hmemory (by omega) (by omega) k hnew

omit [DecidableEq ι] in
/-- A save of the copy has what the call is going to insert. -/
private theorem Accounted.inserts_write (h : s.Accounted f)
    (hstage : s.stage i = .writing record diff n)
    (hinserts : (ServiceStage.writing record diff (n + 1)).StillInserts f k) :
    k ∈ if n + 1 = f.saved then (s.stores i).inMemory f else s.onDisk f := by
  obtain ⟨hsaved, height, hnew⟩ := hinserts
  split_ifs with hsave
  · have hadded : f.added < f.saved := by cases f <;> decide
    have hmemory := h.memory i
    rw [hstage] at hmemory
    exact hmemory (by omega) (by omega) k hnew
  · refine h.inserts i k ?_
    rw [hstage]
    exact ⟨by omega, by omega, hnew⟩

omit [DecidableEq ι] in
/-- Rows that were accounted for before a write of a call are so afterwards. -/
private theorem Accounted.rows_write (h : s.Accounted f)
    (hstage : s.stage i = .writing record diff n)
    (heffect : (writeEffects record diff)[n]? = some effect)
    (hkeeps : n + 1 = f.saved → ∀ k ∈ s.onDisk f, k ∈ s.chunks.keys → k ∉ diff.toDelete →
      k ∈ (s.stores i).inMemory f) {k : String} (hk : k ∈ (effect (s.stores i)).chunks.keys) :
    (k ∈ if n + 1 = f.saved then (s.stores i).inMemory f else s.onDisk f) ∨
      (ServiceStage.writing record diff (n + 1)).StillDeletes f k ∨
        ∃ j ≠ i, (s.stage j).StillDeletes f k := by
  have hsix : f.saved ≤ 6 := by cases f <;> decide
  rcases Stores.mem_keys_chunks_effect heffect hk with ⟨hrow, hkept⟩ | ⟨rfl, hnew⟩
  · rcases h.rows k hrow with hold | ⟨j, hj⟩
    · split_ifs with hsave
      · -- what the save loses is what the call deletes
        by_cases hdelete : k ∈ diff.toDelete
        · exact Or.inr (Or.inl ⟨hsave.ge, by omega, hdelete⟩)
        · exact Or.inl (hkeeps hsave k hold hrow hdelete)
      · exact Or.inl hold
    · rcases eq_or_ne j i with rfl | hne
      · rw [hstage] at hj
        obtain ⟨hsaved, hseven, hdelete⟩ := hj
        have hn : n ≠ 7 := fun hn => hkept hn hdelete
        exact Or.inr (Or.inl ⟨by omega, by omega, hdelete⟩)
      · exact Or.inr (Or.inr ⟨j, hne, hj⟩)
  · -- the file has had the chunk since it was saved
    rw [if_neg (by omega)]
    refine Or.inl (h.inserts i k ?_)
    rw [hstage]
    exact ⟨by omega, le_refl 8, hnew⟩

/-- A write of a call, if a save keeps what it has to. -/
private theorem Accounted.write (h : s.Accounted f) (hstage : s.stage i = .writing record diff n)
    (heffect : (writeEffects record diff)[n]? = some effect)
    (hkeeps : n + 1 = f.saved → ∀ k ∈ s.onDisk f,
      k ∈ s.chunks.keys ∧ k ∉ diff.toDelete ∨ (∃ j, j ≠ i ∧ (s.stage j).StillInserts f k) →
        k ∈ (s.stores i).inMemory f) :
    (s.leave i (effect (s.stores i)) (.writing record diff (n + 1))).Accounted f where
  rows k hk := by
    have hrows := h.rows_write hstage heffect
      (fun hsave k hold hrow hdelete => hkeeps hsave k hold (Or.inl ⟨hrow, hdelete⟩)) hk
    rw [onDisk_write heffect]
    rcases hrows with hfile | hown | ⟨j, hne, hother⟩
    · exact Or.inl hfile
    · refine Or.inr ⟨i, ?_⟩
      rwa [stage_leave_self]
    · refine Or.inr ⟨j, ?_⟩
      rwa [stage_leave_of_ne hne]
  inserts j k hj := by
    rw [onDisk_write heffect]
    rcases eq_or_ne j i with rfl | hne
    · rw [stage_leave_self] at hj
      exact h.inserts_write hstage hj
    · rw [stage_leave_of_ne hne] at hj
      have hold : k ∈ s.onDisk f := h.inserts j k hj
      split_ifs with hsave
      · exact hkeeps hsave k hold (Or.inr ⟨j, hne, hj⟩)
      · exact hold
  memory j := by
    rcases eq_or_ne j i with rfl | hne
    · rw [stage_leave_self, inMemory_leave_self]
      exact h.memory_write hstage heffect
    · rw [stage_leave_of_ne hne, inMemory_leave_of_ne hne]
      exact h.memory j

end

end Processes

/-! ### Steps -/

variable {env} {s s' : Processes ι}

/-- From the first save on, nothing raises before the rows are inserted. -/
private theorem writes_of_unsettled {record : DocumentRecord} {diff : DocumentDiff} {n : ℕ}
    {write : Exc PyError Stores Unit} (hwrite : (writeDocument env Faults.none record diff)[n]? =
      some write) (hlow : 2 < n) (hhigh : n < 8) (stores : Stores) :
    (write stores).1 = .ok () := by
  interval_cases n
  · obtain rfl := Option.some.inj hwrite
    rfl
  · obtain rfl := Option.some.inj hwrite
    rfl
  · obtain rfl := Option.some.inj hwrite
    rfl
  · obtain rfl := Option.some.inj hwrite
    rfl
  · obtain rfl := Option.some.inj hwrite
    exact deleteChunks_ok_iff.mpr (Or.inr rfl)

private theorem exists_effect {record : DocumentRecord} {diff : DocumentDiff} {n : ℕ}
    {write : Exc PyError Stores Unit}
    (hwrite : (writeDocument env Faults.none record diff)[n]? = some write) :
    ∃ effect, (writeEffects record diff)[n]? = some effect ∧ Exc.Atomic write effect := by
  obtain ⟨hn, rfl⟩ := List.getElem?_eq_some_iff.mp hwrite
  have hn' : n < (writeEffects record diff).length := hn
  exact ⟨(writeEffects record diff)[n], List.getElem?_eq_getElem hn',
    atomic_writeDocument.get hn hn'⟩

/-- What a step does: it leaves files and chunk rows alone, or it is a write of a call. -/
private theorem processStep_cases {l : ProcessLabel ι} (h : processStep env s l = some s') :
    (∃ i after stage, s' = s.leave i after stage ∧ (∀ f, after.onDisk f = s.onDisk f) ∧
        after.chunks = s.chunks ∧ (s.stage i).Settled ∧ stage.NothingDone) ∨
      ∃ i record diff n effect, l = .proceed i ∧ s.stage i = .writing record diff n ∧
        (writeEffects record diff)[n]? = some effect ∧
        s' = s.leave i (effect (s.stores i)) (.writing record diff (n + 1)) := by
  cases l with
  | construct i =>
    refine Or.inl ?_
    rw [processStep, Processes.construct] at h
    split at h
    case h_1 hstage =>
      obtain rfl := Option.some.inj h
      exact ⟨i, _, _, rfl, Processes.onDisk_stores s i, rfl, by rw [hstage]; trivial, trivial⟩
    case h_2 hstage =>
      obtain rfl := Option.some.inj h
      exact ⟨i, _, _, rfl, Processes.onDisk_stores s i, rfl, by rw [hstage]; trivial, trivial⟩
    case h_3 => cases h
  | call i contract identity =>
    refine Or.inl ?_
    rw [processStep, beginCall] at h
    split at h
    case h_1 hstage =>
      obtain rfl := Option.some.inj h
      have hsettled : (s.stage i).Settled := by rw [hstage]; trivial
      split
      case h_1 record _ =>
        refine ⟨i, s.stores i, _, rfl, Processes.onDisk_stores s i, rfl, hsettled, ?_⟩
        dsimp only
        split_ifs <;> trivial
      case h_2 =>
        exact ⟨i, _, _, rfl, Processes.onDisk_stores s i, rfl, hsettled, trivial⟩
    case h_2 => cases h
  | proceed i =>
    rw [processStep, continueCall] at h
    split at h
    case h_1 record hstage =>
      obtain rfl := Option.some.inj h
      exact Or.inl ⟨i, _, _, rfl, Processes.onDisk_stores s i, rfl, by rw [hstage]; trivial, rfl⟩
    case h_2 record diff n hstage =>
      obtain rfl := Option.some.inj h
      split
      case h_1 write hwrite =>
        obtain ⟨effect, heffect, hatomic⟩ := exists_effect hwrite
        rw [Processes.perform]
        rcases hatomic (s.stores i) with hok | ⟨e, herror⟩
        · rw [hok]
          exact Or.inr ⟨i, record, diff, n, effect, rfl, hstage, heffect, rfl⟩
        · rw [herror]
          refine Or.inl ⟨i, _, _, rfl, Processes.onDisk_stores s i, rfl, ?_, trivial⟩
          rw [hstage]
          -- a call that raises has not come to the rows, or it has deleted its own
          by_contra hnot
          obtain ⟨hlow, hhigh⟩ := not_or.mp hnot
          have hok := writes_of_unsettled hwrite (by omega) (by omega) (s.stores i)
          rw [herror] at hok
          cases hok
      case h_2 hnone =>
        have hn : 9 ≤ n := List.getElem?_eq_none_iff.mp hnone
        exact Or.inl ⟨i, _, _, rfl, Processes.onDisk_stores s i, rfl,
          by rw [hstage]; exact Or.inr (by omega), trivial⟩
    case h_3 => cases h

/-- The step saves nothing, or a copy that keeps what it has to. -/
def KeepsSaved (s : Processes ι) : ProcessLabel ι → Prop
  | .proceed i => s.Keeps i (s.stage i)
  | _ => True

/-- No step loses a chunk row. -/
theorem accounted_step {l : ProcessLabel ι} {f : IndexFile} (h : s.Accounted f)
    (hkeeps : KeepsSaved s l) (hstep : processStep env s l = some s') : s'.Accounted f := by
  rcases processStep_cases hstep with ⟨i, after, stage, rfl, hdisk, hchunks, hbefore, hafter⟩ |
    ⟨i, record, diff, n, effect, rfl, hstage, heffect, rfl⟩
  · exact h.leave (hdisk f) hchunks hbefore hafter
  · have hguard : s.Keeps i (s.stage i) := hkeeps
    rw [hstage] at hguard
    exact h.write hstage heffect (hguard f)

/-! ### Runs -/

/-- Each document that has a row has its chunk rows in both files. -/
def Processes.DocumentsOnDisk (s : Processes ι) : Prop :=
  ∀ documentId, s.documents.contains documentId = true →
    ∀ k ∈ idsIn s.chunks documentId, ∀ f, k ∈ s.onDisk f

/-- A call is running. -/
def ServiceStage.InCall : ServiceStage → Prop
  | .diffing _ | .writing _ _ _ => True
  | _ => False

private theorem ServiceStage.not_stillDeletes_of_not_inCall {stage : ServiceStage}
    (h : ¬stage.InCall) {f : IndexFile} {k : String} : ¬stage.StillDeletes f k := by
  cases stage with
  | writing record diff done => exact absurd trivial h
  | _ => exact id

omit [DecidableEq ι] in
/-- What is stored before any process is started, and saved, is accounted for. -/
theorem accounted_start {s₀ : Processes ι} (hfresh : ∀ i, s₀.stage i = .unstarted) {f : IndexFile}
    (hstored : ∀ k ∈ s₀.chunks.keys, k ∈ s₀.onDisk f) : s₀.Accounted f where
  rows k hk := Or.inl (hstored k hk)
  inserts i k hi := by
    rw [hfresh] at hi
    exact hi.elim
  memory i := by
    rw [hfresh]
    trivial

/-- **Every run** in which each save keeps what it has to accounts for all chunk rows. -/
theorem accounted_of_reachWhere {s₀ : Processes ι} {f : IndexFile} (h₀ : s₀.Accounted f)
    (h : ReachWhere (processStep env) KeepsSaved s₀ s) : s.Accounted f :=
  h.invariant h₀ fun _ _ _ hs hkeeps hstep => accounted_step hs hkeeps hstep

/-- **No document is lost** in any run of any processes in which each save keeps what is stored in
Postgres or about to be. -/
theorem stored_on_disk {s₀ : Processes ι} (hfresh : ∀ i, s₀.stage i = .unstarted)
    (hstored : ∀ k ∈ s₀.chunks.keys, ∀ f, k ∈ s₀.onDisk f)
    (h : ReachWhere (processStep env) KeepsSaved s₀ s) (hreturned : ∀ i, ¬(s.stage i).InCall) :
    s.DocumentsOnDisk := by
  intro documentId _ k hk f
  have hall : s.Accounted f :=
    accounted_of_reachWhere (accounted_start hfresh fun k hk => hstored k hk f) h
  have hrow : k ∈ s.chunks.keys := by
    obtain ⟨chunk, hget, -⟩ := mem_idsIn.mp hk
    exact Dict.mem_keys_iff.mpr ⟨chunk, hget⟩
  refine (hall.rows k hrow).resolve_right ?_
  rintro ⟨i, hi⟩
  exact ServiceStage.not_stillDeletes_of_not_inCall (hreturned i) hi

end

/-! ### Two processes -/

instance (f : IndexFile) (k : String) : (stage : ServiceStage) →
    Decidable (stage.StillInserts f k)
  | .writing _ _ _ => inferInstanceAs (Decidable (_ ∧ _ ∧ _))
  | .unstarted | .loadedFaiss | .idle | .diffing _ => .isFalse id

instance : (stage : ServiceStage) → Decidable stage.InCall
  | .writing _ _ _ | .diffing _ => .isTrue trivial
  | .unstarted | .loadedFaiss | .idle => .isFalse id

instance (P : IndexFile → Prop) [DecidablePred P] : Decidable (∀ f, P f) :=
  decidable_of_iff (P .faiss ∧ P .bm25)
    ⟨fun h f => match f with | .faiss => h.1 | .bm25 => h.2, fun h => ⟨h .faiss, h .bm25⟩⟩

instance (s : Processes Bool) (i : Bool) : (stage : ServiceStage) → Decidable (s.Keeps i stage)
  | .writing _ diff done => inferInstanceAs (Decidable (∀ f : IndexFile, done + 1 = f.saved →
      ∀ k ∈ s.onDisk f, k ∈ s.chunks.keys ∧ k ∉ diff.toDelete ∨
        (∃ j, j ≠ i ∧ (s.stage j).StillInserts f k) → k ∈ (s.stores i).inMemory f))
  | .unstarted | .loadedFaiss | .idle | .diffing _ => .isTrue trivial

instance (s : Processes Bool) : (l : ProcessLabel Bool) → Decidable (KeepsSaved s l)
  | .proceed i => inferInstanceAs (Decidable (s.Keeps i (s.stage i)))
  | .construct _ | .call _ _ _ => .isTrue trivial

/-- The constructors of an instance. -/
def constructed (i : Bool) : List (ProcessLabel Bool) := [.construct i, .construct i]

/-- A whole call: the ids, nine writes and the bump. -/
def wholeCall (i : Bool) (title text : String) : List (ProcessLabel Bool) :=
  .call i ⟨title, some text⟩ none :: List.replicate 11 (.proceed i)

/-- The second process is started when the first has ingested its contract. -/
def oneAfterTheOther : List (ProcessLabel Bool) :=
  constructed false ++ wholeCall false "Alpha" "one" ++
    constructed true ++ wholeCall true "Beta" "two"

/-- `stored_on_disk` for a process that is started after another. -/
theorem stored_on_disk_afterwards :
    ∃ s, execWhere (processStep sampleEnv) KeepsSaved {} oneAfterTheOther = some s ∧
      s.documents.keys.length = 2 ∧ s.chunks.keys.length = 2 ∧ s.DocumentsOnDisk := by
  have hrun : (execWhere (processStep sampleEnv) KeepsSaved {} oneAfterTheOther).any
      (fun s => decide ((s.documents.keys.length = 2 ∧ s.chunks.keys.length = 2) ∧
        ∀ i, ¬(s.stage i).InCall)) = true := by
    decide +kernel
  obtain ⟨s, hs, hdecide⟩ := (Option.any_eq_true _ _).mp hrun
  obtain ⟨⟨hdocuments, hchunks⟩, hreturned⟩ := of_decide_eq_true hdecide
  have hstored : ∀ k ∈ ({} : Processes Bool).chunks.keys, ∀ f, k ∈ ({} : Processes Bool).onDisk f :=
    fun k hk => absurd hk List.not_mem_nil
  exact ⟨s, hs, hdocuments, hchunks,
    stored_on_disk (fun _ => rfl) hstored (ReachWhere.start.exec hs) hreturned⟩

/-- Two processes that are started together, and at last the first contract again. -/
def startedTogether : List (ProcessLabel Bool) :=
  constructed false ++ constructed true ++ wholeCall false "Alpha" "one" ++
    wholeCall true "Beta" "two" ++ [.call false ⟨"Alpha", some "one"⟩ none]

/-- **A lost document**: the second process saves a copy without it, and as its row is there, it is
not ingested again. -/
theorem document_lost :
    ∃ s, exec (processStep sampleEnv) {} startedTogether = some s ∧
      (∀ i, ¬(s.stage i).InCall) ∧ ¬s.DocumentsOnDisk := by
  have hrun : (exec (processStep sampleEnv) {} startedTogether).any
      (fun s => decide ((∀ i, ¬(s.stage i).InCall) ∧
        s.documents.contains (documentIdFor sampleEnv "Alpha") = true ∧
        ¬∀ k ∈ idsIn s.chunks (documentIdFor sampleEnv "Alpha"), ∀ f, k ∈ s.onDisk f)) = true := by
    decide +kernel
  obtain ⟨s, hs, hdecide⟩ := (Option.any_eq_true _ _).mp hrun
  obtain ⟨hreturned, hrow, hlost⟩ := of_decide_eq_true hdecide
  exact ⟨s, hs, hreturned, fun hall => hlost (hall _ hrow)⟩

end AuditFlow
