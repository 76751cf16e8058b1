import AuditFlow.Foundation.Resumption
import AuditFlow.Ingest.ChunkIds

/-!
# Where the stored chunks come from

The two calls of the ingestion service, taken apart into their operations: `insertProgram` and
`deleteProgram` are programs that other processes may interrupt between any two operations, and run
without an interruption they are the calls themselves (`run_insertProgram`, `run_deleteProgram`).

**Everything that is stored has been cut from a contract**: `Stores.From` says it of the copies in
memory, of both index files and of the table of chunks, each row under the id of its chunk. Every
operation of either call keeps it, whatever fails and whatever has happened in between, as long as
the contract of the call is counted among the contracts (`performs_program`).
-/

namespace AuditFlow

open Foundation

/-! ### Chunks of contracts -/

section

variable (env : IngestEnv) (contracts : List Contract)

/-- The record of one of the contracts, with some identity. -/
def IsRecordOf (record : DocumentRecord) : Prop :=
  ∃ contract ∈ contracts, ∃ identity, recordOf env contract identity = some record

/-- The chunk was cut from one of the contracts. -/
def CutFrom (chunk : ChunkRecord) : Prop :=
  ∃ record, IsRecordOf env contracts record ∧ chunk ∈ record.chunks

/-- FAISS was given the entry for such a chunk. -/
def EntryFrom (entry : FaissEntry) : Prop :=
  ∃ record, IsRecordOf env contracts record ∧
    ∃ chunk ∈ record.chunks, entry = faissEntryOf record chunk

/-- A store of FAISS with such entries only. -/
def EntriesFrom (store : Option (List FaissEntry)) : Prop :=
  ∀ entry ∈ store.getD [], EntryFrom env contracts entry

/-- Such chunks only, each under its own id. -/
def RowsFrom (rows : Dict String ChunkRecord) : Prop :=
  ∀ k chunk, rows.get? k = some chunk → chunk.chunkId = k ∧ CutFrom env contracts chunk

/-- Everything that is stored has been cut from the contracts. -/
structure Stores.From (s : Stores) : Prop where
  faiss : EntriesFrom env contracts s.faiss
  faissDisk : EntriesFrom env contracts s.faissDisk
  bm25 : RowsFrom env contracts s.bm25
  bm25Disk : RowsFrom env contracts (s.bm25Disk.getD .empty)
  chunks : RowsFrom env contracts s.chunks

/-- What holds of the stores with regard to the contracts, or to more of them, goes on to hold. -/
def KeepsFrom (s s' : Stores) : Prop :=
  ∀ contracts', contracts ⊆ contracts' → s.From env contracts' → s'.From env contracts'

end

section

variable {env : IngestEnv} {contracts contracts' : List Contract} {chunk : ChunkRecord}
  {record : DocumentRecord} {rows : Dict String ChunkRecord}

theorem IsRecordOf.mono (hsub : contracts ⊆ contracts') (h : IsRecordOf env contracts record) :
    IsRecordOf env contracts' record := by
  obtain ⟨contract, hcontract, hrecord⟩ := h
  exact ⟨contract, hsub hcontract, hrecord⟩

theorem CutFrom.mono (hsub : contracts ⊆ contracts') (h : CutFrom env contracts chunk) :
    CutFrom env contracts' chunk := by
  obtain ⟨record, hrecord, hchunk⟩ := h
  exact ⟨record, hrecord.mono hsub, hchunk⟩

/-- **What such a chunk says**: its text is a page of a contract, and its id names the contract's
document and the hash of the text. -/
theorem CutFrom.parts (h : CutFrom env contracts chunk) :
    ∃ contract ∈ contracts, chunk.rawChunkText ∈ chunkTexts env contract chunkSize chunkOverlap ∧
      chunk.documentId = documentIdFor env contract.title ∧
      chunk.chunkId = chunkIdFor env (documentIdFor env contract.title) chunk.rawChunkText := by
  obtain ⟨record, ⟨contract, hcontract, identity, hrecord⟩, hchunk⟩ := h
  obtain ⟨htext, hid, -⟩ := chunk_parts hrecord hchunk
  obtain ⟨-, -, hdocument, -⟩ := buildDocumentRecord_eq_some hrecord
  refine ⟨contract, hcontract, htext, ?_, hid⟩
  rw [(chunk_owned hrecord hchunk).1, hdocument]

/-! ### Tables -/

theorem rowsFrom_empty : RowsFrom env contracts .empty := by
  intro k chunk hget
  cases hget

theorem RowsFrom.mono (hsub : contracts ⊆ contracts') (h : RowsFrom env contracts rows) :
    RowsFrom env contracts' rows :=
  fun k chunk hget => ⟨(h k chunk hget).1, (h k chunk hget).2.mono hsub⟩

theorem RowsFrom.eraseAll (h : RowsFrom env contracts rows) (ids : List String) :
    RowsFrom env contracts (rows.eraseAll ids) := by
  intro k chunk hget
  rw [Dict.get?_eraseAll] at hget
  split_ifs at hget
  exact h k chunk hget

theorem RowsFrom.filter (h : RowsFrom env contracts rows) (p : String → ChunkRecord → Bool) :
    RowsFrom env contracts (rows.filter p) := by
  intro k chunk hget
  rw [Dict.get?_filter] at hget
  exact h k chunk (Option.filter_eq_some_iff.mp hget).1

theorem RowsFrom.set (h : RowsFrom env contracts rows) (hchunk : CutFrom env contracts chunk) :
    RowsFrom env contracts (rows.set chunk.chunkId chunk) := by
  intro k chunk' hget
  rw [Dict.get?_set] at hget
  split_ifs at hget with hk
  · obtain rfl := Option.some.inj hget
    exact ⟨hk.symm, hchunk⟩
  · exact h k chunk' hget

theorem RowsFrom.setAll (h : RowsFrom env contracts rows) {chunks : List ChunkRecord}
    (hchunks : ∀ chunk ∈ chunks, CutFrom env contracts chunk) :
    RowsFrom env contracts (rows.setAll (·.chunkId) id chunks) := by
  induction chunks generalizing rows with
  | nil => exact h
  | cons chunk chunks ih =>
    rw [Dict.setAll_cons]
    exact ih (h.set (hchunks chunk List.mem_cons_self))
      fun chunk' hmem => hchunks chunk' (List.mem_cons_of_mem chunk hmem)

theorem RowsFrom.insertAll (h : RowsFrom env contracts rows) {chunks : List ChunkRecord}
    (hchunks : ∀ chunk ∈ chunks, CutFrom env contracts chunk) :
    RowsFrom env contracts (chunks.foldl Stores.insertChunk rows) := by
  induction chunks generalizing rows with
  | nil => exact h
  | cons chunk chunks ih =>
    refine ih ?_ fun chunk' hmem => hchunks chunk' (List.mem_cons_of_mem chunk hmem)
    rw [Stores.insertChunk]
    split_ifs
    · exact h
    · exact h.set (hchunks chunk List.mem_cons_self)

theorem EntriesFrom.mono {store : Option (List FaissEntry)} (hsub : contracts ⊆ contracts')
    (h : EntriesFrom env contracts store) : EntriesFrom env contracts' store := by
  intro entry hentry
  obtain ⟨record, hrecord, hchunk⟩ := h entry hentry
  exact ⟨record, hrecord.mono hsub, hchunk⟩

theorem Stores.From.mono {s : Stores} (hsub : contracts ⊆ contracts')
    (h : s.From env contracts) : s.From env contracts' :=
  ⟨h.faiss.mono hsub, h.faissDisk.mono hsub, h.bm25.mono hsub, h.bm25Disk.mono hsub,
    h.chunks.mono hsub⟩

/-! ### What each effect keeps -/

instance : IsPreorder Stores (KeepsFrom env contracts) where
  refl _ _ _ h := h
  trans _ _ _ h h' contracts' hsub hs := h' contracts' hsub (h contracts' hsub hs)

theorem KeepsFrom.mono {s s' : Stores} (hsub : contracts ⊆ contracts')
    (h : KeepsFrom env contracts s s') : KeepsFrom env contracts' s s' :=
  fun contracts'' hsub' hs => h contracts'' (List.Subset.trans hsub hsub') hs

private theorem keepsFrom_withoutFaiss (ids : List String) (s : Stores) :
    KeepsFrom env contracts s (s.withoutFaiss ids) := by
  intro contracts' _ h
  refine ⟨fun entry hentry => ?_, h.faissDisk, h.bm25, h.bm25Disk, h.chunks⟩
  have hmem : entry ∈ (s.withoutFaiss ids).faissEntries := hentry
  rw [Stores.faissEntries_withoutFaiss] at hmem
  exact h.faiss entry (List.mem_filter.mp hmem).1

/-- What is added to FAISS are chunks of the record. -/
private theorem keepsFrom_addedToFaiss (hrecord : IsRecordOf env contracts record)
    {toAdd : List ChunkRecord} (htoAdd : ∀ chunk ∈ toAdd, chunk ∈ record.chunks) (s : Stores) :
    KeepsFrom env contracts s (addedToFaiss record toAdd s) := by
  intro contracts' hsub h
  rw [addedToFaiss]
  split_ifs
  · exact h
  · refine ⟨fun entry hentry => ?_, h.faissDisk, h.bm25, h.bm25Disk, h.chunks⟩
    have hmem : entry ∈ (s.withFaiss (toAdd.map (faissEntryOf record))).faissEntries := hentry
    rw [Stores.faissEntries_withFaiss] at hmem
    rcases List.mem_append.mp hmem with hold | hnew
    · exact h.faiss entry hold
    · obtain ⟨chunk, hchunk, rfl⟩ := List.mem_map.mp (List.mem_filter.mp hnew).1
      exact ⟨record, hrecord.mono hsub, chunk, htoAdd chunk hchunk, rfl⟩

/-- **Every write of `insert_or_update_document`**, of the chunks of a record of the contracts. -/
theorem moves_writeDocument {faults : Faults} {diff : DocumentDiff}
    (hrecord : IsRecordOf env contracts record)
    (htoAdd : ∀ chunk ∈ diff.toAdd, chunk ∈ record.chunks) :
    ∀ write ∈ writeDocument env faults record diff,
      Exc.Moves (KeepsFrom env contracts) write := by
  have hcut : ∀ contracts', contracts ⊆ contracts' → ∀ chunk ∈ diff.toAdd,
      CutFrom env contracts' chunk :=
    fun contracts' hsub chunk hchunk => ⟨record, hrecord.mono hsub, htoAdd chunk hchunk⟩
  simp only [writeDocument, List.mem_cons, List.not_mem_nil, or_false, forall_eq_or_imp, forall_eq]
  refine ⟨(atomic_faissDelete _).moves (keepsFrom_withoutFaiss _),
    (atomic_addToFaiss _).moves (keepsFrom_addedToFaiss hrecord htoAdd),
    (atomic_faissSave _).moves fun s _ _ h => ?_, (atomic_bm25Delete _).moves fun s _ _ h => ?_,
    (atomic_bm25Add _).moves fun s contracts' hsub h => ?_, atomic_bm25Save.moves fun s _ _ h => ?_,
    (atomic_upsertDocumentRow _).moves fun s _ _ h => ?_,
    (atomic_deleteChunks _).moves fun s _ _ h => ?_,
    (atomic_insertChunks _).moves fun s contracts' hsub h => ?_⟩
  · exact ⟨h.faiss, h.faiss, h.bm25, h.bm25Disk, h.chunks⟩
  · exact ⟨h.faiss, h.faissDisk, h.bm25.eraseAll _, h.bm25Disk, h.chunks⟩
  · exact ⟨h.faiss, h.faissDisk, h.bm25.setAll (hcut contracts' hsub), h.bm25Disk, h.chunks⟩
  · exact ⟨h.faiss, h.faissDisk, h.bm25, h.bm25, h.chunks⟩
  · exact ⟨h.faiss, h.faissDisk, h.bm25, h.bm25Disk, h.chunks⟩
  · exact ⟨h.faiss, h.faissDisk, h.bm25, h.bm25Disk, h.chunks.eraseAll _⟩
  · exact ⟨h.faiss, h.faissDisk, h.bm25, h.bm25Disk, h.chunks.insertAll (hcut contracts' hsub)⟩

/-- **Every write of `delete_document`**. -/
theorem moves_eraseDocument {faults : Faults} {documentId : String} {chunkIds : List String} :
    ∀ write ∈ eraseDocument env faults documentId chunkIds,
      Exc.Moves (KeepsFrom env contracts) write := by
  simp only [eraseDocument, List.mem_cons, List.not_mem_nil, or_false, forall_eq_or_imp, forall_eq]
  refine ⟨(atomic_faissDelete _).moves (keepsFrom_withoutFaiss _),
    (atomic_faissSave _).moves fun s _ _ h => ?_, (atomic_bm25Delete _).moves fun s _ _ h => ?_,
    atomic_bm25Save.moves fun s _ _ h => ?_, (atomic_deleteDocumentRow _).moves fun s _ _ h => ?_⟩
  · exact ⟨h.faiss, h.faiss, h.bm25, h.bm25Disk, h.chunks⟩
  · exact ⟨h.faiss, h.faissDisk, h.bm25.eraseAll _, h.bm25Disk, h.chunks⟩
  · exact ⟨h.faiss, h.faissDisk, h.bm25, h.bm25, h.chunks⟩
  · exact ⟨h.faiss, h.faissDisk, h.bm25, h.bm25Disk, h.chunks.filter _⟩

end

/-! ### The calls as programs -/

section

variable (env : IngestEnv) (faults : Faults)

/-- The writes in order, with exceptions wrapped, and then the bump. -/
def writeProgram (writes : List (Exc PyError Stores Unit)) (wrapped : PyError) :
    Resumption PyError Stores Unit :=
  ((Resumption.inOrder writes).mapError (asIngestionError wrapped)).bind fun _ =>
    .perform (bumpIndexVersion faults) fun _ => .done (.ok ())

/-- `insert_or_update_document` for a record that is not stored yet, operation by operation. -/
def updateProgram (record : DocumentRecord) : Resumption PyError Stores IngestResult :=
  .perform (getChunkIdsForDocument faults record.documentId) fun oldChunkIds =>
    let diff := documentDiff env record oldChunkIds
    (writeProgram faults (writeDocument env faults record diff) (writeError env record)).bind
      fun _ => .done (.ok (diff.result record))

/-- `insert_or_update_document`, operation by operation. -/
def insertProgram (contract : Contract) (identity : Option DocumentIdentity) :
    Resumption PyError Stores IngestResult :=
  match recordOf env contract identity with
  | none => .done (.error {
      cls := .ingestionError
      message := s!"Contract {env.repr contract.title} has no context to chunk." })
  | some record =>
    .perform (getDocument faults record.documentId) fun existing =>
      match existing.filter fun row => row.contentHash = record.contentHash with
      | some row =>
        .done (.ok {
          documentId := record.documentId, addedChunks := 0, deletedChunks := 0
          unchangedChunks := row.chunks.length, wasNoop := true })
      | none => updateProgram env faults record

/-- `delete_document`, operation by operation. -/
def deleteProgram (documentId : String) : Resumption PyError Stores Unit :=
  .perform (getChunkIdsForDocument faults documentId) fun ids =>
    let chunkIds := env.setOrder.list ids
    if chunkIds = [] then
      .done (.error {
        cls := .ingestionError
        message := s!"No document found for document_id={env.repr documentId}" })
    else writeProgram faults (eraseDocument env faults documentId chunkIds)
      (deleteError env documentId)

/-- A call, operation by operation. -/
def IngestCall.program : IngestCall → Resumption PyError Stores Unit
  | .insertOrUpdate contract identity =>
    (insertProgram env faults contract identity).bind fun _ => .done (.ok ())
  | .delete documentId => deleteProgram env faults documentId

/-- The contract that a call hands in. -/
def IngestCall.contracts : IngestCall → List Contract
  | .insertOrUpdate contract _ => [contract]
  | .delete _ => []

variable {env faults}

private theorem run_writeProgram (writes : List (Exc PyError Stores Unit)) (wrapped : PyError) :
    (writeProgram faults writes wrapped).run =
      writeAll writes wrapped >>= fun _ => bumpIndexVersion faults := by
  rw [writeProgram, Resumption.run_bind, Resumption.run_mapError, Resumption.run_inOrder, writeAll]
  refine congrArg _ (funext fun _ => ?_)
  rw [Resumption.run_perform]
  funext s
  rw [Exc.bind_apply]
  rcases bumpIndexVersion faults s with ⟨_ | _, s'⟩
  · rfl
  · rfl

/-- **Without an interruption** the program is the call. -/
theorem run_insertProgram (contract : Contract) (identity : Option DocumentIdentity) :
    (insertProgram env faults contract identity).run =
      insertOrUpdateDocument env faults contract identity := by
  rw [insertProgram, insertOrUpdateDocument]
  rcases recordOf env contract identity with - | record
  · rfl
  · rw [Resumption.run_perform]
    refine congrArg _ (funext fun existing => ?_)
    generalize Option.filter _ existing = found
    rcases found with - | row
    · rw [updateProgram, Resumption.run_perform, updateDocument]
      refine congrArg _ (funext fun oldChunkIds => ?_)
      dsimp only
      rw [Resumption.run_bind, run_writeProgram]
      funext s
      simp only [Exc.bind_apply]
      rcases writeAll (writeDocument env faults record (documentDiff env record oldChunkIds))
        (writeError env record) s with ⟨_ | _, s'⟩
      · rfl
      · rfl
    · rfl

theorem run_deleteProgram (documentId : String) :
    (deleteProgram env faults documentId).run = deleteDocument env faults documentId := by
  rw [deleteProgram, Resumption.run_perform, deleteDocument]
  refine congrArg _ (funext fun ids => ?_)
  dsimp only
  split_ifs
  · rfl
  · exact run_writeProgram _ _

/-! ### What the programs keep -/

variable {contracts : List Contract}

private theorem moves_reads {α : Type} (op : IngestOp) (f : Stores → α) :
    Exc.Moves (KeepsFrom env contracts) (attempt faults op (Exc.reads f)) := by
  intro s
  rw [attempt_apply]
  cases faults op with
  | none => exact fun _ _ h => h
  | some e => exact fun _ _ h => h

private theorem performs_writeProgram {writes : List (Exc PyError Stores Unit)} {wrapped : PyError}
    (h : ∀ write ∈ writes, Exc.Moves (KeepsFrom env contracts) write) :
    (writeProgram faults writes wrapped).Performs (KeepsFrom env contracts) := by
  refine ((Resumption.performs_inOrder h).mapError _).bind fun _ => ?_
  refine Resumption.performs_perform ?_ fun _ _ _ _ => Resumption.performs_done _
  have hbump : ∀ s : Stores, KeepsFrom env contracts s s.bumped :=
    fun s _ _ h => ⟨h.faiss, h.faissDisk, h.bm25, h.bm25Disk, h.chunks⟩
  intro s
  rw [bumpIndexVersion, attempt_apply]
  cases faults .bumpIndexVersion with
  | none => exact hbump s
  | some e => exact fun _ _ h => h

/-- **Every operation of a call** adds only chunks of the contract that the call hands in. -/
theorem performs_program (call : IngestCall) :
    (call.program env faults).Performs (KeepsFrom env call.contracts) := by
  cases call with
  | insertOrUpdate contract identity =>
    refine Resumption.Performs.bind ?_ fun _ => Resumption.performs_done _
    rw [insertProgram]
    split
    · exact Resumption.performs_done _
    · rename_i record hrecord
      refine Resumption.performs_perform (moves_reads _ _) fun existing _ _ _ => ?_
      split
      · exact Resumption.performs_done _
      · refine Resumption.performs_perform (moves_reads _ _) fun oldChunkIds _ _ _ => ?_
        refine Resumption.Performs.bind (performs_writeProgram ?_) fun _ =>
          Resumption.performs_done _
        exact moves_writeDocument ⟨contract, List.mem_singleton_self contract, identity, hrecord⟩
          fun chunk hchunk => mem_chunks_of_mem_toAdd hchunk
  | delete documentId =>
    refine Resumption.performs_perform (moves_reads _ _) fun ids _ _ _ => ?_
    dsimp only
    split_ifs
    · exact Resumption.performs_done _
    · exact performs_writeProgram moves_eraseDocument

end

end AuditFlow
