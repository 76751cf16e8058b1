import AuditFlow.Ingest.Holdings
import Mathlib.Data.Finset.Card

/-!
# Ingesting documents

`ingest/ingestion_service.py`: `insert_or_update_document` compares the chunks of a contract with
the chunk rows that Postgres has for the document, and writes the difference to FAISS, to the BM25
corpus and to Postgres, in this order; `delete_document` removes a document from all three.

The writes of a call come one after the other, and each of them is atomic, with an effect on the
stores (`writeEffects`, `eraseEffects`). So a call that raises half-way has had **the effects of
exactly the first so many writes**.
-/

namespace AuditFlow

open Foundation

/-- `CHUNK_SIZE`. -/
def chunkSize : ℕ := 1000

/-- `CHUNK_OVERLAP`. -/
def chunkOverlap : ℕ := 200

/-- The difference between the chunks of a record and the stored ones. -/
structure DocumentDiff where
  toDelete : List String
  toAdd : List ChunkRecord
  unchanged : List String

section

variable (env : IngestEnv) (faults : Faults)

/-- The record of a contract with the chunk size of the service. -/
def recordOf (contract : Contract) (identity : Option DocumentIdentity) : Option DocumentRecord :=
  buildDocumentRecord env contract chunkSize chunkOverlap identity

/-- `_chunk_metadata`. -/
def chunkMetadata (doc : DocumentRecord) (chunk : ChunkRecord) : ChunkMetadata where
  chunkId := chunk.chunkId
  documentId := doc.documentId
  documentTitle := doc.documentTitle
  companyName := doc.companyName
  counterpartyName := doc.counterpartyName
  contractType := doc.contractType
  identitySource := doc.identitySource
  identityConfidence := doc.identityConfidence
  selfDeclaredHint := doc.selfDeclaredHint
  rawTitle := doc.rawTitle
  chunkIndexInDoc := chunk.chunkIndex
  isPreamble := chunk.isPreamble
  rawChunkText := chunk.rawChunkText

/-- What FAISS is given of a chunk. -/
def faissEntryOf (doc : DocumentRecord) (chunk : ChunkRecord) : FaissEntry where
  id := chunk.chunkId
  text := chunk.embeddingText
  metadata := chunkMetadata doc chunk

/-- `to_delete`, `to_add` and `unchanged`, from the chunk ids that are stored. -/
def documentDiff (record : DocumentRecord) (oldChunkIds : List String) : DocumentDiff :=
  let newChunksById := Dict.empty.setAll (·.chunkId) id record.chunks
  let newChunkIds := newChunksById.keys
  let toAddIds := env.setOrder.list (newChunkIds.filter fun k => k ∉ oldChunkIds)
  { toDelete := env.setOrder.list (oldChunkIds.filter fun k => k ∉ newChunkIds)
    toAdd := toAddIds.filterMap newChunksById.get?
    unchanged := newChunkIds.filter fun k => k ∈ oldChunkIds }

/-- Embed what is new, and add it to FAISS. -/
def addToFaiss (record : DocumentRecord) (toAdd : List ChunkRecord) : Exc PyError Stores Unit :=
  if toAdd = [] then pure ()
  else do
    attempt faults .embed (pure ())
    faissAdd faults (toAdd.map (faissEntryOf record))

/-- The writes of `insert_or_update_document`; the row of the document comes before the chunks that
refer to it. -/
def writeDocument (record : DocumentRecord) (diff : DocumentDiff) :
    List (Exc PyError Stores Unit) :=
  [faissDelete faults diff.toDelete,
   addToFaiss faults record diff.toAdd,
   faissSave faults env.indexDir,
   bm25Delete diff.toDelete,
   bm25Add diff.toAdd,
   bm25Save faults,
   upsertDocumentRow faults record,
   deleteChunks faults diff.toDelete,
   insertChunks faults diff.toAdd]

/-- The writes of `delete_document`. -/
def eraseDocument (documentId : String) (chunkIds : List String) :
    List (Exc PyError Stores Unit) :=
  [faissDelete faults chunkIds,
   faissSave faults env.indexDir,
   bm25Delete chunkIds,
   bm25Save faults,
   deleteDocumentRow faults documentId]

/-- `except IngestionError: raise`, and any other exception is wrapped. -/
def asIngestionError (wrapped : PyError) (e : PyError) : PyError :=
  if e.cls = .ingestionError then e else { wrapped with cause := some e.cls }

/-- The writes in order, with exceptions wrapped. -/
def writeAll (writes : List (Exc PyError Stores Unit)) (wrapped : PyError) :
    Exc PyError Stores Unit :=
  Exc.handle (Exc.inOrder writes) fun e => Exc.raise (asIngestionError wrapped e)

/-- The exception that wraps a failed write. -/
def writeError (record : DocumentRecord) : PyError where
  cls := .ingestionError
  message := s!"Failed to write document {env.repr record.documentId} -- " ++
    "FAISS/BM25/Postgres may now be inconsistent for this document (see known limitation)."
  detail := [("document_id", record.documentId)]

/-- The result of an update. -/
def DocumentDiff.result (diff : DocumentDiff) (record : DocumentRecord) : IngestResult where
  documentId := record.documentId
  addedChunks := diff.toAdd.length
  deletedChunks := diff.toDelete.length
  unchangedChunks := diff.unchanged.length

/-- `insert_or_update_document` for a record that is not stored yet. -/
def updateDocument (record : DocumentRecord) :
    Exc PyError Stores IngestResult := do
  let oldChunkIds ← getChunkIdsForDocument faults record.documentId
  let diff := documentDiff env record oldChunkIds
  writeAll (writeDocument env faults record diff) (writeError env record)
  bumpIndexVersion faults
  pure (diff.result record)

/-- `insert_or_update_document`. -/
def insertOrUpdateDocument (contract : Contract)
    (identity : Option DocumentIdentity) : Exc PyError Stores IngestResult :=
  match recordOf env contract identity with
  | none => Exc.raise {
      cls := .ingestionError
      message := s!"Contract {env.repr contract.title} has no context to chunk." }
  | some record => do
    let existing ← getDocument faults record.documentId
    -- the hash stands in `documents`, whatever became of the chunks
    match existing.filter fun row => row.contentHash = record.contentHash with
    | some row =>
      pure { documentId := record.documentId, addedChunks := 0, deletedChunks := 0
             unchangedChunks := row.chunks.length, wasNoop := true }
    | none => updateDocument env faults record

/-- The exception that wraps a failed write of `delete_document`. -/
def deleteError (documentId : String) : PyError where
  cls := .ingestionError
  message := s!"Failed to delete document {env.repr documentId}"

/-- `delete_document`. -/
def deleteDocument (documentId : String) : Exc PyError Stores Unit := do
  let chunkIds := env.setOrder.list (← getChunkIdsForDocument faults documentId)
  if chunkIds = [] then
    Exc.raise {
      cls := .ingestionError
      message := s!"No document found for document_id={env.repr documentId}" }
  else do
    writeAll (eraseDocument env faults documentId chunkIds) (deleteError env documentId)
    bumpIndexVersion faults

/-- Which chunks a call for a record adds and deletes. -/
def Stores.diffFor (s : Stores) (record : DocumentRecord) : DocumentDiff :=
  documentDiff env record (s.chunkRows record.documentId).keys

/-- The contract is stored already, as far as its hash tells. -/
def Stores.hasVersion (s : Stores) (record : DocumentRecord) : Prop :=
  ∃ row, s.documents.get? record.documentId = some row ∧ row.contentHash = record.contentHash

/-! ### The difference -/

section Diff

variable {env} {record : DocumentRecord} {old : List String} {k : String}

private theorem mem_newChunkIds :
    k ∈ (Dict.empty.setAll (·.chunkId) id record.chunks).keys ↔ k ∈ record.chunkIds := by
  rw [Dict.mem_keys_setAll]
  exact or_iff_right (List.not_mem_nil)

private theorem get?_newChunksById (hk : k ∈ record.chunkIds) : ∃ chunk ∈ record.chunks,
    chunk.chunkId = k ∧
      (Dict.empty.setAll (·.chunkId) id record.chunks).get? k = some chunk :=
  Dict.get?_setAll_of_mem hk

theorem mem_toDelete :
    k ∈ (documentDiff env record old).toDelete ↔ k ∈ old ∧ k ∉ record.chunkIds := by
  rw [documentDiff, (env.setOrder.perm _).mem_iff, List.mem_filter, decide_eq_true_eq,
    mem_newChunkIds]

/-- A list of keys looked up in a dictionary of records with these keys. -/
theorem map_filterMap_get? {f : String → Option ChunkRecord} {ks : List String}
    (h : ∀ k ∈ ks, ∃ chunk, chunk.chunkId = k ∧ f k = some chunk) :
    (ks.filterMap f).map (·.chunkId) = ks := by
  induction ks with
  | nil => rfl
  | cons k ks ih =>
    obtain ⟨chunk, hid, hget⟩ := h k List.mem_cons_self
    rw [List.filterMap_cons_some hget, List.map_cons, hid,
      ih fun k hk => h k (List.mem_cons_of_mem _ hk)]

private theorem map_chunkId_toAdd : (documentDiff env record old).toAdd.map (·.chunkId) =
    env.setOrder.list (((Dict.empty.setAll (·.chunkId) id record.chunks).keys).filter
      fun k => k ∉ old) := by
  refine map_filterMap_get? fun k hk => ?_
  rw [(env.setOrder.perm _).mem_iff, List.mem_filter, mem_newChunkIds] at hk
  obtain ⟨chunk, -, hid, hget⟩ := get?_newChunksById hk.1
  exact ⟨chunk, hid, hget⟩

theorem mem_toAdd_chunkIds : k ∈ (documentDiff env record old).toAdd.map (·.chunkId) ↔
    k ∈ record.chunkIds ∧ k ∉ old := by
  rw [map_chunkId_toAdd, (env.setOrder.perm _).mem_iff, List.mem_filter, mem_newChunkIds,
    decide_eq_true_eq]

/-- What is added are chunks of the record. -/
theorem mem_chunks_of_mem_toAdd {chunk : ChunkRecord}
    (h : chunk ∈ (documentDiff env record old).toAdd) : chunk ∈ record.chunks := by
  obtain ⟨k, hk, hget⟩ := List.mem_filterMap.mp h
  rw [(env.setOrder.perm _).mem_iff, List.mem_filter, mem_newChunkIds] at hk
  obtain ⟨chunk', hmem, -, hget'⟩ := get?_newChunksById hk.1
  obtain rfl := Option.some.inj (hget.symm.trans hget')
  exact hmem

/-- What is added under an id is the chunk that the record has last under it. -/
theorem get?_of_mem_toAdd {chunk : ChunkRecord}
    (h : chunk ∈ (documentDiff env record old).toAdd) :
    (Dict.empty.setAll (·.chunkId) id record.chunks).get? chunk.chunkId = some chunk := by
  obtain ⟨k, hk, hget⟩ := List.mem_filterMap.mp h
  rw [(env.setOrder.perm _).mem_iff, List.mem_filter, mem_newChunkIds] at hk
  obtain ⟨chunk', -, hid, hget'⟩ := get?_newChunksById hk.1
  obtain rfl := Option.some.inj (hget.symm.trans hget')
  rw [hid, hget]

theorem nodup_toAdd_chunkIds : ((documentDiff env record old).toAdd.map (·.chunkId)).Nodup := by
  rw [map_chunkId_toAdd, (env.setOrder.perm _).nodup_iff]
  exact (Dict.keys_nodup _).filter _

theorem nodup_toDelete (h : old.Nodup) : (documentDiff env record old).toDelete.Nodup := by
  rw [documentDiff, (env.setOrder.perm _).nodup_iff]
  exact h.filter _

theorem toFinset_toDelete : (documentDiff env record old).toDelete.toFinset =
    old.toFinset \ record.chunkIds.toFinset := by
  ext k
  rw [List.mem_toFinset, mem_toDelete, Finset.mem_sdiff, List.mem_toFinset, List.mem_toFinset]

theorem toFinset_toAdd : ((documentDiff env record old).toAdd.map (·.chunkId)).toFinset =
    record.chunkIds.toFinset \ old.toFinset := by
  ext k
  rw [List.mem_toFinset, mem_toAdd_chunkIds, Finset.mem_sdiff, List.mem_toFinset,
    List.mem_toFinset]

theorem toFinset_unchanged : (documentDiff env record old).unchanged.toFinset =
    record.chunkIds.toFinset ∩ old.toFinset := by
  ext k
  rw [documentDiff, List.mem_toFinset, List.mem_filter, mem_newChunkIds, decide_eq_true_eq,
    Finset.mem_inter, List.mem_toFinset, List.mem_toFinset]

theorem nodup_unchanged : (documentDiff env record old).unchanged.Nodup := by
  rw [documentDiff]
  exact (Dict.keys_nodup _).filter _

/-- Nothing is deleted if every stored chunk is still there. -/
theorem toDelete_eq_nil_iff {s : Stores} : (s.diffFor env record).toDelete = [] ↔
    s.chunkRowIds record.documentId ⊆ record.chunkIds.toFinset := by
  rw [← List.toFinset_eq_empty_iff, Stores.diffFor, toFinset_toDelete,
    Finset.sdiff_eq_empty_iff_subset]
  rfl

/-- Nothing is added if every chunk is stored. -/
theorem toAdd_eq_nil_iff {s : Stores} : (s.diffFor env record).toAdd = [] ↔
    record.chunkIds.toFinset ⊆ s.chunkRowIds record.documentId := by
  rw [← List.map_eq_nil_iff (f := (·.chunkId)), ← List.toFinset_eq_empty_iff, Stores.diffFor,
    toFinset_toAdd, Finset.sdiff_eq_empty_iff_subset]
  rfl

/-- Before there is a FAISS store, there is nothing to delete. -/
theorem toDelete_eq_nil_of_none {s : Stores} (h : s.InStep) (hnone : s.faiss = none) :
    (s.diffFor env record).toDelete = [] := by
  rw [toDelete_eq_nil_iff, h.chunkRowIds_of_none hnone]
  exact Finset.empty_subset _

end Diff

/-! ### Effects -/

/-- The effect of embedding and adding. -/
def addedToFaiss (record : DocumentRecord) (toAdd : List ChunkRecord) (s : Stores) : Stores :=
  if toAdd = [] then s else s.withFaiss (toAdd.map (faissEntryOf record))

/-- The effects of the writes of `insert_or_update_document`. -/
def writeEffects (record : DocumentRecord) (diff : DocumentDiff) : List (Stores → Stores) :=
  [Stores.withoutFaiss diff.toDelete, addedToFaiss record diff.toAdd, Stores.savedFaiss,
   Stores.withoutBm25 diff.toDelete, Stores.withBm25 diff.toAdd, Stores.savedBm25,
   Stores.withDocument record, Stores.withoutChunks diff.toDelete, Stores.withChunks diff.toAdd]

/-- The effects of the writes of `delete_document`. -/
def eraseEffects (documentId : String) (chunkIds : List String) : List (Stores → Stores) :=
  [Stores.withoutFaiss chunkIds, Stores.savedFaiss, Stores.withoutBm25 chunkIds, Stores.savedBm25,
   Stores.withoutDocument documentId]

section

variable {env faults} {record : DocumentRecord} {diff : DocumentDiff}

/-- Adding changes the store in memory only. -/
theorem addedToFaiss_eq (record : DocumentRecord) (toAdd : List ChunkRecord) (s : Stores) :
    addedToFaiss record toAdd s = { s with faiss := (addedToFaiss record toAdd s).faiss } := by
  rw [addedToFaiss]
  split_ifs
  · rfl
  · rfl

theorem atomic_addToFaiss (toAdd : List ChunkRecord) :
    Exc.Atomic (addToFaiss faults record toAdd) (addedToFaiss record toAdd) := by
  intro s
  rw [addToFaiss, addedToFaiss]
  split_ifs with hnil
  · exact Or.inl rfl
  · rcases hembed : faults .embed with - | e
    · have hok : attempt faults .embed (pure ()) s = (.ok (), s) := by
        rw [attempt_apply, hembed]
        rfl
      rw [Exc.bind_of_ok hok]
      exact atomic_faissAdd _ s
    · refine Or.inr ⟨e, Exc.bind_of_error ?_⟩
      rw [attempt_apply, hembed]

/-- **Adding** fails if embedding does, or for a chunk that FAISS does not have yet. -/
theorem addToFaiss_ok_iff {toAdd : List ChunkRecord} (hnodup : (toAdd.map (·.chunkId)).Nodup)
    {s : Stores} : (addToFaiss faults record toAdd s).1 = .ok () ↔
      toAdd = [] ∨ faults .embed = none ∧ (faults .faissAdd = none ∨
        ∀ chunk ∈ toAdd, chunk.chunkId ∈ s.faissEntries.map (·.id)) := by
  rw [addToFaiss]
  split_ifs with hnil
  · exact iff_of_true rfl (Or.inl hnil)
  · rw [or_iff_right hnil]
    rcases hembed : faults .embed with - | e
    · have hok : attempt faults .embed (pure ()) s = (.ok (), s) := by
        rw [attempt_apply, hembed]
        rfl
      have hnodup' : ((toAdd.map (faissEntryOf record)).map (·.id)).Nodup := by
        rw [List.map_map]
        exact hnodup
      rw [Exc.bind_of_ok hok, faissAdd_ok_iff hnodup' fun h => hnil (List.map_eq_nil_iff.mp h)]
      simp only [List.forall_mem_map, true_and]
      rfl
    · have hraises : attempt faults .embed (pure ()) s = (.error e, s) := by
        rw [attempt_apply, hembed]
      rw [Exc.bind_of_error hraises]
      exact iff_of_false (fun h => nomatch h) fun h => nomatch h.1

theorem atomic_writeDocument : List.Forall₂ Exc.Atomic (writeDocument env faults record diff)
    (writeEffects record diff) :=
  .cons (atomic_faissDelete _) <| .cons (atomic_addToFaiss _) <| .cons (atomic_faissSave _) <|
  .cons (atomic_bm25Delete _) <| .cons (atomic_bm25Add _) <| .cons atomic_bm25Save <|
  .cons (atomic_upsertDocumentRow _) <| .cons (atomic_deleteChunks _) <|
  .cons (atomic_insertChunks _) .nil

theorem atomic_eraseDocument {documentId : String} {chunkIds : List String} :
    List.Forall₂ Exc.Atomic (eraseDocument env faults documentId chunkIds)
      (eraseEffects documentId chunkIds) :=
  .cons (atomic_faissDelete _) <| .cons (atomic_faissSave _) <| .cons (atomic_bm25Delete _) <|
  .cons atomic_bm25Save <| .cons (atomic_deleteDocumentRow _) .nil

end

end

end AuditFlow
