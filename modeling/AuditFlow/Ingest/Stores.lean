import AuditFlow.Foundation.Catalog
import AuditFlow.Foundation.Exc
import AuditFlow.Ingest.Chunker

/-!
# The three stores

What an ingestion writes to: the FAISS index (`ingest/index/faiss_index.py` over langchain's
vector store), the BM25 corpus (`ingest/index/bm25_index.py`) and the tables `documents` and
`chunks` (`ingest/store/document_store.py`). The first two live in memory and are saved to disk as a
whole. Embedding vectors are left out.

Each operation that goes outside the process can fail, as a function `Faults` says; it then raises
and changes nothing. So every operation is **atomic** (`Exc.Atomic`): it has its effect, a function
on `Stores`, or it raises and leaves the stores alone. For each document, `faissIds`, `bm25Ids` and
`chunkRowIds` are the chunk ids that the stores hold.
-/

namespace AuditFlow

open Foundation

/-- The metadata that the vector store keeps with a chunk. -/
structure ChunkMetadata where
  chunkId : String
  documentId : String
  documentTitle : String
  companyName : String
  counterpartyName : String
  contractType : String
  identitySource : String
  identityConfidence : String
  selfDeclaredHint : String
  rawTitle : String
  chunkIndexInDoc : ℕ
  isPreamble : Bool
  rawChunkText : String
  deriving DecidableEq, Repr

/-- An entry of the vector store. -/
structure FaissEntry where
  id : String
  text : String
  metadata : ChunkMetadata
  deriving DecidableEq, Repr

structure Stores where
  /-- `None` until the first `add`. -/
  faiss : Option (List FaissEntry) := none
  faissDisk : Option (List FaissEntry) := none
  bm25 : Dict String ChunkRecord := .empty
  bm25Disk : Option (Dict String ChunkRecord) := none
  /-- The table `documents`, without chunks. -/
  documents : Dict String DocumentRecord := .empty
  /-- The table `chunks`. -/
  chunks : Dict String ChunkRecord := .empty
  /-- The counter `index:version`. -/
  indexVersion : ℕ := 0

/-- What goes outside the process. -/
inductive IngestOp
  | getDocument
  | getChunkIds
  | faissDelete
  | embed
  | faissAdd
  | faissSave
  | bm25Save
  | upsertDocumentRow
  | deleteChunks
  | insertChunks
  | deleteDocumentRow
  | bumpIndexVersion
  deriving DecidableEq, Repr

/-- The operations that write to a store. -/
def IngestOp.isStoreWrite : IngestOp → Bool
  | faissDelete | faissAdd | faissSave | bm25Save | upsertDocumentRow | deleteChunks
  | insertChunks | deleteDocumentRow => true
  | _ => false

/-- Which operations fail, and with which exception. -/
abbrev Faults : Type := IngestOp → Option PyError

/-- Nothing fails. -/
def Faults.none : Faults := fun _ => .none

/-- Only `op` fails. -/
def Faults.only (op : IngestOp) (e : PyError) : Faults :=
  fun op' => if op' = op then some e else .none

/-- An operation that may fail. -/
def attempt {α : Type} (faults : Faults) (op : IngestOp) (x : Exc PyError Stores α) :
    Exc PyError Stores α :=
  match faults op with
  | some e => Exc.raise e
  | none => x

namespace Stores

/-- The entries of the vector store, none if there is no store. -/
def faissEntries (s : Stores) : List FaissEntry := s.faiss.getD []

/-! ### Effects -/

def setFaiss (s : Stores) (store : List FaissEntry) : Stores := { s with faiss := some store }

/-- FAISS without some ids. -/
def withoutFaiss (ids : List String) (s : Stores) : Stores :=
  { s with faiss := s.faiss.map (List.filter fun e => e.id ∉ ids) }

/-- FAISS with new entries; an id that is there already is skipped. -/
def withFaiss (entries : List FaissEntry) (s : Stores) : Stores :=
  { s with faiss := some (s.faissEntries ++
      entries.filter fun e => e.id ∉ s.faissEntries.map (·.id)) }

def savedFaiss (s : Stores) : Stores := { s with faissDisk := s.faiss }

def withoutBm25 (ids : List String) (s : Stores) : Stores := { s with bm25 := s.bm25.eraseAll ids }

def withBm25 (chunks : List ChunkRecord) (s : Stores) : Stores :=
  { s with bm25 := s.bm25.setAll (·.chunkId) id chunks }

def savedBm25 (s : Stores) : Stores := { s with bm25Disk := some s.bm25 }

/-- `INSERT … ON CONFLICT (document_id) DO UPDATE`. -/
def withDocument (record : DocumentRecord) (s : Stores) : Stores :=
  { s with documents := s.documents.set record.documentId { record with chunks := [] } }

/-- `DELETE FROM documents`; the chunks of the document go with it. -/
def withoutDocument (documentId : String) (s : Stores) : Stores :=
  { s with
    documents := s.documents.erase documentId
    chunks := s.chunks.filter fun _ chunk => decide (chunk.documentId ≠ documentId) }

def withoutChunks (ids : List String) (s : Stores) : Stores :=
  { s with chunks := s.chunks.eraseAll ids }

/-- `INSERT … ON CONFLICT (chunk_id) DO NOTHING`. -/
def insertChunk (rows : Dict String ChunkRecord) (chunk : ChunkRecord) : Dict String ChunkRecord :=
  if rows.contains chunk.chunkId then rows else rows.set chunk.chunkId chunk

def withChunks (chunks : List ChunkRecord) (s : Stores) : Stores :=
  { s with chunks := chunks.foldl insertChunk s.chunks }

/-- The foreign key lets a chunk in only with the row of its document. -/
def insertedChunks (chunks : List ChunkRecord) (s : Stores) : Except PyError Stores :=
  if ∀ chunk ∈ chunks, s.documents.contains chunk.documentId = true then .ok (s.withChunks chunks)
  else .error {
    cls := .ingestionError
    message := "Postgres query failed"
    detail := [("pg_error", "insert or update violates a foreign key constraint")] }

def bumped (s : Stores) : Stores := { s with indexVersion := s.indexVersion + 1 }

/-! ### Reading -/

/-- `SELECT * FROM chunks WHERE document_id = …`. -/
def chunkRows (s : Stores) (documentId : String) : Dict String ChunkRecord :=
  s.chunks.filter fun _ chunk => decide (chunk.documentId = documentId)

/-- `ORDER BY chunk_index`. -/
def inOrderOfIndex (chunks : List ChunkRecord) : List ChunkRecord :=
  chunks.mergeSort fun a b => decide (a.chunkIndex ≤ b.chunkIndex)

/-- A row of `documents` with the chunks of a document in order. -/
def withChunkRows (s : Stores) (documentId : String) (row : DocumentRecord) : DocumentRecord :=
  { row with chunks := inOrderOfIndex (s.chunkRows documentId).values }

/-- The row of a document with its chunks. -/
def document (s : Stores) (documentId : String) : Option DocumentRecord :=
  (s.documents.get? documentId).map (s.withChunkRows documentId)

end Stores

/-! ### The vector store -/

/-- `FAISS.delete`. -/
def faissStoreDelete (store : List FaissEntry) (ids : List String) :
    Except PyError (List FaissEntry) :=
  if ∀ id ∈ ids, id ∈ store.map (·.id) then .ok (store.filter fun e => e.id ∉ ids)
  else .error { cls := .valueError
                message := "Some specified ids do not exist in the current store." }

/-- `FAISS.add_embeddings`, and `FAISS.from_embeddings` on an empty store. -/
def faissStoreAdd (store entries : List FaissEntry) : Except PyError (List FaissEntry) :=
  if ¬(entries.map (·.id)).Nodup then
    .error { cls := .valueError, message := "Duplicate ids found in the ids list." }
  else if ∃ e ∈ entries, e.id ∈ store.map (·.id) then
    .error { cls := .valueError, message := "Tried to add ids that already exist." }
  else .ok (store ++ entries)

section

variable (faults : Faults)

/-! ### `FaissIndex` -/

/-- `FaissIndex.delete`. -/
def faissDelete (ids : List String) : Exc PyError Stores Unit := fun s =>
  match s.faiss with
  | none => (.ok (), s)
  | some store =>
    if ids = [] then (.ok (), s)
    else attempt faults .faissDelete (Exc.modifyExcept fun s =>
      (faissStoreDelete store ids).map fun store => s.setFaiss store) s

/-- `FaissIndex.add` of entries that are not there yet. -/
def faissAddTo (store entries : List FaissEntry) : Exc PyError Stores Unit :=
  attempt faults .faissAdd (Exc.modifyExcept fun s =>
    (faissStoreAdd store entries).map fun store => s.setFaiss store)

/-- `FaissIndex.add`; it is not called without entries. -/
def faissAdd (entries : List FaissEntry) : Exc PyError Stores Unit := fun s =>
  match s.faiss with
  | none => faissAddTo faults [] entries s
  | some store =>
    -- ids that are there already are skipped, so that a retry does not fail on them
    let keep := entries.filter fun e => e.id ∉ store.map (·.id)
    if keep = [] then (.ok (), s) else faissAddTo faults store keep s

/-- `FaissIndex.save`; `indexDir` only shows in the message. -/
def faissSave (indexDir : String) : Exc PyError Stores Unit := fun s =>
  match s.faiss with
  | none => (.error {
      cls := .runtimeError
      message := s!"No FAISS index at {indexDir} yet -- call add() to create one " ++
        "or run the initial build_index.py." }, s)
  | some _ => attempt faults .faissSave (Exc.modify Stores.savedFaiss) s

/-! ### `Bm25Index` -/

/-- `Bm25Index.delete`. -/
def bm25Delete (ids : List String) : Exc PyError Stores Unit :=
  Exc.modify (Stores.withoutBm25 ids)

/-- `Bm25Index.add`. -/
def bm25Add (chunks : List ChunkRecord) : Exc PyError Stores Unit :=
  Exc.modify (Stores.withBm25 chunks)

/-- `Bm25Index.save`. -/
def bm25Save : Exc PyError Stores Unit := attempt faults .bm25Save (Exc.modify Stores.savedBm25)

/-! ### `document_store` -/

/-- `get_document`. -/
def getDocument (documentId : String) : Exc PyError Stores (Option DocumentRecord) :=
  attempt faults .getDocument (Exc.reads fun s => s.document documentId)

/-- `get_chunk_ids_for_document`. -/
def getChunkIdsForDocument (documentId : String) : Exc PyError Stores (List String) :=
  attempt faults .getChunkIds (Exc.reads fun s => (s.chunkRows documentId).keys)

/-- `upsert_document_row`. -/
def upsertDocumentRow (record : DocumentRecord) : Exc PyError Stores Unit :=
  attempt faults .upsertDocumentRow (Exc.modify (Stores.withDocument record))

/-- `delete_document_row`. -/
def deleteDocumentRow (documentId : String) : Exc PyError Stores Unit :=
  attempt faults .deleteDocumentRow (Exc.modify (Stores.withoutDocument documentId))

/-- `delete_chunks`. -/
def deleteChunks (ids : List String) : Exc PyError Stores Unit :=
  if ids = [] then pure ()
  else attempt faults .deleteChunks (Exc.modify (Stores.withoutChunks ids))

/-- `insert_chunks`. -/
def insertChunks (chunks : List ChunkRecord) : Exc PyError Stores Unit :=
  if chunks = [] then pure ()
  else attempt faults .insertChunks (Exc.modifyExcept (Stores.insertedChunks chunks))

/-- `bump_index_version`. -/
def bumpIndexVersion : Exc PyError Stores Unit :=
  attempt faults .bumpIndexVersion (Exc.modify Stores.bumped)

/-! ### Every operation is atomic -/

variable {faults}

theorem attempt_apply {α : Type} (op : IngestOp) (x : Exc PyError Stores α) (s : Stores) :
    attempt faults op x s = match faults op with
      | some e => (.error e, s)
      | none => x s := by
  rw [attempt]
  cases faults op with
  | some e => rfl
  | none => rfl

private theorem atomic_attempt_modify (op : IngestOp) (f : Stores → Stores) :
    Exc.Atomic (attempt faults op (Exc.modify f)) f := by
  intro s
  rw [attempt_apply]
  cases faults op with
  | some e => exact Or.inr ⟨e, rfl⟩
  | none => exact Or.inl rfl

theorem atomic_bm25Delete (ids : List String) :
    Exc.Atomic (bm25Delete ids) (Stores.withoutBm25 ids) := fun _ => Or.inl rfl

theorem atomic_bm25Add (chunks : List ChunkRecord) :
    Exc.Atomic (bm25Add chunks) (Stores.withBm25 chunks) := fun _ => Or.inl rfl

theorem atomic_bm25Save : Exc.Atomic (bm25Save faults) Stores.savedBm25 :=
  atomic_attempt_modify _ _

theorem atomic_upsertDocumentRow (record : DocumentRecord) :
    Exc.Atomic (upsertDocumentRow faults record) (Stores.withDocument record) :=
  atomic_attempt_modify _ _

theorem atomic_deleteDocumentRow (documentId : String) :
    Exc.Atomic (deleteDocumentRow faults documentId) (Stores.withoutDocument documentId) :=
  atomic_attempt_modify _ _

theorem atomic_faissSave (indexDir : String) :
    Exc.Atomic (faissSave faults indexDir) Stores.savedFaiss := by
  intro s
  rw [faissSave]
  cases s.faiss with
  | none => exact Or.inr ⟨_, rfl⟩
  | some store => exact atomic_attempt_modify _ _ s

@[simp] theorem withoutFaiss_nil (s : Stores) : s.withoutFaiss [] = s := by
  obtain ⟨faiss, _, _, _, _, _, _⟩ := s
  cases faiss with
  | none => rfl
  | some store => simp [Stores.withoutFaiss]

theorem withoutFaiss_of_none {s : Stores} (h : s.faiss = none) (ids : List String) :
    s.withoutFaiss ids = s := by
  obtain ⟨faiss, _, _, _, _, _, _⟩ := s
  obtain rfl : faiss = none := h
  rfl

/-- `FaissIndex.delete` fails for an id that is not there. -/
theorem faissDelete_ok_iff {ids : List String} {s : Stores} :
    (faissDelete faults ids s).1 = .ok () ↔ ids = [] ∨ s.faiss = none ∨
      faults .faissDelete = none ∧ ∀ id ∈ ids, id ∈ s.faissEntries.map (·.id) := by
  rw [faissDelete, Stores.faissEntries]
  rcases hfaiss : s.faiss with - | store
  · simp
  · rcases eq_or_ne ids [] with rfl | hids
    · simp
    · simp only [hids, if_false, Option.getD_some, reduceCtorEq, false_or, attempt_apply]
      rcases faults .faissDelete with - | e
      · rw [faissStoreDelete, Exc.modifyExcept]
        split_ifs with hpresent
        · simpa [Except.map] using hpresent
        · simpa [Except.map] using hpresent
      · simp

theorem atomic_faissDelete (ids : List String) :
    Exc.Atomic (faissDelete faults ids) (Stores.withoutFaiss ids) := by
  intro s
  rw [faissDelete]
  rcases hfaiss : s.faiss with - | store
  · rw [withoutFaiss_of_none hfaiss]
    exact Or.inl rfl
  · rcases eq_or_ne ids [] with rfl | hids
    · refine Or.inl ?_
      rw [withoutFaiss_nil]
      rfl
    · simp only [hids, if_false, attempt_apply]
      rcases faults .faissDelete with - | e
      · rw [faissStoreDelete]
        split_ifs with hpresent
        · refine Or.inl ((Exc.modifyExcept_of_ok rfl).trans ?_)
          rw [Stores.withoutFaiss, hfaiss]
          rfl
        · exact Or.inr ⟨_, Exc.modifyExcept_of_error rfl⟩
      · exact Or.inr ⟨e, rfl⟩

/-- Adding new entries to the store itself fails for a fault, or if ids repeat. -/
private theorem faissAddTo_cases {store entries : List FaissEntry}
    (hnew : ∀ e ∈ entries, e.id ∉ store.map (·.id)) (s : Stores) :
    (faissAddTo faults store entries s = (.ok (), s.setFaiss (store ++ entries))) ∨
      (∃ e, faissAddTo faults store entries s = (.error e, s)) ∧
        (faults .faissAdd ≠ none ∨ ¬(entries.map (·.id)).Nodup) := by
  rw [faissAddTo, attempt_apply]
  rcases faults .faissAdd with - | e
  · have hnone : ¬∃ e ∈ entries, e.id ∈ store.map (·.id) := fun ⟨e, he, hmem⟩ => hnew e he hmem
    by_cases hnodup : (entries.map (·.id)).Nodup
    · have hadd : faissStoreAdd store entries = .ok (store ++ entries) := by
        rw [faissStoreAdd, if_neg (not_not.mpr hnodup), if_neg hnone]
      exact Or.inl (Exc.modifyExcept_of_ok (by rw [hadd]; rfl))
    · obtain ⟨e, hadd⟩ : ∃ e, faissStoreAdd store entries = .error e := ⟨_, if_pos hnodup⟩
      refine Or.inr ⟨⟨e, Exc.modifyExcept_of_error ?_⟩, Or.inr hnodup⟩
      rw [hadd]
      rfl
  · exact Or.inr ⟨⟨e, rfl⟩, Or.inl (Option.some_ne_none e)⟩

/-- `FaissIndex.add` skips what is there, so that it fails for a fault, or if ids repeat. -/
private theorem faissAdd_cases (entries : List FaissEntry) (s : Stores) :
    (faissAdd faults entries s = (.ok (), s.withFaiss entries)) ∨
      (∃ e, faissAdd faults entries s = (.error e, s)) ∧
        (faults .faissAdd ≠ none ∨ ¬(entries.map (·.id)).Nodup) := by
  rw [faissAdd, Stores.withFaiss, Stores.faissEntries]
  rcases hfaiss : s.faiss with - | store
  · have hall : entries.filter (fun e => e.id ∉ ([] : List FaissEntry).map (·.id)) = entries := by
      simp
    rw [Option.getD_none, hall]
    exact faissAddTo_cases (by simp) s
  · rw [Option.getD_some]
    by_cases hkeep : entries.filter (fun e => e.id ∉ store.map (·.id)) = []
    · refine Or.inl ?_
      simp only [hkeep, if_true, List.append_nil]
      rw [← hfaiss]
    · simp only [hkeep, if_false]
      have hnew : ∀ e ∈ entries.filter (fun e => e.id ∉ store.map (·.id)),
          e.id ∉ store.map (·.id) := fun e he => of_decide_eq_true (List.mem_filter.mp he).2
      refine (faissAddTo_cases hnew s).imp_right fun h => ⟨h.1, h.2.imp_right fun hdup h => hdup ?_⟩
      exact h.sublist (List.filter_sublist.map _)

theorem faissAdd_ok {entries : List FaissEntry} (hnodup : (entries.map (·.id)).Nodup)
    (h : faults .faissAdd = none) (s : Stores) : (faissAdd faults entries s).1 = .ok () := by
  rcases faissAdd_cases entries s with hok | ⟨-, hfault | hdup⟩
  · rw [hok]
  · exact absurd h hfault
  · exact absurd hnodup hdup

/-- **New entries** fail for a fault only; without any, the store is not asked. -/
theorem faissAdd_ok_iff {entries : List FaissEntry} (hnodup : (entries.map (·.id)).Nodup)
    (hne : entries ≠ []) {s : Stores} : (faissAdd faults entries s).1 = .ok () ↔
      faults .faissAdd = none ∨ ∀ e ∈ entries, e.id ∈ s.faissEntries.map (·.id) := by
  rcases hfault : faults .faissAdd with - | error
  · exact iff_of_true (faissAdd_ok hnodup hfault s) (Or.inl rfl)
  · have hraises : ∀ store new, (faissAddTo faults store new s).1 ≠ .ok () := by
      intro store new
      rw [faissAddTo, attempt_apply, hfault]
      exact fun h => nomatch h
    simp only [reduceCtorEq, false_or]
    rw [faissAdd, Stores.faissEntries]
    rcases s.faiss with - | store
    · refine iff_of_false (hraises [] entries) fun hall => ?_
      obtain ⟨e, he⟩ := List.exists_mem_of_ne_nil entries hne
      exact absurd (hall e he) List.not_mem_nil
    · rw [Option.getD_some]
      dsimp only
      split_ifs with hkeep
      · refine iff_of_true rfl fun e he => ?_
        have hnot := List.filter_eq_nil_iff.mp hkeep e he
        rwa [decide_eq_true_eq, not_not] at hnot
      · refine iff_of_false (hraises store _) fun hall => hkeep ?_
        refine List.filter_eq_nil_iff.mpr fun e he hnot => ?_
        exact of_decide_eq_true hnot (hall e he)

theorem atomic_faissAdd (entries : List FaissEntry) :
    Exc.Atomic (faissAdd faults entries) (Stores.withFaiss entries) :=
  fun s => (faissAdd_cases entries s).imp_right And.left

theorem faissSave_ok_iff {indexDir : String} {s : Stores} :
    (faissSave faults indexDir s).1 = .ok () ↔ s.faiss ≠ none ∧ faults .faissSave = none := by
  rw [faissSave]
  rcases s.faiss with - | store
  · simp
  · simp only [attempt_apply]
    rcases faults .faissSave with - | e
    · simp
    · simp

private theorem attempt_modify_ok_iff {op : IngestOp} {f : Stores → Stores} {s : Stores} :
    (attempt faults op (Exc.modify f) s).1 = .ok () ↔ faults op = none := by
  rw [attempt_apply]
  rcases faults op with - | e
  · simp
  · simp

theorem bm25Save_ok_iff {s : Stores} : (bm25Save faults s).1 = .ok () ↔ faults .bm25Save = none :=
  attempt_modify_ok_iff

theorem upsertDocumentRow_ok_iff {record : DocumentRecord} {s : Stores} :
    (upsertDocumentRow faults record s).1 = .ok () ↔ faults .upsertDocumentRow = none :=
  attempt_modify_ok_iff

theorem deleteDocumentRow_ok_iff {documentId : String} {s : Stores} :
    (deleteDocumentRow faults documentId s).1 = .ok () ↔ faults .deleteDocumentRow = none :=
  attempt_modify_ok_iff

theorem deleteChunks_ok_iff {ids : List String} {s : Stores} :
    (deleteChunks faults ids s).1 = .ok () ↔ ids = [] ∨ faults .deleteChunks = none := by
  rw [deleteChunks]
  split_ifs with hids
  · simp [hids]
  · rw [attempt_modify_ok_iff]
    simp [hids]

/-- Chunks whose documents are there can be inserted. -/
theorem insertChunks_ok_iff {chunks : List ChunkRecord} {s : Stores}
    (h : ∀ chunk ∈ chunks, s.documents.contains chunk.documentId = true) :
    (insertChunks faults chunks s).1 = .ok () ↔ chunks = [] ∨ faults .insertChunks = none := by
  rw [insertChunks]
  split_ifs with hchunks
  · simp [hchunks]
  · rw [attempt_apply]
    rcases faults .insertChunks with - | e
    · have hinsert : s.insertedChunks chunks = .ok (s.withChunks chunks) := if_pos h
      exact iff_of_true (congrArg Prod.fst (Exc.modifyExcept_of_ok hinsert)) (Or.inr rfl)
    · simp [hchunks]

theorem atomic_deleteChunks (ids : List String) :
    Exc.Atomic (deleteChunks faults ids) (Stores.withoutChunks ids) := by
  intro s
  rw [deleteChunks]
  split_ifs with hids
  · exact Or.inl (by rw [hids]; rfl)
  · exact atomic_attempt_modify _ _ s

theorem atomic_insertChunks (chunks : List ChunkRecord) :
    Exc.Atomic (insertChunks faults chunks) (Stores.withChunks chunks) := by
  intro s
  rw [insertChunks]
  split_ifs with hchunks
  · exact Or.inl (by rw [hchunks]; rfl)
  · rw [attempt_apply]
    rcases faults .insertChunks with - | e
    · by_cases hrows : ∀ chunk ∈ chunks, s.documents.contains chunk.documentId = true
      · exact Or.inl (Exc.modifyExcept_of_ok (if_pos hrows))
      · exact Or.inr ⟨_, Exc.modifyExcept_of_error (if_neg hrows)⟩
    · exact Or.inr ⟨e, rfl⟩

end

end AuditFlow
