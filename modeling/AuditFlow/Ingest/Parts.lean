import AuditFlow.Ingest.Locality
import AuditFlow.Ingest.Registry

/-!
# Documents are independent

An update that returns is a function on the part of its document alone (`DocumentPart.ingest`), and
leaves the parts of all other documents as they are (`part_of_insert`). Several runs can thus be
compared **document by document**.
-/

namespace AuditFlow

open Foundation

/-- The update of a table. -/
def updatedRows (diff : DocumentDiff) (rows : Dict String ChunkRecord) : Dict String ChunkRecord :=
  (rows.eraseAll diff.toDelete).setAll (·.chunkId) id diff.toAdd

namespace DocumentPart

/-- The record is stored already, as far as its hash tells. -/
def HasVersion (part : DocumentPart) (record : DocumentRecord) : Prop :=
  ∃ row, part.row = some row ∧ row.contentHash = record.contentHash

instance (part : DocumentPart) (record : DocumentRecord) : Decidable (part.HasVersion record) :=
  decidable_of_iff (part.row.any fun row => decide (row.contentHash = record.contentHash)) (by
    rw [HasVersion, Option.any_eq_true]
    simp only [decide_eq_true_eq])

/-- A part after an update that adds and deletes the chunks of `diff`. -/
def write (part : DocumentPart) (record : DocumentRecord) (diff : DocumentDiff) : DocumentPart where
  row := some { record with chunks := [] }
  chunkRows := updatedRows diff part.chunkRows
  bm25 := updatedRows diff part.bm25
  faiss := part.faiss.filter (fun e => e.id ∉ diff.toDelete) ++ diff.toAdd.map (faissEntryOf record)

/-- An update, on the part of its document. -/
def ingest (env : IngestEnv) (record : DocumentRecord) (part : DocumentPart) :
    IngestResult × DocumentPart :=
  if part.HasVersion record then
    ({ documentId := record.documentId, addedChunks := 0, deletedChunks := 0
       unchangedChunks := part.chunkRows.keys.length, wasNoop := true }, part)
  else
    ((documentDiff env record part.chunkRows.keys).result record,
      part.write record (documentDiff env record part.chunkRows.keys))

end DocumentPart

section

variable {env : IngestEnv} {s s' : Stores} {contract : Contract}
  {identity : Option DocumentIdentity} {record : DocumentRecord} {result : IngestResult}

theorem idsIn_eq (rows : Dict String ChunkRecord) (documentId : String) :
    idsIn rows documentId = (rowsOf rows documentId).keys.toFinset := rfl

/-! ### One table -/

section

variable {ledger : Ledger env} {rows : Dict String ChunkRecord}

/-- The chunks that are added belong to the document. -/
private theorem documentId_of_mem_toAdd (hrecord : recordOf env contract identity = some record)
    {chunk : ChunkRecord} (hchunk : chunk ∈ (s.diffFor env record).toAdd) :
    chunk.documentId = record.documentId :=
  (chunk_owned hrecord (mem_chunks_of_mem_toAdd hchunk)).1

private theorem rowsOf_updated_self (ha : Agrees (⟨s, ledger⟩ : IngestState env))
    (hrecord : recordOf env contract identity = some record)
    (hrows : idsIn rows = ledger.chunkIds) :
    rowsOf (updatedRows (s.diffFor env record) rows) record.documentId =
      updatedRows (s.diffFor env record) (rowsOf rows record.documentId) := by
  have hnew : ∀ chunk ∈ (s.diffFor env record).toAdd,
      chunk.chunkId ∉ (rows.eraseAll (s.diffFor env record).toDelete).keys :=
    fun chunk hchunk => notMem_keys_of_toAdd ha hrecord hrows hchunk
  have hown : ∀ chunk ∈ (s.diffFor env record).toAdd,
      decide (chunk.documentId = record.documentId) = true :=
    fun chunk hchunk => decide_eq_true (documentId_of_mem_toAdd hrecord hchunk)
  have hnodup : ((s.diffFor env record).toAdd.map (·.chunkId)).Nodup := nodup_toAdd_chunkIds
  rw [rowsOf, updatedRows, Dict.filter_setAll_of_pass hnodup hnew hown, Dict.filter_eraseAll]
  rfl

/-! ### FAISS -/

/-- The entries after an update. -/
private theorem faissEntries_written (ha : Agrees (⟨s, ledger⟩ : IngestState env))
    (hrecord : recordOf env contract identity = some record) :
    (Exc.stage (writeEffects record (s.diffFor env record)) s 9).faissEntries =
      s.faissEntries.filter (fun e => e.id ∉ (s.diffFor env record).toDelete) ++
        (s.diffFor env record).toAdd.map (faissEntryOf record) := by
  rw [Stores.faissEntries, stage_faiss (by omega) (le_refl 9), ← Stores.faissEntries, addedToFaiss]
  split_ifs with hnil
  · rw [hnil, List.map_nil, List.append_nil, Stores.faissEntries_withoutFaiss]
  · -- what is added is not there, so none of it is skipped
    have hkeep : ((s.diffFor env record).toAdd.map (faissEntryOf record)).filter (fun e => e.id ∉
        (s.withoutFaiss (s.diffFor env record).toDelete).faissEntries.map (·.id)) =
        (s.diffFor env record).toAdd.map (faissEntryOf record) := by
      refine List.filter_eq_self.mpr fun e he => decide_eq_true ?_
      obtain ⟨chunk, hchunk, rfl⟩ := List.mem_map.mp he
      exact notMem_faiss_of_toAdd ha hrecord hchunk
    rw [Stores.faissEntries_withFaiss, hkeep, Stores.faissEntries_withoutFaiss]

/-- The entries of the document after an update. -/
private theorem filter_faissEntries_written (ha : Agrees (⟨s, ledger⟩ : IngestState env))
    (hrecord : recordOf env contract identity = some record) :
    (Exc.stage (writeEffects record (s.diffFor env record)) s 9).faissEntries.filter
        (fun e => e.metadata.documentId = record.documentId) =
      (s.faissEntries.filter fun e => e.metadata.documentId = record.documentId).filter
          (fun e => e.id ∉ (s.diffFor env record).toDelete) ++
        (s.diffFor env record).toAdd.map (faissEntryOf record) := by
  rw [faissEntries_written ha hrecord, List.filter_append, List.filter_comm]
  have hown : ((s.diffFor env record).toAdd.map (faissEntryOf record)).filter
      (fun e => e.metadata.documentId = record.documentId) =
      (s.diffFor env record).toAdd.map (faissEntryOf record) := by
    refine List.filter_eq_self.mpr fun e he => decide_eq_true ?_
    obtain ⟨chunk, hchunk, rfl⟩ := List.mem_map.mp he
    rfl
  rw [hown]

end

/-! ### Updates by parts -/

/-- **An update is a function on the part of its document**, and leaves the others alone. -/
theorem part_of_insert (h : s.Consistent env)
    (hrecord : recordOf env contract identity = some record)
    (hrun : insertOrUpdateDocument env Faults.none contract identity s = (.ok result, s')) :
    (s.part record.documentId).ingest env record = (result, s'.part record.documentId) ∧
      ∀ d, d ≠ record.documentId → s'.part d = s.part d := by
  obtain ⟨ledger, ha⟩ := h
  have hothers : ∀ d, d ≠ record.documentId → s'.part d = s.part d := by
    obtain ⟨-, -, hid, -⟩ := buildDocumentRecord_eq_some hrecord
    have htouches : TouchesOnly (documentIdFor env contract.title) s
        (insertOrUpdateDocument env Faults.none contract identity s).2 :=
      touchesOnly_insert contract identity s
    rw [hrun, ← hid] at htouches
    exact (htouches ha.filed).2
  refine ⟨?_, hothers⟩
  have hexit : InsertExit env Faults.none contract identity s _ _ :=
    insertOrUpdateDocument_exit contract identity s
  rw [hrun] at hexit
  dsimp only at hexit
  cases hexit with
  | noop hrecord' hversion =>
    obtain rfl := Option.some.inj (hrecord.symm.trans hrecord')
    have hstored : (s.part record.documentId).HasVersion record := hversion
    rw [DocumentPart.ingest, if_pos hstored]
    rfl
  | written hrecord' hversion =>
    obtain rfl := Option.some.inj (hrecord.symm.trans hrecord')
    have hnew : ¬(s.part record.documentId).HasVersion record := hversion
    have hdocuments : (Exc.stage (writeEffects record (s.diffFor env record)) s 9).documents =
        s.documents.set record.documentId { record with chunks := [] } :=
      stage_documents (by omega) (le_refl 9)
    have hchunks := chunks_written ha hrecord
    have hbm25 : (Exc.stage (writeEffects record (s.diffFor env record)) s 9).bm25 =
        (s.bm25.eraseAll (s.diffFor env record).toDelete).setAll (·.chunkId) id
          (s.diffFor env record).toAdd := stage_nine_bm25
    have hfaiss := filter_faissEntries_written ha hrecord
    generalize Exc.stage (writeEffects record (s.diffFor env record)) s 9 = t at *
    have hpart : t.bumped.part record.documentId =
        { row := (s.documents.set record.documentId { record with chunks := [] }).get?
            record.documentId
          chunkRows := rowsOf (updatedRows (s.diffFor env record) s.chunks) record.documentId
          bm25 := rowsOf (updatedRows (s.diffFor env record) s.bm25) record.documentId
          faiss := t.faissEntries.filter fun e => e.metadata.documentId = record.documentId } := by
      rw [updatedRows, updatedRows, ← hchunks, ← hbm25, ← hdocuments]
      rfl
    rw [DocumentPart.ingest, if_neg hnew, hpart, hfaiss, rowsOf_updated_self ha hrecord ha.chunks,
      rowsOf_updated_self ha hrecord ha.bm25, Dict.get?_set_self]
    rfl

/-! ### Sound stores -/

/-- What is in memory is on disk, and there is no row before there is a FAISS store. -/
structure Stores.Settled (s : Stores) : Prop where
  faiss : s.faissDisk = s.faiss
  bm25 : s.bm25Disk.getD .empty = s.bm25
  fresh : s.faiss = none → s.documents = .empty

/-- What holds of the stores after calls that return, over texts whose hashes differ. -/
structure Stores.Sound (env : IngestEnv) (texts : List String) (s : Stores) : Prop where
  invariant : ∃ ledger : Ledger env, IngestInvariant texts (⟨s, ledger⟩ : IngestState env)
  settled : s.Settled

/-- After an update that returns there is a FAISS store. -/
theorem Stores.Settled.faiss_ne_none (h : s.Settled)
    (hrun : insertOrUpdateDocument env Faults.none contract identity s = (.ok result, s')) :
    s'.faiss ≠ none := by
  have hexit : InsertExit env Faults.none contract identity s _ _ :=
    insertOrUpdateDocument_exit contract identity s
  rw [hrun] at hexit
  dsimp only at hexit
  cases hexit with
  | noop _ hversion =>
    intro hnone
    obtain ⟨row, hrow, -⟩ := hversion
    rw [h.fresh hnone] at hrow
    cases hrow
  | @written record _ _ hsteps =>
    intro hnone
    have hfaiss : (Exc.stage (writeEffects record (s.diffFor env record)) s 9).faiss = none := hnone
    rw [stage_faiss (by omega) (le_refl 9), ← stage_faiss (le_refl 2) (by omega)] at hfaiss
    exact absurd hfaiss (faissSave_ok_iff.mp (hsteps 2 _ rfl)).1

theorem Stores.Settled.serve (h : s.Settled) {call : IngestCall}
    (hcall : serve env s call = some s') : s'.Settled := by
  cases call with
  | insertOrUpdate contract identity =>
    obtain ⟨result, hrun⟩ := serve_insert_eq_some.mp hcall
    have hexit : InsertExit env Faults.none contract identity s _ _ :=
      insertOrUpdateDocument_exit contract identity s
    rw [hrun] at hexit
    dsimp only at hexit
    have hstore := h.faiss_ne_none hrun
    cases hexit with
    | noop => exact h
    | written => exact ⟨rfl, rfl, fun hnone => absurd hnone hstore⟩
  | delete documentId =>
    have hexit : DeleteExit env Faults.none documentId s _ _ := deleteDocument_exit documentId s
    rw [serve_delete_eq_some.mp hcall] at hexit
    dsimp only at hexit
    cases hexit with
    | erased _ _ hsteps =>
      exact ⟨rfl, rfl, fun hnone => absurd hnone (faissSave_ok_iff.mp (hsteps 1 _ rfl)).1⟩

section

variable {texts : List String}

theorem Stores.Sound.consistent (h : s.Sound env texts) : s.Consistent env := by
  obtain ⟨ledger, hinv⟩ := h.invariant
  exact ⟨ledger, hinv.agrees⟩

theorem Stores.Sound.serve
    (hinj : ∀ a ∈ texts, ∀ b ∈ texts, contentHash env a = contentHash env b → a = b)
    (h : s.Sound env texts) {call : IngestCall} (hwithin : call.Within texts)
    (hcall : serve env s call = some s') : s'.Sound env texts := by
  obtain ⟨ledger, hinv⟩ := h.invariant
  obtain ⟨ledger', hstep⟩ := ingestStep_of_serve ledger hcall
  exact ⟨⟨ledger', hinv.step hinj hwithin rfl hstep⟩, h.settled.serve hcall⟩

/-- **Every run of calls that return** leads from empty stores to sound ones. -/
theorem sound_of_reach
    (hinj : ∀ a ∈ texts, ∀ b ∈ texts, contentHash env a = contentHash env b → a = b)
    (h : ReachWhere (serve env) (fun _ call => call.Within texts) {} s) : s.Sound env texts := by
  refine h.invariant ⟨⟨_, agrees_empty env, fun _ _ h => nomatch h⟩, rfl, rfl, fun _ => rfl⟩ ?_
  exact fun _ _ _ hs hwithin hcall => hs.serve hinj hwithin hcall

/-- After an update, the stored chunks of the document are those of the contract. -/
theorem Stores.Sound.chunkRowIds_insert
    (hinj : ∀ a ∈ texts, ∀ b ∈ texts, contentHash env a = contentHash env b → a = b)
    (h : s.Sound env texts)
    (hwithin : (IngestCall.insertOrUpdate contract identity).Within texts)
    (hrecord : recordOf env contract identity = some record)
    (hrun : insertOrUpdateDocument env Faults.none contract identity s = (.ok result, s')) :
    s'.chunkRowIds record.documentId = record.chunkIds.toFinset := by
  obtain ⟨ledger, ha, hin⟩ := h.invariant
  have hexit : InsertExit env Faults.none contract identity s _ _ :=
    insertOrUpdateDocument_exit contract identity s
  rw [hrun] at hexit
  dsimp only at hexit
  cases hexit with
  | noop hrecord' hversion =>
    obtain rfl := Option.some.inj (hrecord.symm.trans hrecord')
    rw [← chunkIds_of_hasVersion ha hin hinj hwithin hrecord hversion, ← ha.chunks]
  | written hrecord' =>
    obtain rfl := Option.some.inj (hrecord.symm.trans hrecord')
    obtain ⟨-, -, hid, -⟩ := buildDocumentRecord_eq_some hrecord
    refine (congrFun (agrees_written ha hrecord).chunks record.documentId).trans ?_
    rw [Ledger.chunkIds_record, hid, Function.update_self, contractChunkIds_eq hrecord]

/-- A stored version comes with its chunks. -/
theorem Stores.Sound.chunkRowIds_of_hasVersion
    (hinj : ∀ a ∈ texts, ∀ b ∈ texts, contentHash env a = contentHash env b → a = b)
    (h : s.Sound env texts)
    (hwithin : (IngestCall.insertOrUpdate contract identity).Within texts)
    (hrecord : recordOf env contract identity = some record) (hversion : s.hasVersion record) :
    s.chunkRowIds record.documentId = record.chunkIds.toFinset := by
  obtain ⟨ledger, ha, hin⟩ := h.invariant
  rw [← chunkIds_of_hasVersion ha hin hinj hwithin hrecord hversion, ← ha.chunks]

end

end

/-! ### Bare parts -/

namespace DocumentPart

/-- There is no chunk of the document. -/
structure Bare (part : DocumentPart) : Prop where
  chunkRows : part.chunkRows = .empty
  bm25 : part.bm25 = .empty
  faiss : part.faiss = []

variable {env : IngestEnv} {part part' : DocumentPart} {record : DocumentRecord}

/-- What a new version makes of a bare part does not depend on its row. -/
theorem ingest_congr (h : part.Bare) (h' : part'.Bare) (hnew : ¬part.HasVersion record)
    (hnew' : ¬part'.HasVersion record) : part.ingest env record = part'.ingest env record := by
  rw [ingest, ingest, if_neg hnew, if_neg hnew', write, write, h.chunkRows, h'.chunkRows, h.bm25,
    h'.bm25, h.faiss, h'.faiss]

private theorem diff_of_nil (env : IngestEnv) (record : DocumentRecord) :
    (documentDiff env record []).toDelete = [] ∧
    (documentDiff env record []).unchanged = [] := by
  constructor
  · refine List.eq_nil_iff_forall_not_mem.mpr fun k hk => ?_
    exact List.not_mem_nil (mem_toDelete.mp hk).1
  · rw [← List.toFinset_eq_empty_iff, toFinset_unchanged, List.toFinset_nil, Finset.inter_empty]

/-- An update that neither deletes nor keeps a chunk found none. -/
private theorem eq_nil_of_diff {old : List String}
    (hdelete : (documentDiff env record old).toDelete = [])
    (hkeep : (documentDiff env record old).unchanged = []) : old = [] := by
  refine List.eq_nil_iff_forall_not_mem.mpr fun k hk => ?_
  have hkept : (documentDiff env record old).unchanged.toFinset =
      record.chunkIds.toFinset ∩ old.toFinset := toFinset_unchanged
  have hnot : k ∉ record.chunkIds.toFinset ∩ old.toFinset := by
    rw [← hkept, hkeep]
    exact List.not_mem_nil
  by_cases hmem : k ∈ record.chunkIds
  · exact hnot (Finset.mem_inter.mpr ⟨List.mem_toFinset.mpr hmem, List.mem_toFinset.mpr hk⟩)
  · have hdeleted : k ∈ (documentDiff env record old).toDelete := mem_toDelete.mpr ⟨hk, hmem⟩
    rw [hdelete] at hdeleted
    exact List.not_mem_nil hdeleted

/-- **The result of an update tells** whether the document had chunks. -/
theorem result_ne (env : IngestEnv) (h : part.Bare) (hnew : ¬part.HasVersion record)
    (h' : part'.chunkRows.keys ≠ []) :
    (part.ingest env record).1 ≠ (part'.ingest env record).1 := by
  obtain ⟨hdelete, hkeep⟩ := diff_of_nil env record
  have hkeys : part.chunkRows.keys = [] := by
    rw [h.chunkRows]
    rfl
  rw [ingest, if_neg hnew, hkeys, ingest]
  split_ifs with hversion
  · intro hsame
    exact Bool.false_ne_true (congrArg IngestResult.wasNoop hsame)
  · intro hsame
    have hdeleted : (documentDiff env record []).toDelete.length =
        (documentDiff env record part'.chunkRows.keys).toDelete.length :=
      congrArg IngestResult.deletedChunks hsame
    have hkept : (documentDiff env record []).unchanged.length =
        (documentDiff env record part'.chunkRows.keys).unchanged.length :=
      congrArg IngestResult.unchangedChunks hsame
    rw [hdelete] at hdeleted
    rw [hkeep] at hkept
    exact h' (eq_nil_of_diff (List.length_eq_zero_iff.mp hdeleted.symm)
      (List.length_eq_zero_iff.mp hkept.symm))

end DocumentPart

section

variable {env : IngestEnv} {s : Stores} {d : String}

theorem bare_part_iff (h : s.InStep) : (s.part d).Bare ↔ s.chunkRowIds d = ∅ := by
  have hempty {rows : Dict String ChunkRecord} (hids : idsIn rows d = ∅) :
      rowsOf rows d = .empty := by
    rw [idsIn_eq, List.toFinset_eq_empty_iff] at hids
    exact Dict.eq_of_entries (List.map_eq_nil_iff.mp hids)
  constructor
  · intro hbare
    have hrows : rowsOf s.chunks d = .empty := hbare.chunkRows
    rw [Stores.chunkRowIds, idsIn_eq, hrows]
    rfl
  · intro hnone
    have hbm25 : s.bm25Ids d = ∅ := by rw [h.bm25, hnone]
    have hfaiss : s.faissIds d = ∅ := by rw [h.faiss, hnone]
    rw [Stores.faissIds, List.toFinset_eq_empty_iff, List.map_eq_nil_iff] at hfaiss
    exact ⟨hempty hnone, hempty hbm25, hfaiss⟩

end

end AuditFlow
