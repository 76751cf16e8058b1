import AuditFlow.Ingest.Ledger

/-!
# The three stores agree

`Agrees` is the refinement invariant between the stores and the ledger: FAISS, BM25 and Postgres all
hold exactly the catalog, and the rows of `documents` have the hashes of the latest contracts. **It
survives every call that returns, and every call that aborts before it has changed the stored
chunks** (`harmless`). The incremental update of each store is the rebuild of the catalog. Hence
`stores_agree` for runs without failures.
-/

namespace AuditFlow

open Foundation

/-! ### The invariant -/

/-- The stores hold what the ledger says. -/
structure Agrees {env : IngestEnv} (s : IngestState env) : Prop where
  faiss : s.stores.faissIds = s.ledger.chunkIds
  bm25 : s.stores.bm25Ids = s.ledger.chunkIds
  chunks : s.stores.chunkRowIds = s.ledger.chunkIds
  nodup : (s.stores.faissEntries.map (·.id)).Nodup
  versions : ∀ d, (s.stores.documents.get? d).map (·.contentHash) =
    ((s.ledger.latest d).bind fun contract => truthy contract.context).map (contentHash env)

/-- The texts of the ledger are among the given ones. -/
def Ledger.Within {env : IngestEnv} (texts : List String) (ledger : Ledger env) : Prop :=
  ∀ d contract, ledger.latest d = some contract →
    ∃ context, truthy contract.context = some context ∧ context ∈ texts

/-- In memory and in Postgres, nothing has changed. -/
structure SameContents (s s' : Stores) : Prop where
  faiss : s'.faiss = s.faiss
  bm25 : s'.bm25 = s.bm25
  documents : s'.documents = s.documents
  chunks : s'.chunks = s.chunks

section

variable {env : IngestEnv} {s : IngestState env} {contract : Contract}
  {identity : Option DocumentIdentity} {record : DocumentRecord} {texts : List String}

theorem agrees_empty (env : IngestEnv) : Agrees (IngestState.empty env) where
  faiss := rfl
  bm25 := rfl
  chunks := rfl
  nodup := List.nodup_nil
  versions _ := rfl

theorem Agrees.inStep (ha : Agrees s) : s.stores.InStep :=
  ⟨ha.faiss.trans ha.chunks.symm, ha.bm25.trans ha.chunks.symm⟩

theorem SameContents.agrees {stores : Stores} (h : SameContents s.stores stores) (ha : Agrees s) :
    Agrees ⟨stores, s.ledger⟩ where
  faiss := by
    rw [← ha.faiss]
    funext d
    simp only [Stores.faissIds, Stores.faissEntries, h.faiss]
  bm25 := by
    rw [← ha.bm25]
    funext d
    simp only [Stores.bm25Ids, h.bm25]
  chunks := by
    rw [← ha.chunks]
    funext d
    simp only [Stores.chunkRowIds, h.chunks]
  nodup := by
    have hnodup := ha.nodup
    rw [Stores.faissEntries] at hnodup ⊢
    rw [h.faiss]
    exact hnodup
  versions d := by
    rw [h.documents]
    exact ha.versions d

/-! ### A call that returns -/

/-- A new key of a document is nowhere in the ledger. -/
private theorem notMem_chunkIds_of_toAdd (ha : Agrees s)
    (hrecord : recordOf env contract identity = some record) {chunk : ChunkRecord}
    (hchunk : chunk ∈ (s.stores.diffFor env record).toAdd) (d : String) :
    chunk.chunkId ∉ s.ledger.chunkIds d := by
  intro hmem
  obtain rfl : record.documentId = d := by
    rw [← s.ledger.catalog.owned hmem,
      (chunk_owned hrecord (mem_chunks_of_mem_toAdd hchunk)).2]
  rw [← ha.chunks] at hmem
  exact (mem_toAdd_chunkIds.mp (List.mem_map_of_mem hchunk)).2 (List.mem_toFinset.mp hmem)

private theorem toFinset_toDelete_eq (ha : Agrees s) :
    (s.stores.diffFor env record).toDelete.toFinset =
      s.ledger.chunkIds record.documentId \ record.chunkIds.toFinset := by
  rw [Stores.diffFor, toFinset_toDelete, ← ha.chunks]
  rfl

private theorem toFinset_toAdd_eq (ha : Agrees s) :
    ((s.stores.diffFor env record).toAdd.map (·.chunkId)).toFinset =
      record.chunkIds.toFinset \ s.ledger.chunkIds record.documentId := by
  rw [Stores.diffFor, toFinset_toAdd, ← ha.chunks]
  rfl

/-- **The incremental update of a store is the rebuild of the ledger's catalog.** -/
private theorem add_remove_chunkIds (ha : Agrees s) :
    Catalog.add (Catalog.remove s.ledger.chunkIds (s.stores.diffFor env record).toDelete.toFinset)
        record.documentId ((s.stores.diffFor env record).toAdd.map (·.chunkId)).toFinset =
      Function.update s.ledger.chunkIds record.documentId record.chunkIds.toFinset := by
  rw [toFinset_toDelete_eq ha, toFinset_toAdd_eq ha]
  exact s.ledger.catalog.add_remove_diff record.documentId record.chunkIds.toFinset

private theorem faissIds_addedToFaiss {t : Stores} {toAdd : List ChunkRecord}
    (hnew : ∀ chunk ∈ toAdd, chunk.chunkId ∉ t.faissEntries.map (·.id)) :
    (addedToFaiss record toAdd t).faissIds =
      Catalog.add t.faissIds record.documentId (toAdd.map (·.chunkId)).toFinset := by
  rw [addedToFaiss]
  split_ifs with hnil
  · rw [hnil, Catalog.add, List.map_nil, List.toFinset_nil, Finset.union_empty,
      Function.update_eq_self]
  · have hids : (toAdd.map (faissEntryOf record)).map (·.id) = toAdd.map (·.chunkId) := by
      rw [List.map_map]
      rfl
    rw [← hids]
    refine Stores.faissIds_withFaiss ?_ ?_
    · intro e he
      obtain ⟨chunk, hchunk, rfl⟩ := List.mem_map.mp he
      exact hnew chunk hchunk
    · intro e he
      obtain ⟨chunk, hchunk, rfl⟩ := List.mem_map.mp he
      rfl

/-- New chunks are not in FAISS, with or without the deleted ones. -/
theorem notMem_faiss_of_toAdd (ha : Agrees s)
    (hrecord : recordOf env contract identity = some record) {ids : List String}
    {chunk : ChunkRecord} (hchunk : chunk ∈ (s.stores.diffFor env record).toAdd) :
    chunk.chunkId ∉ (s.stores.withoutFaiss ids).faissEntries.map (·.id) := by
  intro hmem
  obtain ⟨e, he, hid⟩ := List.mem_map.mp hmem
  rw [Stores.faissEntries_withoutFaiss] at he
  refine notMem_chunkIds_of_toAdd ha hrecord hchunk e.metadata.documentId ?_
  rw [← ha.faiss]
  exact Stores.mem_faissIds.mpr ⟨e, (List.mem_filter.mp he).1, hid, rfl⟩

private theorem faissIds_written (ha : Agrees s)
    (hrecord : recordOf env contract identity = some record) :
    (Exc.stage (writeEffects record (s.stores.diffFor env record)) s.stores 9).faissIds =
      Function.update s.ledger.chunkIds record.documentId record.chunkIds.toFinset := by
  have hfaiss :
      (Exc.stage (writeEffects record (s.stores.diffFor env record)) s.stores 9).faissIds =
      (addedToFaiss record (s.stores.diffFor env record).toAdd
        (s.stores.withoutFaiss (s.stores.diffFor env record).toDelete)).faissIds := by
    funext d
    simp only [Stores.faissIds, Stores.faissEntries, stage_faiss (by omega) (le_refl 9)]
  rw [hfaiss, faissIds_addedToFaiss fun chunk hchunk => notMem_faiss_of_toAdd ha hrecord hchunk,
    Stores.faissIds_withoutFaiss, ha.faiss]
  exact add_remove_chunkIds ha

/-- New chunks are not among the rows of a table that holds the catalog. -/
theorem notMem_keys_of_toAdd (ha : Agrees s)
    (hrecord : recordOf env contract identity = some record) {rows : Dict String ChunkRecord}
    (hrows : idsIn rows = s.ledger.chunkIds) {ids : List String} {chunk : ChunkRecord}
    (hchunk : chunk ∈ (s.stores.diffFor env record).toAdd) :
    chunk.chunkId ∉ (rows.eraseAll ids).keys := by
  intro hmem
  obtain ⟨row, hrow⟩ := Dict.mem_keys_iff.mp hmem
  rw [Dict.get?_eraseAll] at hrow
  split_ifs at hrow
  refine notMem_chunkIds_of_toAdd ha hrecord hchunk row.documentId ?_
  rw [← hrows]
  exact mem_idsIn.mpr ⟨row, hrow, rfl⟩

/-- The incremental update of a table. -/
private theorem idsIn_written (ha : Agrees s)
    (hrecord : recordOf env contract identity = some record) {rows : Dict String ChunkRecord}
    (hrows : idsIn rows = s.ledger.chunkIds) :
    idsIn ((rows.eraseAll (s.stores.diffFor env record).toDelete).setAll (·.chunkId) id
        (s.stores.diffFor env record).toAdd) =
      Function.update s.ledger.chunkIds record.documentId record.chunkIds.toFinset := by
  rw [idsIn_setAll (fun chunk hchunk => notMem_keys_of_toAdd ha hrecord hrows hchunk)
    fun chunk hchunk => (chunk_owned hrecord (mem_chunks_of_mem_toAdd hchunk)).1,
    idsIn_eraseAll, hrows]
  exact add_remove_chunkIds ha

private theorem bm25Ids_written (ha : Agrees s)
    (hrecord : recordOf env contract identity = some record) :
    (Exc.stage (writeEffects record (s.stores.diffFor env record)) s.stores 9).bm25Ids =
      Function.update s.ledger.chunkIds record.documentId record.chunkIds.toFinset := by
  rw [← idsIn_written ha hrecord ha.bm25, ← stage_nine_bm25]
  rfl

/-- The table `chunks` after a call that writes a contract. -/
theorem chunks_written (ha : Agrees s) (hrecord : recordOf env contract identity = some record) :
    (Exc.stage (writeEffects record (s.stores.diffFor env record)) s.stores 9).chunks =
      (s.stores.chunks.eraseAll (s.stores.diffFor env record).toDelete).setAll (·.chunkId) id
        (s.stores.diffFor env record).toAdd := by
  rw [stage_nine_chunks]
  exact foldl_insertChunk nodup_toAdd_chunkIds
    fun chunk hchunk => notMem_keys_of_toAdd ha hrecord ha.chunks hchunk

private theorem chunkRowIds_written (ha : Agrees s)
    (hrecord : recordOf env contract identity = some record) :
    (Exc.stage (writeEffects record (s.stores.diffFor env record)) s.stores 9).chunkRowIds =
      Function.update s.ledger.chunkIds record.documentId record.chunkIds.toFinset := by
  rw [← idsIn_written ha hrecord ha.chunks, ← chunks_written ha hrecord]
  rfl

private theorem nodup_written (ha : Agrees s) : ((Exc.stage (writeEffects record
    (s.stores.diffFor env record)) s.stores 9).faissEntries.map (·.id)).Nodup := by
  have hremoved := Stores.nodup_withoutFaiss ha.nodup (s.stores.diffFor env record).toDelete
  rw [Stores.faissEntries, stage_faiss (by omega) (le_refl 9), ← Stores.faissEntries, addedToFaiss]
  split_ifs with hnil
  · exact hremoved
  · refine Stores.nodup_withFaiss hremoved ?_
    rw [List.map_map]
    exact nodup_toAdd_chunkIds

/-- The rows of `documents` follow the ledger. -/
private theorem versions_record (hcontext : ∃ context, truthy contract.context = some context ∧
      record.contentHash = contentHash env context)
    (hid : record.documentId = documentIdFor env contract.title)
    {documents : Dict String DocumentRecord}
    (hversions : ∀ d, (documents.get? d).map (·.contentHash) =
      ((s.ledger.latest d).bind fun contract => truthy contract.context).map (contentHash env))
    (d : String) :
    ((documents.set record.documentId { record with chunks := [] }).get? d).map (·.contentHash) =
      (((s.ledger.record contract).latest d).bind fun contract => truthy contract.context).map
        (contentHash env) := by
  obtain ⟨context, hcontext, hhash⟩ := hcontext
  rw [Dict.get?_set]
  split_ifs with hd
  · rw [hd, hid, Ledger.latest_record_self, Option.bind_some, hcontext]
    exact congrArg some hhash
  · rw [Ledger.latest_record_of_ne s.ledger (hid ▸ hd)]
    exact hversions d

/-- **A call that writes a contract keeps the agreement.** -/
theorem agrees_written (ha : Agrees s) (hrecord : recordOf env contract identity = some record) :
    Agrees ⟨(Exc.stage (writeEffects record (s.stores.diffFor env record)) s.stores 9).bumped,
      s.ledger.record contract⟩ := by
  obtain ⟨context, hcontext, hid, hhash, -⟩ := buildDocumentRecord_eq_some hrecord
  have hledger : (s.ledger.record contract).chunkIds =
      Function.update s.ledger.chunkIds record.documentId record.chunkIds.toFinset := by
    rw [Ledger.chunkIds_record, contractChunkIds_eq hrecord, hid]
  refine ⟨?_, ?_, ?_, ?_, fun d => ?_⟩
  · exact (faissIds_written ha hrecord).trans hledger.symm
  · exact (bm25Ids_written ha hrecord).trans hledger.symm
  · exact (chunkRowIds_written ha hrecord).trans hledger.symm
  · exact nodup_written ha
  · have hdocuments : (Exc.stage (writeEffects record (s.stores.diffFor env record)) s.stores
        9).bumped.documents = _ := stage_documents (by omega) (le_refl 9)
    rw [hdocuments]
    exact versions_record ⟨context, hcontext, hhash⟩ hid ha.versions d

/-- A stored version has the text of the latest contract. -/
theorem latest_of_hasVersion (ha : Agrees s) (hin : s.ledger.Within texts)
    (hinj : ∀ a ∈ texts, ∀ b ∈ texts, contentHash env a = contentHash env b → a = b)
    (hwithin : (IngestCall.insertOrUpdate contract identity).Within texts)
    (hrecord : recordOf env contract identity = some record)
    (hversion : s.stores.hasVersion record) :
    ∃ contract₀, s.ledger.latest record.documentId = some contract₀ ∧
      truthy contract₀.context = truthy contract.context := by
  obtain ⟨context, hcontext, -, hhash, -⟩ := buildDocumentRecord_eq_some hrecord
  obtain ⟨row, hrow, hsame⟩ := hversion
  have hversions := ha.versions record.documentId
  rw [hrow, Option.map_some, hsame, hhash] at hversions
  obtain ⟨context₀, hbind, hhash₀⟩ := Option.map_eq_some_iff.mp hversions.symm
  obtain ⟨contract₀, hlatest, hcontext₀⟩ := Option.bind_eq_some_iff.mp hbind
  obtain ⟨context₁, hcontext₁, hmem⟩ := hin _ _ hlatest
  obtain rfl := Option.some.inj (hcontext₀.symm.trans hcontext₁)
  refine ⟨contract₀, hlatest, ?_⟩
  rw [hcontext₀, hcontext, hinj _ hmem _ (hwithin context hcontext) hhash₀]

/-- **A no-op is sound**: the contract has the chunk ids of the ledger already. -/
theorem chunkIds_of_hasVersion (ha : Agrees s) (hin : s.ledger.Within texts)
    (hinj : ∀ a ∈ texts, ∀ b ∈ texts, contentHash env a = contentHash env b → a = b)
    (hwithin : (IngestCall.insertOrUpdate contract identity).Within texts)
    (hrecord : recordOf env contract identity = some record)
    (hversion : s.stores.hasVersion record) :
    s.ledger.chunkIds record.documentId = record.chunkIds.toFinset := by
  -- the latest contract may have another title, but it has the same text and document id
  obtain ⟨contract₀, hlatest, hcontext⟩ :=
    latest_of_hasVersion ha hin hinj hwithin hrecord hversion
  obtain ⟨-, -, hid, -⟩ := buildDocumentRecord_eq_some hrecord
  have htitle : documentIdFor env contract₀.title = documentIdFor env contract.title := by
    rw [s.ledger.keyed hlatest, hid]
  rw [Ledger.chunkIds, hlatest]
  dsimp only
  rw [contractChunkIds_congr hcontext htitle, contractChunkIds_eq hrecord]

theorem agrees_noop (ha : Agrees s) (hin : s.ledger.Within texts)
    (hinj : ∀ a ∈ texts, ∀ b ∈ texts, contentHash env a = contentHash env b → a = b)
    (hwithin : (IngestCall.insertOrUpdate contract identity).Within texts)
    (hrecord : recordOf env contract identity = some record)
    (hversion : s.stores.hasVersion record) :
    Agrees ⟨s.stores, s.ledger.record contract⟩ := by
  obtain ⟨contract₀, hlatest, hcontext⟩ :=
    latest_of_hasVersion ha hin hinj hwithin hrecord hversion
  obtain ⟨-, -, hid, -⟩ := buildDocumentRecord_eq_some hrecord
  have hledger : (s.ledger.record contract).chunkIds = s.ledger.chunkIds := by
    rw [Ledger.chunkIds_record, ← hid, contractChunkIds_eq hrecord,
      ← chunkIds_of_hasVersion ha hin hinj hwithin hrecord hversion, Function.update_eq_self]
  refine ⟨?_, ?_, ?_, ha.nodup, fun d => ?_⟩
  · exact ha.faiss.trans hledger.symm
  · exact ha.bm25.trans hledger.symm
  · exact ha.chunks.trans hledger.symm
  · rw [ha.versions d]
    rcases eq_or_ne d record.documentId with rfl | hne
    · rw [hlatest, Option.bind_some, hcontext, hid, Ledger.latest_record_self, Option.bind_some]
    · rw [Ledger.latest_record_of_ne s.ledger (hid ▸ hne)]

/-- **A call that deletes a document keeps the agreement.** -/
theorem agrees_erased (ha : Agrees s) {documentId : String} {chunkIds : List String}
    (hids : chunkIds.toFinset = s.stores.chunkRowIds documentId) :
    Agrees ⟨(Exc.stage (eraseEffects documentId chunkIds) s.stores 5).bumped,
      s.ledger.remove documentId⟩ := by
  have hkeys : chunkIds.toFinset = s.ledger.chunkIds documentId := by
    rw [hids, ha.chunks]
  have hremove : Catalog.remove s.ledger.chunkIds chunkIds.toFinset =
      (s.ledger.remove documentId).chunkIds := by
    rw [hkeys, Ledger.chunkIds_remove]
    exact s.ledger.catalog.remove_all documentId
  refine ⟨?_, ?_, ?_, Stores.nodup_withoutFaiss ha.nodup chunkIds, fun d => ?_⟩
  · rw [← hremove, ← ha.faiss]
    exact Stores.faissIds_withoutFaiss s.stores chunkIds
  · rw [← hremove, ← ha.bm25]
    exact idsIn_eraseAll s.stores.bm25 chunkIds
  · rw [Ledger.chunkIds_remove, ← ha.chunks]
    exact idsIn_filter_ne s.stores.chunks documentId
  · have hdocuments : (Exc.stage (eraseEffects documentId chunkIds) s.stores 5).bumped.documents =
        s.stores.documents.erase documentId := rfl
    rw [hdocuments, Dict.get?_erase]
    split_ifs with hd
    · rw [hd, Ledger.latest_remove_self]
      rfl
    · rw [Ledger.latest_remove_of_ne s.ledger hd]
      exact ha.versions d

/-! ### A call that aborts -/

/-- When `insert_or_update_document` fails at a write, either the write is not needed, or no write
before it changes chunks: `old` are the stored chunk ids, and `new` those of the contract. -/
def nothingWrittenBefore (old new : Finset String) : IngestOp → Bool
  | .embed | .faissAdd => decide (old ⊆ new) || decide (new ⊆ old)
  | .faissSave | .bm25Save | .upsertDocumentRow => decide (old = new)
  | .deleteChunks => decide (old ⊆ new)
  | .insertChunks => decide (new ⊆ old)
  | _ => true

/-- When `delete_document` fails at a write, no write before it changes chunks: `old` are the stored
chunk ids. -/
def nothingErasedBefore (old : Finset String) : IngestOp → Bool
  | .faissSave | .bm25Save | .deleteDocumentRow => decide (old = ∅)
  | _ => true

/-- A write that fails is the first one of its call that changes the chunks of a store, or there is
nothing to change. -/
def harmless (env : IngestEnv) (s : Stores) (l : IngestLabel) : Bool :=
  match l.fault with
  | none => true
  | some (op, _) =>
    op.isStoreWrite &&
      match l.call with
      | .insertOrUpdate contract identity =>
        (recordOf env contract identity).all fun record =>
          nothingWrittenBefore (s.chunkRowIds record.documentId) record.chunkIds.toFinset op
      | .delete documentId => nothingErasedBefore (s.chunkRowIds documentId) op

/-- Without anything to add or delete, the writes up to the row of the document change nothing. -/
theorem sameContents_stage {t : Stores} {diff : DocumentDiff} (hdelete : diff.toDelete = [])
    (hadd : diff.toAdd = []) {k : ℕ} (hk : k ≤ 6) :
    SameContents t (Exc.stage (writeEffects record diff) t k) := by
  obtain ⟨toDelete, toAdd, _⟩ := diff
  obtain rfl : toDelete = [] := hdelete
  obtain rfl : toAdd = [] := hadd
  have hfaiss : (t.withoutFaiss []).faiss = t.faiss := congrArg Stores.faiss (withoutFaiss_nil t)
  match k, hk with
  | 0, _ => exact ⟨rfl, rfl, rfl, rfl⟩
  | 1, _ | 2, _ | 3, _ | 4, _ | 5, _ | 6, _ => exact ⟨hfaiss, rfl, rfl, rfl⟩

/-- The faults of a call are its one fault. -/
theorem fault_of_faults_ne_none {l : IngestLabel} {op : IngestOp} (h : l.faults op ≠ none) :
    ∃ e, l.fault = some (op, e) := by
  rw [IngestLabel.faults] at h
  rcases hfault : l.fault with - | ⟨op', e⟩
  · rw [hfault] at h
    exact absurd rfl h
  · rw [hfault] at h
    simp only [Faults.only] at h
    split_ifs at h with hop
    · exact ⟨e, by rw [hop]⟩
    · exact absurd rfl h

private theorem nothingWrittenBefore_of_harmless {l : IngestLabel} {op : IngestOp}
    (hharmless : harmless env s.stores l = true)
    (hcall : l.call = .insertOrUpdate contract identity)
    (hrecord : recordOf env contract identity = some record) (hfault : l.faults op ≠ none) :
    op.isStoreWrite = true ∧ nothingWrittenBefore (s.stores.chunkRowIds record.documentId)
      record.chunkIds.toFinset op = true := by
  obtain ⟨e, he⟩ := fault_of_faults_ne_none hfault
  simp only [harmless, he, hcall, hrecord, Bool.and_eq_true, Option.all_some] at hharmless
  exact hharmless

/-- **A harmless abort changes nothing.** -/
theorem sameContents_of_writeFailure (ha : Agrees s) {l : IngestLabel}
    (hharmless : harmless env s.stores l = true)
    (hcall : l.call = .insertOrUpdate contract identity)
    (hrecord : recordOf env contract identity = some record) {k : ℕ}
    (hfails : WriteFailure l.faults (s.stores.diffFor env record) s.stores k) :
    SameContents s.stores
      (Exc.stage (writeEffects record (s.stores.diffFor env record)) s.stores k) := by
  have hbefore {op : IngestOp} (hfault : l.faults op ≠ none) :=
    nothingWrittenBefore_of_harmless hharmless hcall hrecord hfault
  have hnothing (hsame : s.stores.chunkRowIds record.documentId = record.chunkIds.toFinset) :
      (s.stores.diffFor env record).toDelete = [] ∧ (s.stores.diffFor env record).toAdd = [] :=
    ⟨toDelete_eq_nil_iff.mpr hsame.subset, toAdd_eq_nil_iff.mpr hsame.superset⟩
  cases hfails with
  | faissDelete => exact ⟨rfl, rfl, rfl, rfl⟩
  | faissAdd hne h =>
    -- something is added, so nothing was deleted before
    have hadd : l.faults .faissAdd ≠ none :=
      h.resolve_left fun hembed => absurd (hbefore hembed).1 Bool.false_ne_true
    have hdelete : (s.stores.diffFor env record).toDelete = [] := by
      rcases (Bool.or_eq_true _ _).mp (hbefore hadd).2 with hold | hnew
      · exact toDelete_eq_nil_iff.mpr (of_decide_eq_true hold)
      · exact absurd (toAdd_eq_nil_iff.mpr (of_decide_eq_true hnew)) hne
    have hstage : Exc.stage (writeEffects record (s.stores.diffFor env record)) s.stores 1 =
        s.stores := by
      rw [writeEffects, Exc.stage_cons_succ, hdelete, withoutFaiss_nil, Exc.stage_zero]
    rw [hstage]
    exact ⟨rfl, rfl, rfl, rfl⟩
  | faissSave h =>
    rcases h with ⟨hnone, hadd⟩ | hfault
    · exact sameContents_stage (toDelete_eq_nil_of_none ha.inStep hnone) hadd (by omega)
    · obtain ⟨hdelete, hadd⟩ := hnothing (of_decide_eq_true (hbefore hfault).2)
      exact sameContents_stage hdelete hadd (by omega)
  | bm25Save hfault | upsertDocumentRow hfault =>
    obtain ⟨hdelete, hadd⟩ := hnothing (of_decide_eq_true (hbefore hfault).2)
    exact sameContents_stage hdelete hadd (by omega)
  | deleteChunks hne hfault =>
    exact absurd (toDelete_eq_nil_iff.mpr (of_decide_eq_true (hbefore hfault).2)) hne
  | insertChunks hne hfault =>
    exact absurd (toAdd_eq_nil_iff.mpr (of_decide_eq_true (hbefore hfault).2)) hne

theorem sameContents_of_eraseFailure (ha : Agrees s) {l : IngestLabel} {documentId : String}
    (hharmless : harmless env s.stores l = true) (hcall : l.call = .delete documentId)
    {chunkIds : List String} (hids : chunkIds.toFinset = s.stores.chunkRowIds documentId)
    (hne : chunkIds ≠ []) {k : ℕ} (hfails : EraseFailure l.faults chunkIds s.stores k) :
    SameContents s.stores (Exc.stage (eraseEffects documentId chunkIds) s.stores k) := by
  have hrows : s.stores.chunkRowIds documentId ≠ ∅ := by
    rw [← hids]
    exact fun h => hne ((List.toFinset_eq_empty_iff _).mp h)
  have hbefore {op : IngestOp} (hfault : l.faults op ≠ none) :
      nothingErasedBefore (s.stores.chunkRowIds documentId) op = true := by
    obtain ⟨e, he⟩ := fault_of_faults_ne_none hfault
    simp only [harmless, he, hcall, Bool.and_eq_true] at hharmless
    exact hharmless.2
  cases hfails with
  | faissDelete => exact ⟨rfl, rfl, rfl, rfl⟩
  | faissSave h =>
    rcases h with hnone | hfault
    · exact absurd (ha.inStep.chunkRowIds_of_none hnone documentId) hrows
    · exact absurd (of_decide_eq_true (hbefore hfault)) hrows
  | bm25Save hfault | deleteDocumentRow hfault =>
    exact absurd (of_decide_eq_true (hbefore hfault)) hrows

/-! ### Runs -/

/-- The refinement invariant of a run. -/
structure IngestInvariant (texts : List String) (s : IngestState env) : Prop where
  agrees : Agrees s
  within : s.ledger.Within texts

theorem Ledger.within_record {ledger : Ledger env} (h : ledger.Within texts)
    (hwithin : (IngestCall.insertOrUpdate contract identity).Within texts)
    (hrecord : recordOf env contract identity = some record) :
    (ledger.record contract).Within texts := by
  obtain ⟨context, hcontext, -⟩ := buildDocumentRecord_eq_some hrecord
  intro d contract' hlatest
  rcases eq_or_ne d (documentIdFor env contract.title) with hd | hne
  · rw [hd, Ledger.latest_record_self] at hlatest
    obtain rfl := Option.some.inj hlatest
    exact ⟨context, hcontext, hwithin context hcontext⟩
  · rw [Ledger.latest_record_of_ne ledger hne] at hlatest
    exact h d contract' hlatest

theorem Ledger.within_remove {ledger : Ledger env} (h : ledger.Within texts)
    (documentId : String) : (ledger.remove documentId).Within texts := by
  intro d contract' hlatest
  rcases eq_or_ne d documentId with rfl | hne
  · rw [Ledger.latest_remove_self] at hlatest
    cases hlatest
  · rw [Ledger.latest_remove_of_ne ledger hne] at hlatest
    exact h d contract' hlatest

/-- The index version is not announced by a store write. -/
private theorem bump_not_harmless {l : IngestLabel} (hharmless : harmless env s.stores l = true) :
    l.faults .bumpIndexVersion = none := by
  by_contra hfault
  obtain ⟨e, he⟩ := fault_of_faults_ne_none hfault
  rw [harmless, he] at hharmless
  cases hharmless

/-- **One call keeps the invariant** if it aborts harmlessly or not at all. -/
theorem IngestInvariant.step (hinv : IngestInvariant texts s)
    (hinj : ∀ a ∈ texts, ∀ b ∈ texts, contentHash env a = contentHash env b → a = b)
    {l : IngestLabel} {s' : IngestState env} (hwithin : l.call.Within texts)
    (hharmless : harmless env s.stores l = true) (hstep : ingestStep env s l = some s') :
    IngestInvariant texts s' := by
  obtain ⟨ha, hin⟩ := hinv
  rw [ingestStep] at hstep
  rcases hcall : l.call with ⟨contract, identity⟩ | documentId
  · rw [hcall] at hstep hwithin
    dsimp only at hstep
    have hexit : InsertExit env l.faults contract identity s.stores _ _ :=
      insertOrUpdateDocument_exit contract identity s.stores
    rcases hrun : insertOrUpdateDocument env l.faults contract identity s.stores with ⟨r, stores⟩
    rw [hrun] at hstep hexit
    cases hexit with
    | noContext | readFault =>
      -- a call that raises leaves the ledger alone
      obtain rfl := Option.some.inj hstep
      exact ⟨ha, hin⟩
    | noop hrecord hversion =>
      obtain rfl := Option.some.inj hstep
      exact ⟨agrees_noop ha hin hinj hwithin hrecord hversion,
        Ledger.within_record hin hwithin hrecord⟩
    | aborted hrecord _ hx hfails =>
      obtain rfl := Option.some.inj hstep
      have hfailure := writeFailure_of_diffFor hrecord hx hfails
      exact ⟨(sameContents_of_writeFailure ha hharmless hcall hrecord hfailure).agrees ha, hin⟩
    | unannounced _ _ hfault => exact absurd (bump_not_harmless hharmless) hfault
    | written hrecord =>
      obtain rfl := Option.some.inj hstep
      exact ⟨agrees_written ha hrecord, Ledger.within_record hin hwithin hrecord⟩
  · rw [hcall] at hstep
    dsimp only at hstep
    have hexit : DeleteExit env l.faults documentId s.stores _ _ :=
      deleteDocument_exit documentId s.stores
    rcases hrun : deleteDocument env l.faults documentId s.stores with ⟨r, stores⟩
    rw [hrun] at hstep hexit
    cases hexit with
    | readFault | notFound =>
      obtain rfl := Option.some.inj hstep
      exact ⟨ha, hin⟩
    | aborted hids hne hx hfails =>
      obtain rfl := Option.some.inj hstep
      have hfailure : EraseFailure l.faults _ s.stores _ := eraseFailure_of_fails hx hfails
      exact ⟨(sameContents_of_eraseFailure ha hharmless hcall hids hne hfailure).agrees ha, hin⟩
    | unannounced _ _ hfault => exact absurd (bump_not_harmless hharmless) hfault
    | erased hids =>
      obtain rfl := Option.some.inj hstep
      exact ⟨agrees_erased ha hids, Ledger.within_remove hin documentId⟩

theorem invariant_of_reachWhere
    (hinj : ∀ a ∈ texts, ∀ b ∈ texts, contentHash env a = contentHash env b → a = b)
    (h : ReachWhere (ingestStep env)
      (fun s l => l.call.Within texts ∧ harmless env s.stores l = true) (.empty env) s) :
    IngestInvariant texts s :=
  h.invariant ⟨agrees_empty env, fun _ _ h => nomatch h⟩
    fun _ _ _ hinv hok hstep => hinv.step hinj hok.1 hok.2 hstep

end

/-! ### A sample environment -/

/-- Digests of the sample texts. -/
def sampleTexts : List (String × String) :=
  [("", "e3b0c44298fc1c149afbf4c8996fb92427ae41e4649b934ca495991b7852b855"),
   ("one", "7692c3ad3540bb803c020b3aee66cd8887123234ea0c6e7143c0add73ff431ed"),
   ("two", "3fc4ccfe745870e2c0d99f71f30ff0656c8dedd41cc1d7d3d376b0dbe685e2f3")]

/-- SHA-256 on the sample texts. -/
def sampleSha256 : Sha256 where
  hex text := (sampleTexts.lookup text).getD ""
  hex_isHexDigit {text c} h := by
    have hall : (sampleTexts.all fun entry => entry.2.toList.all isHexDigit) = true := by
      decide +kernel
    simp only [List.all_eq_true] at hall
    rcases hlookup : sampleTexts.lookup text with - | digest
    · rw [hlookup] at h
      cases h
    · rw [hlookup] at h
      obtain ⟨l₁, l₂, hsplit, -⟩ := List.lookup_eq_some_iff.mp hlookup
      refine hall (text, digest) ?_ c h
      rw [hsplit]
      exact List.mem_append_right l₁ List.mem_cons_self

/-- Short ASCII texts, of one chunk each. -/
def sampleEnv : IngestEnv where
  unicode := .ascii
  repr text := text.elim "None" fun text => s!"'{text}'"
  sha256 := sampleSha256
  setOrder := ⟨id, fun _ => .refl _⟩
  splitDocuments _ _ text := if text = "" then [] else [text]
  indexDir := "data/index"

/-- A contract whose text is `text`. -/
def sampleInsert (text : String) : IngestCall := .insertOrUpdate ⟨"Alpha", some text⟩ none

/-- What a failed write raises. -/
def writeRefused : PyError := { cls := .runtimeError, message := "write refused" }

/-- The sample texts have different hashes. -/
theorem sample_injective : ∀ a ∈ ["one", "two"], ∀ b ∈ ["one", "two"],
    contentHash sampleEnv a = contentHash sampleEnv b → a = b := by
  decide +kernel

/-- A call that ingests `text` into the reached stores, if it returns. -/
def ingested (s : IngestState sampleEnv) (text : String) : Option (IngestResult × Stores) :=
  match insertOrUpdateDocument sampleEnv Faults.none ⟨"Alpha", some text⟩ none s.stores with
  | (.ok result, stores) => some (result, stores)
  | (.error _, _) => none

private theorem run_of_ingested {s : IngestState sampleEnv} {text : String} {result : IngestResult}
    {stores : Stores} (h : ingested s text = some (result, stores)) :
    insertOrUpdateDocument sampleEnv Faults.none ⟨"Alpha", some text⟩ none s.stores =
      (.ok result, stores) := by
  rw [ingested] at h
  rcases hrun : insertOrUpdateDocument sampleEnv Faults.none ⟨"Alpha", some text⟩ none s.stores
    with ⟨e | result', stores'⟩
  · rw [hrun] at h
    cases h
  · rw [hrun] at h
    cases h
    rfl

/-! ### Runs without failures -/

/-- The stores hold the chunk ids of the latest contracts, each of them once. -/
structure StoresAgree {env : IngestEnv} (s : IngestState env) : Prop where
  same : ∀ d, s.stores.faissIds d = s.ledger.chunkIds d ∧
    s.stores.bm25Ids d = s.ledger.chunkIds d ∧ s.stores.chunkRowIds d = s.ledger.chunkIds d
  distinct : (s.stores.faissEntries.map (·.id)).Nodup ∧ s.stores.bm25.keys.Nodup ∧
    s.stores.chunks.keys.Nodup

/-- The counts of a result are those of the differences and of the intersection. -/
structure ExactCounts (old new : Finset String) (result : IngestResult) : Prop where
  added : result.addedChunks = (new \ old).card
  deleted : result.deletedChunks = (old \ new).card
  unchanged : result.unchangedChunks = (new ∩ old).card

section

variable {env : IngestEnv} {s : IngestState env} {contract : Contract}
  {identity : Option DocumentIdentity} {record : DocumentRecord} {texts : List String}

private theorem exactCounts_written (ha : Agrees s) :
    ExactCounts (s.ledger.chunkIds record.documentId) record.chunkIds.toFinset
      ((s.stores.diffFor env record).result record) where
  added := by
    have hadd : ((s.stores.diffFor env record).toAdd.map (·.chunkId)).toFinset =
        record.chunkIds.toFinset \ s.ledger.chunkIds record.documentId := toFinset_toAdd_eq ha
    have hnodup : ((s.stores.diffFor env record).toAdd.map (·.chunkId)).Nodup :=
      nodup_toAdd_chunkIds
    rw [← hadd, List.toFinset_card_of_nodup hnodup, List.length_map]
    rfl
  deleted := by
    have hdelete : (s.stores.diffFor env record).toDelete.toFinset =
        s.ledger.chunkIds record.documentId \ record.chunkIds.toFinset := toFinset_toDelete_eq ha
    have hnodup : (s.stores.diffFor env record).toDelete.Nodup :=
      nodup_toDelete (Dict.keys_nodup _)
    rw [← hdelete, List.toFinset_card_of_nodup hnodup]
    rfl
  unchanged := by
    have hunchanged : (s.stores.diffFor env record).unchanged.toFinset =
        record.chunkIds.toFinset ∩ s.ledger.chunkIds record.documentId := by
      rw [Stores.diffFor, toFinset_unchanged, ← ha.chunks]
      rfl
    have hnodup : (s.stores.diffFor env record).unchanged.Nodup := nodup_unchanged
    rw [← hunchanged, List.toFinset_card_of_nodup hnodup]
    rfl

private theorem exactCounts_noop (ha : Agrees s)
    (hids : s.ledger.chunkIds record.documentId = record.chunkIds.toFinset) :
    ExactCounts (s.ledger.chunkIds record.documentId) record.chunkIds.toFinset
      { documentId := record.documentId, addedChunks := 0, deletedChunks := 0
        unchangedChunks := (s.stores.chunkRows record.documentId).keys.length
        wasNoop := true } where
  added := by rw [hids, Finset.sdiff_self, Finset.card_empty]
  deleted := by rw [hids, Finset.sdiff_self, Finset.card_empty]
  unchanged := by
    rw [← hids, Finset.inter_self, ← ha.chunks]
    exact (List.toFinset_card_of_nodup (Dict.keys_nodup _)).symm

/-- **The stores agree** after every run without failures: for each document they hold exactly the
chunk ids of the contract that was ingested last, each once; and each call reports the sizes of
what it added, deleted and left. -/
theorem stores_agree
    (hinj : ∀ a ∈ texts, ∀ b ∈ texts, contentHash env a = contentHash env b → a = b)
    (h : ReachWhere (ingestStep env) (fun _ l => l.fault = none ∧ l.call.Within texts)
      (.empty env) s) :
    StoresAgree s ∧ ∀ contract identity result stores,
      (IngestCall.insertOrUpdate contract identity).Within texts →
      insertOrUpdateDocument env Faults.none contract identity s.stores = (.ok result, stores) →
        ExactCounts (s.ledger.chunkIds (documentIdFor env contract.title))
          (contractChunkIds env contract) result := by
  obtain ⟨ha, hin⟩ := invariant_of_reachWhere hinj <| h.mono fun s l hok => by
    refine ⟨hok.2, ?_⟩
    rw [harmless, hok.1]
  refine ⟨⟨fun d => ⟨congrFun ha.faiss d, congrFun ha.bm25 d, congrFun ha.chunks d⟩, ha.nodup,
    Dict.keys_nodup _, Dict.keys_nodup _⟩, ?_⟩
  intro contract identity result stores hwithin hrun
  have hexit : InsertExit env Faults.none contract identity s.stores _ _ :=
    insertOrUpdateDocument_exit contract identity s.stores
  rw [hrun] at hexit
  cases hexit with
  | noop hrecord hversion =>
    obtain ⟨-, -, hid, -⟩ := buildDocumentRecord_eq_some hrecord
    rw [← hid, contractChunkIds_eq hrecord]
    exact exactCounts_noop ha (chunkIds_of_hasVersion ha hin hinj hwithin hrecord hversion)
  | written hrecord =>
    obtain ⟨-, -, hid, -⟩ := buildDocumentRecord_eq_some hrecord
    rw [← hid, contractChunkIds_eq hrecord]
    exact exactCounts_written ha

end

/-- An insert, an update, a repeated update, a deletion and an insert again. -/
def changingRun : List IngestLabel :=
  [⟨sampleInsert "one", none⟩, ⟨sampleInsert "two", none⟩, ⟨sampleInsert "two", none⟩,
   ⟨.delete "alpha", none⟩, ⟨sampleInsert "one", none⟩]

/-- `stores_agree` at a run of inserts, updates and deletions, and at the update after it. -/
theorem stores_agree_changing :
    ∃ s result stores, execWhere (ingestStep sampleEnv)
        (fun _ l => l.fault = none ∧ l.call.Within ["one", "two"]) (.empty sampleEnv)
        changingRun = some s ∧ StoresAgree s ∧ ingested s "two" = some (result, stores) ∧
      ExactCounts (s.ledger.chunkIds (documentIdFor sampleEnv "Alpha"))
        (contractChunkIds sampleEnv ⟨"Alpha", some "two"⟩) result := by
  have hrun : (execWhere (ingestStep sampleEnv)
      (fun _ l => l.fault = none ∧ l.call.Within ["one", "two"]) (.empty sampleEnv)
      changingRun).any (fun s => (ingested s "two").isSome) = true := by
    decide +kernel
  obtain ⟨s, hs, hsome⟩ := (Option.any_eq_true _ _).mp hrun
  obtain ⟨⟨result, stores⟩, hresult⟩ := Option.isSome_iff_exists.mp hsome
  have hwithin : (IngestCall.insertOrUpdate ⟨"Alpha", some "two"⟩ none).Within ["one", "two"] := by
    decide +kernel
  obtain ⟨hagree, hcounts⟩ := stores_agree sample_injective (ReachWhere.start.exec hs)
  have hexact : ExactCounts (s.ledger.chunkIds (documentIdFor sampleEnv "Alpha"))
      (contractChunkIds sampleEnv ⟨"Alpha", some "two"⟩) result :=
    hcounts ⟨"Alpha", some "two"⟩ none result stores hwithin (run_of_ingested hresult)
  exact ⟨s, result, stores, hs, hagree, hresult, hexact⟩

end AuditFlow
