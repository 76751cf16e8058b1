import AuditFlow.Ingest.Locality

/-!
# When is a no-op sound?

`insert_or_update_document` has nothing to do if the hash of the text stands in the row of the
document already. The row is written in a transaction of its own, **before** the rows of the chunks
and after FAISS and BM25 have been changed, so that a call that aborts in between leaves a row that
says more, or less, than the stores hold.

`keepsNoopsSound` says of a call, from the state before it, whether no-ops stay sound. With a row,
what is stored must not have been changed yet when the call aborts. Without one, an abort does no
harm until the row is written; but from then on all chunks have to be there, and nothing that an
earlier call has left behind. `noops_sound_iff` says that this is all: **in every run the no-ops are
sound if and only if each call keeps them so**.
-/

namespace AuditFlow

open Foundation

/-! ### No-ops -/

/-- All three stores hold exactly these chunk ids of a document. -/
def HoldsIds (s : Stores) (documentId : String) (ids : Finset String) : Prop :=
  s.chunkRowIds documentId = ids ∧ s.bm25Ids documentId = ids ∧ s.faissIds documentId = ids

instance (s : Stores) (documentId : String) (ids : Finset String) :
    Decidable (HoldsIds s documentId ids) := inferInstanceAs (Decidable (_ ∧ _ ∧ _))

/-- All three stores hold exactly the chunk ids of a contract for its document. -/
def HoldsExactly (env : IngestEnv) (s : Stores) (contract : Contract) : Prop :=
  HoldsIds s (documentIdFor env contract.title) (contractChunkIds env contract)

instance (env : IngestEnv) (s : Stores) (contract : Contract) :
    Decidable (HoldsExactly env s contract) := inferInstanceAs (Decidable (HoldsIds _ _ _))

/-- Whatever is called next: if it is a no-op, the stores hold what the contract has. -/
def NoopsSound (env : IngestEnv) (texts : List String) (s : Stores) : Prop :=
  ∀ contract identity faults result stores,
    (IngestCall.insertOrUpdate contract identity).Within texts →
    insertOrUpdateDocument env faults contract identity s = (.ok result, stores) →
    result.wasNoop = true → HoldsExactly env stores contract

/-- The stores after a call, in which one operation may fail. -/
def storesStep (env : IngestEnv) (s : Stores) (l : IngestLabel) : Option Stores :=
  some (attemptCall env s ⟨l.call, l.faults⟩)

/-! ### What a call must not do -/

/-- The operation that fails. -/
def IngestLabel.failing (l : IngestLabel) : Option IngestOp := l.fault.map Prod.fst

/-- When `insert_or_update_document` fails at an operation and the document has no row yet, the row
is written all the same: `new` are the chunk ids of the contract, and `faiss` those that FAISS has
of the document. -/
def comesToRow (new faiss : Finset String) : IngestOp → Bool
  | .getDocument | .getChunkIds | .faissSave | .bm25Save | .upsertDocumentRow => false
  | .embed => decide (new = ∅)
  | .faissAdd => decide (new ⊆ faiss)
  | _ => true

/-- What a call that writes the first row of a document must find and do: FAISS and BM25 have no
other chunks of the document, and its own chunks go into Postgres. -/
def insertsCleanly (s : Stores) (documentId : String) (new : Finset String)
    (failing : Option IngestOp) : Bool :=
  decide (s.faissIds documentId ⊆ new) && decide (s.bm25Ids documentId ⊆ new) &&
    (decide (failing ≠ some .insertChunks) || decide (new = ∅))

/-- A call keeps no-ops sound. -/
def keepsNoopsSound (env : IngestEnv) (s : Stores) (l : IngestLabel) : Bool :=
  match l.call with
  | .insertOrUpdate contract identity =>
    (recordOf env contract identity).all fun record =>
      let new := record.chunkIds.toFinset
      if s.documents.contains record.documentId then
        l.failing.all (nothingWrittenBefore (s.chunkRowIds record.documentId) new)
      -- without a FAISS store, and with nothing to add to it, there is nothing to save
      else if l.failing.all (comesToRow new (s.faissIds record.documentId)) &&
          (s.faiss.isSome || decide (new ≠ ∅)) then
        insertsCleanly s record.documentId new l.failing
      else true
  | .delete documentId => l.failing.all (nothingErasedBefore (s.chunkRowIds documentId))

/-! ### One document -/

section

variable {env : IngestEnv} {s s' : Stores} {contract contract' : Contract}
  {identity : Option DocumentIdentity} {record : DocumentRecord} {texts : List String}
  {d context : String} {row : DocumentRecord}

/-- A contract whose text the row of the document has the hash of. -/
structure VersionOf (env : IngestEnv) (texts : List String) (d : String) (row : DocumentRecord)
    (contract : Contract) (context : String) : Prop where
  text : truthy contract.context = some context
  mem : context ∈ texts
  id : documentIdFor env contract.title = d
  hash : row.contentHash = contentHash env context

/-- The stores hold what the row of the document says, if there is one. -/
def RowSound (env : IngestEnv) (texts : List String) (s : Stores) (d : String) : Prop :=
  ∀ row contract context, s.documents.get? d = some row →
    VersionOf env texts d row contract context → HoldsIds s d (contractChunkIds env contract)

/-- The contract of a record. -/
theorem versionOf_record (hrecord : recordOf env contract identity = some record)
    (hwithin : (IngestCall.insertOrUpdate contract identity).Within texts) :
    ∃ context, VersionOf env texts record.documentId record contract context := by
  obtain ⟨context, hcontext, hid, hhash, -⟩ := buildDocumentRecord_eq_some hrecord
  exact ⟨context, hcontext, hwithin context hcontext, hid.symm, hhash⟩

/-- **No-ops are sound** if the rows of all documents are. -/
theorem noopsSound_iff : NoopsSound env texts s ↔ ∀ d, RowSound env texts s d := by
  constructor
  · intro hsound d row contract context hrow hversion
    obtain ⟨record, hrecord⟩ : ∃ record, recordOf env contract none = some record := by
      rw [recordOf, buildDocumentRecord, hversion.text]
      exact ⟨_, rfl⟩
    have hstored : s.hasVersion record := by
      obtain ⟨context', hcontext', hid, hhash, -⟩ := buildDocumentRecord_eq_some hrecord
      obtain rfl := Option.some.inj (hversion.text.symm.trans hcontext')
      exact ⟨row, by rw [hid, hversion.id, hrow], hversion.hash.trans hhash.symm⟩
    have hwithin : (IngestCall.insertOrUpdate contract none).Within texts := by
      intro context' hcontext'
      obtain rfl := Option.some.inj (hversion.text.symm.trans hcontext')
      exact hversion.mem
    have hexit : InsertExit env Faults.none contract none s _ _ :=
      insertOrUpdateDocument_exit contract none s
    rcases hrun : insertOrUpdateDocument env Faults.none contract none s with ⟨r, stores⟩
    rw [hrun] at hexit
    dsimp only at hexit
    cases hexit with
    | noContext hnone => cases hrecord.symm.trans hnone
    | readFault hfault => exact absurd hfault (by simp [Faults.none])
    | noop =>
      have hholds := hsound contract none Faults.none _ s hwithin hrun rfl
      rwa [HoldsExactly, hversion.id] at hholds
    | aborted hrecord' hnew | unannounced hrecord' hnew | written hrecord' hnew =>
      obtain rfl := Option.some.inj (hrecord.symm.trans hrecord')
      exact absurd hstored hnew
  · intro hsound contract identity faults result stores hwithin hrun hnoop
    have hexit : InsertExit env faults contract identity s _ _ :=
      insertOrUpdateDocument_exit contract identity s
    rw [hrun] at hexit
    dsimp only at hexit
    cases hexit with
    | noop hrecord hversion =>
      obtain ⟨row, hrow, hhash⟩ := hversion
      obtain ⟨context, hcontract⟩ := versionOf_record hrecord hwithin
      rw [HoldsExactly, hcontract.id]
      exact hsound _ row contract context hrow
        ⟨hcontract.text, hcontract.mem, hcontract.id, hhash.trans hcontract.hash⟩
    | written => cases hnoop

/-- Texts with the same hash are the same, so that a row has one version. -/
theorem rowSound_iff_of_version
    (hinj : ∀ a ∈ texts, ∀ b ∈ texts, contentHash env a = contentHash env b → a = b)
    (hrow : s.documents.get? d = some row)
    (hversion : VersionOf env texts d row contract context) :
    RowSound env texts s d ↔ HoldsIds s d (contractChunkIds env contract) := by
  refine ⟨fun hsound => hsound row contract context hrow hversion, ?_⟩
  intro hholds row' contract' context' hrow' hversion'
  obtain rfl := Option.some.inj (hrow.symm.trans hrow')
  obtain rfl := hinj context hversion.mem context' hversion'.mem
    (hversion.hash.symm.trans hversion'.hash)
  have hsame : contractChunkIds env contract' = contractChunkIds env contract :=
    contractChunkIds_congr (hversion'.text.trans hversion.text.symm)
      (hversion'.id.trans hversion.id.symm)
  rw [hsame]
  exact hholds

theorem rowSound_of_none (hnone : s.documents.get? d = none) : RowSound env texts s d := by
  intro row contract context hrow
  rw [hnone] at hrow
  cases hrow

/-- Only the part of the document matters. -/
theorem rowSound_congr (h : s'.part d = s.part d) :
    RowSound env texts s' d ↔ RowSound env texts s d := by
  have hrow : s'.documents.get? d = s.documents.get? d := congrArg DocumentPart.row h
  have hchunks : s'.chunkRowIds d = s.chunkRowIds d :=
    congrArg (fun part : DocumentPart => part.chunkRows.keys.toFinset) h
  have hbm25 : s'.bm25Ids d = s.bm25Ids d :=
    congrArg (fun part : DocumentPart => part.bm25.keys.toFinset) h
  have hfaiss : s'.faissIds d = s.faissIds d :=
    congrArg (fun part : DocumentPart => (part.faiss.map FaissEntry.id).toFinset) h
  simp only [RowSound, HoldsIds, hrow, hchunks, hbm25, hfaiss]

/-- A call can only make the row of its own document unsound. -/
theorem noopsSound_iff_of_touchesOnly (htouches : TouchesOnly d s s') (hfiled : s.Filed)
    (h : NoopsSound env texts s) : NoopsSound env texts s' ↔ RowSound env texts s' d := by
  rw [noopsSound_iff] at h ⊢
  refine ⟨fun hsound => hsound d, fun hsound d' => ?_⟩
  rcases eq_or_ne d' d with rfl | hne
  · exact hsound
  · exact (rowSound_congr ((htouches hfiled).2 d' hne)).mpr (h d')

/-! ### The stages of an update -/

/-- Entries of one document that are added; those that are there already are skipped. -/
private theorem faissIds_added (hfiled : s.Filed)
    (hrecord : recordOf env contract identity = some record) {ids : List String}
    {toAdd : List ChunkRecord} (hadd : ∀ chunk ∈ toAdd, chunk ∈ record.chunks) :
    (addedToFaiss record toAdd (s.withoutFaiss ids)).faissIds record.documentId =
      s.faissIds record.documentId \ ids.toFinset ∪ (toAdd.map (·.chunkId)).toFinset := by
  have hremoved : (s.withoutFaiss ids).faissIds record.documentId =
      s.faissIds record.documentId \ ids.toFinset := by
    rw [Stores.faissIds_withoutFaiss, Catalog.remove]
  rw [← hremoved, addedToFaiss]
  split_ifs with hnil
  · rw [hnil, List.map_nil, List.toFinset_nil, Finset.union_empty]
  · ext k
    rw [Finset.mem_union, List.mem_toFinset, Stores.mem_faissIds, Stores.mem_faissIds,
      Stores.faissEntries_withFaiss]
    constructor
    · rintro ⟨e, he, rfl, hdoc⟩
      rcases List.mem_append.mp he with hold | hnew
      · exact Or.inl ⟨e, hold, rfl, hdoc⟩
      · obtain ⟨chunk, hchunk, rfl⟩ := List.mem_map.mp (List.mem_filter.mp hnew).1
        exact Or.inr (List.mem_map_of_mem hchunk)
    · rintro (⟨e, hold, rfl, hdoc⟩ | hk)
      · exact ⟨e, List.mem_append_left _ hold, rfl, hdoc⟩
      · obtain ⟨chunk, hchunk, rfl⟩ := List.mem_map.mp hk
        by_cases hthere : chunk.chunkId ∈ (s.withoutFaiss ids).faissEntries.map (·.id)
        · obtain ⟨e, he, hid⟩ := List.mem_map.mp hthere
          have hentry : e ∈ s.faissEntries := by
            rw [Stores.faissEntries_withoutFaiss] at he
            exact (List.mem_filter.mp he).1
          refine ⟨e, List.mem_append_left _ he, hid, ?_⟩
          rw [hfiled.faiss e hentry, hid]
          exact (chunk_owned hrecord (hadd chunk hchunk)).2
        · refine ⟨faissEntryOf record chunk, List.mem_append_right _ ?_, rfl, rfl⟩
          exact List.mem_filter.mpr ⟨List.mem_map_of_mem hchunk, decide_eq_true hthere⟩

/-- What FAISS has of the document once the new chunks are in. -/
private theorem faissIds_stage (hfiled : s.Filed)
    (hrecord : recordOf env contract identity = some record) {k : ℕ} (hk : 2 ≤ k) (hk' : k ≤ 9) :
    (Exc.stage (writeEffects record (s.diffFor env record)) s k).faissIds record.documentId =
      s.faissIds record.documentId \ (s.chunkRowIds record.documentId \ record.chunkIds.toFinset) ∪
        (record.chunkIds.toFinset \ s.chunkRowIds record.documentId) := by
  have hsame : (Exc.stage (writeEffects record (s.diffFor env record)) s k).faissIds
      record.documentId = (addedToFaiss record (s.diffFor env record).toAdd
        (s.withoutFaiss (s.diffFor env record).toDelete)).faissIds record.documentId := by
    simp only [Stores.faissIds, Stores.faissEntries, stage_faiss hk hk']
  have hadd : ∀ chunk ∈ (s.diffFor env record).toAdd, chunk ∈ record.chunks :=
    fun _ hchunk => mem_chunks_of_mem_toAdd hchunk
  rw [hsame, faissIds_added hfiled hrecord hadd, Stores.diffFor, toFinset_toDelete,
    toFinset_toAdd]
  rfl

/-- What BM25 has of the document after all writes. -/
private theorem bm25Ids_stage_nine (hrecord : recordOf env contract identity = some record) :
    (Exc.stage (writeEffects record (s.diffFor env record)) s 9).bm25Ids record.documentId =
      s.bm25Ids record.documentId \ (s.chunkRowIds record.documentId \ record.chunkIds.toFinset) ∪
        (record.chunkIds.toFinset \ s.chunkRowIds record.documentId) := by
  have hdoc : ∀ chunk ∈ (s.diffFor env record).toAdd, chunk.documentId = record.documentId :=
    fun _ hchunk => (chunk_owned hrecord (mem_chunks_of_mem_toAdd hchunk)).1
  rw [Stores.bm25Ids, stage_nine_bm25, idsIn_setAll_self hdoc, idsIn_eraseAll, Catalog.remove,
    Stores.diffFor, toFinset_toDelete, toFinset_toAdd]
  rfl

/-- The chunk rows of the document before the new ones are inserted. -/
private theorem chunkRowIds_stage_eight :
    (Exc.stage (writeEffects record (s.diffFor env record)) s 8).chunkRowIds d =
      s.chunkRowIds d \ (s.chunkRowIds record.documentId \ record.chunkIds.toFinset) := by
  have hchunks : (Exc.stage (writeEffects record (s.diffFor env record)) s 8).chunks =
      s.chunks.eraseAll (s.diffFor env record).toDelete :=
    congrArg (fun rows : Dict String ChunkRecord =>
      rows.eraseAll (s.diffFor env record).toDelete) (addedToFaiss_chunks _)
  rw [Stores.chunkRowIds, hchunks, idsIn_eraseAll, Catalog.remove, Stores.diffFor,
    toFinset_toDelete]
  rfl

/-- **After all writes** the chunk rows are those of the contract. -/
private theorem chunkRowIds_stage_nine (hfiled : s.Filed)
    (hrecord : recordOf env contract identity = some record) :
    (Exc.stage (writeEffects record (s.diffFor env record)) s 9).chunkRowIds record.documentId =
      record.chunkIds.toFinset := by
  have hnew : ∀ chunk ∈ (s.diffFor env record).toAdd,
      chunk.chunkId ∉ (s.chunks.eraseAll (s.diffFor env record).toDelete).keys := by
    intro chunk hchunk hmem
    obtain ⟨row, hrow⟩ := Dict.mem_keys_iff.mp hmem
    rw [Dict.get?_eraseAll] at hrow
    split_ifs at hrow
    -- a row under this id is one of the document, and then the chunk is not new
    have hdoc : row.documentId = record.documentId :=
      (hfiled.chunks chunk.chunkId row hrow).trans
        (chunk_owned hrecord (mem_chunks_of_mem_toAdd hchunk)).2
    have hstored : chunk.chunkId ∈ s.chunkRowIds record.documentId :=
      mem_idsIn.mpr ⟨row, hrow, hdoc⟩
    exact (mem_toAdd_chunkIds.mp (List.mem_map_of_mem hchunk)).2 (List.mem_toFinset.mp hstored)
  have hown : ∀ chunk ∈ (s.diffFor env record).toAdd, chunk.documentId = record.documentId :=
    fun _ hchunk => (chunk_owned hrecord (mem_chunks_of_mem_toAdd hchunk)).1
  have hnodup : ((s.diffFor env record).toAdd.map (·.chunkId)).Nodup := nodup_toAdd_chunkIds
  rw [Stores.chunkRowIds, stage_nine_chunks, foldl_insertChunk hnodup hnew,
    idsIn_setAll_self hown, idsIn_eraseAll, Catalog.remove, Stores.diffFor, toFinset_toDelete,
    toFinset_toAdd]
  ext k
  simp only [Finset.mem_union, Finset.mem_sdiff, List.mem_toFinset]
  have hkeys : k ∈ idsIn s.chunks record.documentId ↔
      k ∈ (s.chunkRows record.documentId).keys := List.mem_toFinset
  rw [hkeys]
  tauto

/-- **Adding to FAISS** can do without the store if the store has all new chunks already. -/
private theorem addToFaiss_stage_ok_iff {faults : Faults} (hfiled : s.Filed)
    (hrecord : recordOf env contract identity = some record) :
    (addToFaiss faults record (s.diffFor env record).toAdd
        (Exc.stage (writeEffects record (s.diffFor env record)) s 1)).1 = .ok () ↔
      record.chunkIds.toFinset ⊆ s.chunkRowIds record.documentId ∨ faults .embed = none ∧
        (faults .faissAdd = none ∨ record.chunkIds.toFinset \ s.chunkRowIds record.documentId ⊆
          s.faissIds record.documentId) := by
  have hnodup : ((s.diffFor env record).toAdd.map (·.chunkId)).Nodup := nodup_toAdd_chunkIds
  have hthere : (∀ chunk ∈ (s.diffFor env record).toAdd, chunk.chunkId ∈
        (s.withoutFaiss (s.diffFor env record).toDelete).faissEntries.map (·.id)) ↔
      record.chunkIds.toFinset \ s.chunkRowIds record.documentId ⊆
        s.faissIds record.documentId := by
    have hnew : ((s.diffFor env record).toAdd.map (·.chunkId)).toFinset =
        record.chunkIds.toFinset \ s.chunkRowIds record.documentId := by
      rw [Stores.diffFor, toFinset_toAdd]
      rfl
    rw [← hnew]
    constructor
    · intro hall k hk
      obtain ⟨chunk, hchunk, rfl⟩ := List.mem_map.mp (List.mem_toFinset.mp hk)
      obtain ⟨e, he, hid⟩ := List.mem_map.mp (hall chunk hchunk)
      rw [Stores.faissEntries_withoutFaiss] at he
      have hentry : e ∈ s.faissEntries := (List.mem_filter.mp he).1
      refine Stores.mem_faissIds.mpr ⟨e, hentry, hid, ?_⟩
      rw [hfiled.faiss e hentry, hid]
      exact (chunk_owned hrecord (mem_chunks_of_mem_toAdd hchunk)).2
    · intro hsubset chunk hchunk
      have hmem : chunk.chunkId ∈ (s.diffFor env record).toAdd.map (·.chunkId) :=
        List.mem_map_of_mem hchunk
      obtain ⟨e, he, hid, -⟩ := Stores.mem_faissIds.mp (hsubset (List.mem_toFinset.mpr hmem))
      refine List.mem_map.mpr ⟨e, ?_, hid⟩
      rw [Stores.faissEntries_withoutFaiss]
      refine List.mem_filter.mpr ⟨he, decide_eq_true fun hdelete => ?_⟩
      -- what is new is not deleted
      rw [hid] at hdelete
      exact (mem_toDelete.mp hdelete).2 (mem_toAdd_chunkIds.mp hmem).1
  have hiff : (addToFaiss faults record (s.diffFor env record).toAdd
      (s.withoutFaiss (s.diffFor env record).toDelete)).1 = .ok () ↔ _ := addToFaiss_ok_iff hnodup
  rw [hthere, toAdd_eq_nil_iff] at hiff
  exact hiff

/-- When the chunk rows are inserted, the row of the document is there. -/
private theorem insertChunks_stage_ok_iff {faults : Faults}
    (hrecord : recordOf env contract identity = some record) :
    (insertChunks faults (s.diffFor env record).toAdd
        (Exc.stage (writeEffects record (s.diffFor env record)) s 8)).1 = .ok () ↔
      record.chunkIds.toFinset ⊆ s.chunkRowIds record.documentId ∨
        faults .insertChunks = none := by
  have hrow : ∀ chunk ∈ (s.diffFor env record).toAdd,
      (Exc.stage (writeEffects record (s.diffFor env record)) s 8).documents.contains
        chunk.documentId = true := by
    intro chunk hchunk
    rw [stage_documents (by omega) (by omega),
      (chunk_owned hrecord (mem_chunks_of_mem_toAdd hchunk)).1, Dict.contains_iff]
    exact ⟨_, Dict.get?_set_self _ _ _⟩
  rw [insertChunks_ok_iff hrow, toAdd_eq_nil_iff]

/-! ### What every run keeps -/

/-- Chunks are filed under their documents, chunk rows have a row of their document, and each row is
that of a text which was ingested. -/
structure Stores.Lawful (env : IngestEnv) (texts : List String) (s : Stores) : Prop where
  filed : s.Filed
  parented : ∀ d, s.documents.get? d = none → s.chunkRowIds d = ∅
  versioned : ∀ d row, s.documents.get? d = some row →
    ∃ contract context, VersionOf env texts d row contract context

/-! ### A document with a row -/

private theorem failing_eq_some_iff {l : IngestLabel} {op : IngestOp} :
    l.failing = some op ↔ l.faults op ≠ none := by
  rcases hfault : l.fault with - | ⟨op', e⟩
  · simp [IngestLabel.failing, IngestLabel.faults, hfault, Faults.none]
  · simp [IngestLabel.failing, IngestLabel.faults, hfault, Faults.only, eq_comm]

private theorem failing_all_of_fault {l : IngestLabel} {op : IngestOp} {p : IngestOp → Bool}
    (h : l.faults op ≠ none) : l.failing.all p = p op := by
  rw [failing_eq_some_iff.mpr h]
  rfl

private theorem failing_all_iff {l : IngestLabel} {p : IngestOp → Bool} :
    l.failing.all p = true ↔ ∀ op, l.faults op ≠ none → p op = true := by
  rw [Option.all_eq_true]
  exact forall_congr' fun op => by rw [failing_eq_some_iff]

/-- The row of a document says what is stored of it, as long as the row stands. -/
private theorem Stores.Lawful.intact (hlawful : s.Lawful env texts)
    (hinj : ∀ a ∈ texts, ∀ b ∈ texts, contentHash env a = contentHash env b → a = b)
    (hsound : RowSound env texts s d) (hrow : s.documents.get? d = some row) :
    HoldsIds s d (s.chunkRowIds d) ∧ ∀ s' : Stores, s'.documents.get? d = some row →
      (RowSound env texts s' d ↔ HoldsIds s' d (s.chunkRowIds d)) := by
  obtain ⟨contract, context, hversion⟩ := hlawful.versioned d row hrow
  have hholds := hsound row contract context hrow hversion
  rw [hholds.1]
  exact ⟨hholds, fun s' hrow' => rowSound_iff_of_version hinj hrow' hversion⟩

/-- The row of a record has the chunk ids of the record. -/
private theorem rowSound_iff_of_record
    (hinj : ∀ a ∈ texts, ∀ b ∈ texts, contentHash env a = contentHash env b → a = b)
    (hrecord : recordOf env contract identity = some record)
    (hwithin : (IngestCall.insertOrUpdate contract identity).Within texts)
    (hrow : s'.documents.get? record.documentId = some { record with chunks := [] }) :
    RowSound env texts s' record.documentId ↔
      HoldsIds s' record.documentId record.chunkIds.toFinset := by
  obtain ⟨context, hversion⟩ := versionOf_record hrecord hwithin
  rw [← contractChunkIds_eq hrecord]
  exact rowSound_iff_of_version hinj hrow
    ⟨hversion.text, hversion.mem, hversion.id, hversion.hash⟩

/-- From the seventh write on, the row is that of the record. -/
private theorem get?_stage {diff : DocumentDiff} {k : ℕ} (hk : 7 ≤ k) (hk' : k ≤ 9) :
    (Exc.stage (writeEffects record diff) s k).documents.get? record.documentId =
      some { record with chunks := [] } := by
  rw [stage_documents hk hk', Dict.get?_set_self]

private theorem nothingWrittenBefore_self (ids : Finset String) (op : IngestOp) :
    nothingWrittenBefore ids ids op = true := by
  cases op with
  | embed | faissAdd => simp [nothingWrittenBefore]
  | faissSave | bm25Save | upsertDocumentRow | deleteChunks | insertChunks =>
    simp [nothingWrittenBefore]
  | getDocument | getChunkIds | faissDelete | deleteDocumentRow | bumpIndexVersion => rfl

/-- Taking out what is old and putting in what is new. -/
private theorem replaced_eq (old new : Finset String) : old \ (old \ new) ∪ new \ old = new := by
  ext k
  simp only [Finset.mem_union, Finset.mem_sdiff]
  tauto

private theorem SameContents.part (h : SameContents s s') (d : String) : s'.part d = s.part d := by
  simp only [Stores.part, Stores.faissEntries, h.faiss, h.bm25, h.documents, h.chunks]

section Row

variable {l : IngestLabel} (hlawful : s.Lawful env texts)
  (hinj : ∀ a ∈ texts, ∀ b ∈ texts, contentHash env a = contentHash env b → a = b)
  (hsound : RowSound env texts s record.documentId)
  (hrow : s.documents.get? record.documentId = some row)
  (hrecord : recordOf env contract identity = some record)
  (hwithin : (IngestCall.insertOrUpdate contract identity).Within texts)

include hlawful hinj hsound hrow hrecord

/-- Between the first write to FAISS and the row of the document. -/
private theorem rowSound_stage_iff {k : ℕ} (hk : 2 ≤ k) (hk' : k ≤ 6) :
    RowSound env texts (Exc.stage (writeEffects record (s.diffFor env record)) s k)
        record.documentId ↔
      s.chunkRowIds record.documentId = record.chunkIds.toFinset := by
  obtain ⟨⟨-, -, hfaiss⟩, hiff⟩ := hlawful.intact hinj hsound hrow
  have hdocuments : (Exc.stage (writeEffects record (s.diffFor env record)) s k).documents =
      s.documents := (stage_registry hk').1
  constructor
  · intro hholds
    have hstage := ((hiff _ (by rw [hdocuments, hrow])).mp hholds).2.2
    rw [faissIds_stage hlawful.filed hrecord hk (by omega), hfaiss, replaced_eq] at hstage
    exact hstage.symm
  · intro hsame
    refine (rowSound_congr ?_).mpr hsound
    exact (sameContents_stage (toDelete_eq_nil_iff.mpr hsame.subset)
      (toAdd_eq_nil_iff.mpr hsame.superset) hk').part _

omit hrecord in
/-- After the deletions from FAISS. -/
private theorem rowSound_stage_one_iff :
    RowSound env texts (Exc.stage (writeEffects record (s.diffFor env record)) s 1)
        record.documentId ↔
      s.chunkRowIds record.documentId ⊆ record.chunkIds.toFinset := by
  obtain ⟨⟨-, hbm25, hfaiss⟩, hiff⟩ := hlawful.intact hinj hsound hrow
  have hremoved : (Exc.stage (writeEffects record (s.diffFor env record)) s 1).faissIds
      record.documentId = s.chunkRowIds record.documentId \
        (s.chunkRowIds record.documentId \ record.chunkIds.toFinset) := by
    have heq : (s.withoutFaiss (s.diffFor env record).toDelete).faissIds record.documentId =
        s.faissIds record.documentId \ (s.diffFor env record).toDelete.toFinset := by
      rw [Stores.faissIds_withoutFaiss, Catalog.remove]
    rw [hfaiss, Stores.diffFor, toFinset_toDelete] at heq
    exact heq
  have hstage := hiff (Exc.stage (writeEffects record (s.diffFor env record)) s 1) hrow
  rw [hstage, HoldsIds, hremoved, Finset.sdiff_sdiff_self_left, Finset.inter_eq_left]
  exact ⟨fun h => h.2.2, fun h => ⟨rfl, hbm25, h⟩⟩

include hwithin

/-- **A call that aborts** keeps the row sound if nothing was written before. -/
private theorem rowSound_aborted_iff {k : ℕ}
    (hfails : WriteFailure l.faults (s.diffFor env record) s k) :
    RowSound env texts (Exc.stage (writeEffects record (s.diffFor env record)) s k)
        record.documentId ↔
      l.failing.all (nothingWrittenBefore (s.chunkRowIds record.documentId)
        record.chunkIds.toFinset) = true := by
  cases hfails with
  | faissDelete hne hstore h =>
    refine iff_of_true hsound ?_
    rcases h with hfault | ⟨id, hid, hmissing⟩
    · rw [failing_all_of_fault hfault]
      rfl
    · -- what is to be deleted is there
      obtain ⟨⟨-, -, hfaiss⟩, -⟩ := hlawful.intact hinj hsound hrow
      have hstored : id ∈ s.faissIds record.documentId := by
        rw [hfaiss]
        exact List.mem_toFinset.mpr (mem_toDelete.mp hid).1
      obtain ⟨e, he, hid', -⟩ := Stores.mem_faissIds.mp hstored
      exact absurd (List.mem_map.mpr ⟨e, he, hid'⟩) hmissing
  | faissAdd hne h =>
    rw [rowSound_stage_one_iff hlawful hinj hsound hrow]
    have hnot : ¬record.chunkIds.toFinset ⊆ s.chunkRowIds record.documentId :=
      fun h => hne (toAdd_eq_nil_iff.mpr h)
    rcases h with hfault | hfault
    · rw [failing_all_of_fault hfault]
      simp [nothingWrittenBefore, hnot]
    · rw [failing_all_of_fault hfault]
      simp [nothingWrittenBefore, hnot]
  | faissSave h =>
    rw [rowSound_stage_iff hlawful hinj hsound hrow hrecord (le_refl 2) (by omega)]
    rcases h with ⟨hnone, hadd⟩ | hfault
    · -- there is no FAISS store, and so nothing of the document is stored
      have hempty : s.chunkRowIds record.documentId = ∅ := by
        obtain ⟨⟨-, -, hfaiss⟩, -⟩ := hlawful.intact hinj hsound hrow
        rw [← hfaiss, Stores.faissIds, Stores.faissEntries, hnone]
        rfl
      have hnew : record.chunkIds.toFinset = ∅ := by
        rw [← Finset.subset_empty, ← hempty]
        exact toAdd_eq_nil_iff.mp hadd
      rw [hempty, hnew, failing_all_iff]
      exact iff_of_true rfl fun op _ => nothingWrittenBefore_self ∅ op
    · rw [failing_all_of_fault hfault, nothingWrittenBefore, decide_eq_true_eq]
  | bm25Save hfault =>
    rw [rowSound_stage_iff hlawful hinj hsound hrow hrecord (by omega) (by omega),
      failing_all_of_fault hfault, nothingWrittenBefore, decide_eq_true_eq]
  | upsertDocumentRow hfault =>
    rw [rowSound_stage_iff hlawful hinj hsound hrow hrecord (by omega) (le_refl 6),
      failing_all_of_fault hfault, nothingWrittenBefore, decide_eq_true_eq]
  | deleteChunks hne hfault =>
    have hnot : ¬s.chunkRowIds record.documentId ⊆ record.chunkIds.toFinset :=
      fun h => hne (toDelete_eq_nil_iff.mpr h)
    rw [rowSound_iff_of_record hinj hrecord hwithin (get?_stage (le_refl 7) (by omega)),
      failing_all_of_fault hfault, nothingWrittenBefore, decide_eq_true_eq]
    refine iff_of_false (fun hholds => hnot ?_) hnot
    have hchunks : (Exc.stage (writeEffects record (s.diffFor env record)) s 7).chunkRowIds
        record.documentId = s.chunkRowIds record.documentId :=
      congrArg (fun rows => idsIn rows record.documentId) (addedToFaiss_chunks _)
    exact (hchunks.symm.trans hholds.1).subset
  | insertChunks hne hfault =>
    have hnot : ¬record.chunkIds.toFinset ⊆ s.chunkRowIds record.documentId :=
      fun h => hne (toAdd_eq_nil_iff.mpr h)
    rw [rowSound_iff_of_record hinj hrecord hwithin (get?_stage (by omega) (by omega)),
      failing_all_of_fault hfault, nothingWrittenBefore, decide_eq_true_eq]
    refine iff_of_false (fun hholds => hnot ?_) hnot
    have hchunks := hholds.1
    rw [chunkRowIds_stage_eight] at hchunks
    rw [← hchunks]
    exact Finset.sdiff_subset

/-- **A call that writes everything** makes the row sound. -/
private theorem rowSound_written_iff
    (hsteps : ∀ (k : ℕ) (x : Exc PyError Stores Unit),
      (writeDocument env l.faults record (s.diffFor env record))[k]? = some x →
        (x (Exc.stage (writeEffects record (s.diffFor env record)) s k)).1 = .ok ()) :
    RowSound env texts (Exc.stage (writeEffects record (s.diffFor env record)) s 9)
        record.documentId ↔
      l.failing.all (nothingWrittenBefore (s.chunkRowIds record.documentId)
        record.chunkIds.toFinset) = true := by
  obtain ⟨⟨-, hbm25, hfaiss⟩, -⟩ := hlawful.intact hinj hsound hrow
  rw [rowSound_iff_of_record hinj hrecord hwithin (get?_stage (by omega) (le_refl 9)),
    failing_all_iff]
  refine iff_of_true ⟨chunkRowIds_stage_nine hlawful.filed hrecord, ?_, ?_⟩ fun op hfault => ?_
  · rw [bm25Ids_stage_nine hrecord, hbm25, replaced_eq]
  · rw [faissIds_stage hlawful.filed hrecord (by omega) (le_refl 9), hfaiss, replaced_eq]
  · -- an operation that was not needed
    cases op with
    | getDocument | getChunkIds | faissDelete | deleteDocumentRow | bumpIndexVersion => rfl
    | embed =>
      have hadded := (addToFaiss_stage_ok_iff hlawful.filed hrecord).mp (hsteps 1 _ rfl)
      rcases hadded with hsubset | ⟨hembed, -⟩
      · simp [nothingWrittenBefore, hsubset]
      · exact absurd hembed hfault
    | faissAdd =>
      have hadded := (addToFaiss_stage_ok_iff hlawful.filed hrecord).mp (hsteps 1 _ rfl)
      rcases hadded with hsubset | ⟨-, hadd | hthere⟩
      · simp [nothingWrittenBefore, hsubset]
      · exact absurd hadd hfault
      · -- FAISS has no more chunks than Postgres
        rw [hfaiss] at hthere
        have hsubset : record.chunkIds.toFinset ⊆ s.chunkRowIds record.documentId :=
          fun k hk => by_contra fun hnot => hnot (hthere (Finset.mem_sdiff.mpr ⟨hk, hnot⟩))
        simp [nothingWrittenBefore, hsubset]
    | faissSave => exact absurd (faissSave_ok_iff.mp (hsteps 2 _ rfl)).2 hfault
    | bm25Save => exact absurd (bm25Save_ok_iff.mp (hsteps 5 _ rfl)) hfault
    | upsertDocumentRow => exact absurd (upsertDocumentRow_ok_iff.mp (hsteps 6 _ rfl)) hfault
    | deleteChunks =>
      exact decide_eq_true (toDelete_eq_nil_iff.mp
        ((deleteChunks_ok_iff.mp (hsteps 7 _ rfl)).resolve_right hfault))
    | insertChunks =>
      exact decide_eq_true (((insertChunks_stage_ok_iff hrecord).mp
        (hsteps 8 _ rfl)).resolve_right hfault)

end Row

/-- **An update of a document with a row.** -/
private theorem rowSound_update_iff {l : IngestLabel} (hlawful : s.Lawful env texts)
    (hinj : ∀ a ∈ texts, ∀ b ∈ texts, contentHash env a = contentHash env b → a = b)
    (hsound : RowSound env texts s record.documentId)
    (hrow : s.documents.get? record.documentId = some row)
    (hrecord : recordOf env contract identity = some record)
    (hwithin : (IngestCall.insertOrUpdate contract identity).Within texts) :
    RowSound env texts (insertOrUpdateDocument env l.faults contract identity s).2
        record.documentId ↔
      l.failing.all (nothingWrittenBefore (s.chunkRowIds record.documentId)
        record.chunkIds.toFinset) = true := by
  by_cases hread : l.faults .getDocument ≠ none ∨ l.faults .getChunkIds ≠ none
  · rw [insertOrUpdateDocument_of_readFault contract identity hread]
    refine iff_of_true hsound ?_
    rcases hread with hfault | hfault
    · rw [failing_all_of_fault hfault]
      rfl
    · rw [failing_all_of_fault hfault]
      rfl
  · have hexit : InsertExit env l.faults contract identity s _ _ :=
      insertOrUpdateDocument_exit contract identity s
    generalize (insertOrUpdateDocument env l.faults contract identity s).1 = r at hexit
    generalize (insertOrUpdateDocument env l.faults contract identity s).2 = s' at hexit ⊢
    cases hexit with
    | noContext hnone => cases hrecord.symm.trans hnone
    | readFault hfault => exact absurd hfault hread
    | noop hrecord' hversion =>
      obtain rfl := Option.some.inj (hrecord.symm.trans hrecord')
      -- what is stored is what the contract has
      obtain ⟨row', hrow', hhash⟩ := hversion
      obtain ⟨context, hcontract⟩ := versionOf_record hrecord hwithin
      have hholds := hsound row' contract context hrow' ⟨hcontract.text, hcontract.mem,
        hcontract.id, hhash.trans hcontract.hash⟩
      rw [contractChunkIds_eq hrecord] at hholds
      rw [hholds.1, failing_all_iff]
      exact iff_of_true hsound fun op _ => nothingWrittenBefore_self _ op
    | aborted hrecord' hversion hx hfails =>
      obtain rfl := Option.some.inj (hrecord.symm.trans hrecord')
      exact rowSound_aborted_iff hlawful hinj hsound hrow hrecord hwithin
        (writeFailure_of_diffFor hrecord hx hfails)
    | unannounced hrecord' hversion hfault hsteps | written hrecord' hversion hsteps =>
      obtain rfl := Option.some.inj (hrecord.symm.trans hrecord')
      exact rowSound_written_iff hlawful hinj hsound hrow hrecord hwithin hsteps

/-! ### A document without a row -/

/-- A call gets to the row of a document that has none. -/
private theorem comesToRow_of_steps {l : IngestLabel} (hfiled : s.Filed)
    (hrecord : recordOf env contract identity = some record)
    (hnone : s.chunkRowIds record.documentId = ∅)
    (hread : ¬(l.faults .getDocument ≠ none ∨ l.faults .getChunkIds ≠ none))
    (hsteps : ∀ j < 7, ∀ y : Exc PyError Stores Unit,
      (writeDocument env l.faults record (s.diffFor env record))[j]? = some y →
        (y (Exc.stage (writeEffects record (s.diffFor env record)) s j)).1 = .ok ()) :
    l.failing.all (comesToRow record.chunkIds.toFinset (s.faissIds record.documentId)) = true ∧
      (s.faiss.isSome = true ∨ record.chunkIds.toFinset ≠ ∅) := by
  have hadded := (addToFaiss_stage_ok_iff hfiled hrecord).mp (hsteps 1 (by omega) _ rfl)
  rw [hnone, Finset.subset_empty, Finset.sdiff_empty] at hadded
  refine ⟨failing_all_iff.mpr fun op hfault => ?_, ?_⟩
  · cases op with
    | getDocument => exact absurd (Or.inl hfault) hread
    | getChunkIds => exact absurd (Or.inr hfault) hread
    | faissSave => exact absurd (faissSave_ok_iff.mp (hsteps 2 (by omega) _ rfl)).2 hfault
    | bm25Save => exact absurd (bm25Save_ok_iff.mp (hsteps 5 (by omega) _ rfl)) hfault
    | upsertDocumentRow =>
      exact absurd (upsertDocumentRow_ok_iff.mp (hsteps 6 (by omega) _ rfl)) hfault
    | embed => exact decide_eq_true (hadded.resolve_right fun h => hfault h.1)
    | faissAdd =>
      refine decide_eq_true ?_
      rcases hadded with hempty | ⟨-, hadd | hthere⟩
      · rw [hempty]
        exact Finset.empty_subset _
      · exact absurd hadd hfault
      · exact hthere
    | faissDelete | deleteChunks | insertChunks | deleteDocumentRow | bumpIndexVersion => rfl
  · -- a FAISS store was there to be saved
    have hsaved := (faissSave_ok_iff.mp (hsteps 2 (by omega) _ rfl)).1
    rw [stage_faiss (le_refl 2) (by omega), Ne, faiss_addedToFaiss_eq_none_iff,
      faiss_withoutFaiss_eq_none_iff, toAdd_eq_nil_iff, hnone, Finset.subset_empty,
      not_and_or] at hsaved
    exact hsaved.imp_left Option.isSome_iff_ne_none.mpr

/-- A call that stops before the row of a document. -/
private theorem not_comesToRow_of_fails {l : IngestLabel} (hfiled : s.Filed)
    (hrecord : recordOf env contract identity = some record)
    (hnone : s.chunkRowIds record.documentId = ∅) {k : ℕ} {x : Exc PyError Stores Unit}
    (hk : k < 7) (hx : (writeDocument env l.faults record (s.diffFor env record))[k]? = some x)
    (hfails : (x (Exc.stage (writeEffects record (s.diffFor env record)) s k)).1 ≠ .ok ()) :
    ¬(l.failing.all (comesToRow record.chunkIds.toFinset (s.faissIds record.documentId)) = true ∧
      (s.faiss.isSome = true ∨ record.chunkIds.toFinset ≠ ∅)) := by
  rintro ⟨hcomes, hstore⟩
  rw [failing_all_iff] at hcomes
  cases writeFailure_of_diffFor hrecord hx hfails with
  | faissDelete hne =>
    refine hne (toDelete_eq_nil_iff.mpr ?_)
    rw [hnone]
    exact Finset.empty_subset _
  | faissAdd =>
    obtain rfl := Option.some.inj hx
    refine hfails ((addToFaiss_stage_ok_iff hfiled hrecord).mpr ?_)
    rw [hnone, Finset.subset_empty, Finset.sdiff_empty]
    by_cases hembed : l.faults .embed = none
    · refine Or.inr ⟨hembed, ?_⟩
      by_cases hadd : l.faults .faissAdd = none
      · exact Or.inl hadd
      · exact Or.inr (of_decide_eq_true (hcomes _ hadd))
    · exact Or.inl (of_decide_eq_true (hcomes _ hembed))
  | faissSave h =>
    rcases h with ⟨hfaiss, hadd⟩ | hfault
    · rcases hstore with hsome | hne
      · rw [hfaiss] at hsome
        cases hsome
      · rw [toAdd_eq_nil_iff, hnone, Finset.subset_empty] at hadd
        exact hne hadd
    · cases hcomes _ hfault
  | bm25Save hfault | upsertDocumentRow hfault => cases hcomes _ hfault
  | deleteChunks | insertChunks => omega

/-- **After all writes** the new row is sound unless something was left over. -/
private theorem rowSound_inserted_iff {l : IngestLabel} (hfiled : s.Filed)
    (hinj : ∀ a ∈ texts, ∀ b ∈ texts, contentHash env a = contentHash env b → a = b)
    (hrecord : recordOf env contract identity = some record)
    (hwithin : (IngestCall.insertOrUpdate contract identity).Within texts)
    (hnone : s.chunkRowIds record.documentId = ∅)
    (hsteps : ∀ (k : ℕ) (x : Exc PyError Stores Unit),
      (writeDocument env l.faults record (s.diffFor env record))[k]? = some x →
        (x (Exc.stage (writeEffects record (s.diffFor env record)) s k)).1 = .ok ()) :
    RowSound env texts (Exc.stage (writeEffects record (s.diffFor env record)) s 9)
        record.documentId ↔
      insertsCleanly s record.documentId record.chunkIds.toFinset l.failing = true := by
  have hinserted := (insertChunks_stage_ok_iff hrecord).mp (hsteps 8 _ rfl)
  rw [hnone, Finset.subset_empty] at hinserted
  have hchunks : l.failing ≠ some .insertChunks ∨ record.chunkIds.toFinset = ∅ := by
    rw [Ne, failing_eq_some_iff, not_not]
    exact hinserted.symm
  rw [rowSound_iff_of_record hinj hrecord hwithin (get?_stage (by omega) (le_refl 9)), HoldsIds,
    chunkRowIds_stage_nine hfiled hrecord, bm25Ids_stage_nine hrecord,
    faissIds_stage hfiled hrecord (by omega) (le_refl 9), hnone, Finset.empty_sdiff,
    Finset.sdiff_empty, Finset.sdiff_empty, Finset.sdiff_empty]
  simp only [insertsCleanly, Bool.and_eq_true, Bool.or_eq_true, decide_eq_true_eq, hchunks,
    and_true, true_and, Finset.union_eq_right]
  exact and_comm

/-- **An update of a document without a row.** -/
private theorem rowSound_insert_iff {l : IngestLabel} (hlawful : s.Lawful env texts)
    (hinj : ∀ a ∈ texts, ∀ b ∈ texts, contentHash env a = contentHash env b → a = b)
    (hrow : s.documents.get? record.documentId = none)
    (hrecord : recordOf env contract identity = some record)
    (hwithin : (IngestCall.insertOrUpdate contract identity).Within texts) :
    RowSound env texts (insertOrUpdateDocument env l.faults contract identity s).2
        record.documentId ↔
      (l.failing.all (comesToRow record.chunkIds.toFinset (s.faissIds record.documentId)) = true ∧
          (s.faiss.isSome = true ∨ record.chunkIds.toFinset ≠ ∅) →
        insertsCleanly s record.documentId record.chunkIds.toFinset l.failing = true) := by
  have hnone : s.chunkRowIds record.documentId = ∅ := hlawful.parented _ hrow
  by_cases hread : l.faults .getDocument ≠ none ∨ l.faults .getChunkIds ≠ none
  · rw [insertOrUpdateDocument_of_readFault contract identity hread]
    refine iff_of_true (rowSound_of_none hrow) fun hcomes => ?_
    rcases hread with hfault | hfault
    · rw [failing_all_of_fault hfault] at hcomes
      cases hcomes.1
    · rw [failing_all_of_fault hfault] at hcomes
      cases hcomes.1
  · have hexit : InsertExit env l.faults contract identity s _ _ :=
      insertOrUpdateDocument_exit contract identity s
    generalize (insertOrUpdateDocument env l.faults contract identity s).1 = r at hexit
    generalize (insertOrUpdateDocument env l.faults contract identity s).2 = s' at hexit ⊢
    cases hexit with
    | noContext hno => cases hrecord.symm.trans hno
    | readFault hfault => exact absurd hfault hread
    | noop hrecord' hversion =>
      obtain rfl := Option.some.inj (hrecord.symm.trans hrecord')
      obtain ⟨row', hrow', -⟩ := hversion
      cases hrow.symm.trans hrow'
    | @aborted _ k x e hrecord' hversion hx hfails hbefore =>
      obtain rfl := Option.some.inj (hrecord.symm.trans hrecord')
      rcases Nat.lt_or_ge k 7 with hk | hk
      · -- the call has stopped before the row
        have hnot := not_comesToRow_of_fails hlawful.filed hrecord hnone hk hx hfails
        refine iff_of_true (rowSound_of_none ?_) fun hcomes => absurd hcomes hnot
        rw [(stage_registry (by omega)).1, hrow]
      · -- only the chunk rows are missing
        have hcomes := comesToRow_of_steps hlawful.filed hrecord hnone hread
          fun j hj => hbefore j (by omega)
        rw [imp_iff_right hcomes]
        cases writeFailure_of_diffFor hrecord hx hfails with
        | faissDelete | faissAdd | faissSave | bm25Save | upsertDocumentRow => omega
        | deleteChunks hne =>
          refine absurd (toDelete_eq_nil_iff.mpr ?_) hne
          rw [hnone]
          exact Finset.empty_subset _
        | insertChunks hne hfault =>
          rw [Ne, toAdd_eq_nil_iff, hnone, Finset.subset_empty] at hne
          rw [rowSound_iff_of_record hinj hrecord hwithin (get?_stage (by omega) (by omega))]
          refine iff_of_false (fun hholds => hne ?_) ?_
          · have hchunks := hholds.1
            rw [chunkRowIds_stage_eight, hnone, Finset.empty_sdiff] at hchunks
            exact hchunks.symm
          · simp [insertsCleanly, failing_eq_some_iff.mpr hfault, hne]
    | unannounced hrecord' hversion hfault hsteps | written hrecord' hversion hsteps =>
      obtain rfl := Option.some.inj (hrecord.symm.trans hrecord')
      rw [imp_iff_right (comesToRow_of_steps hlawful.filed hrecord hnone hread
        fun j _ => hsteps j)]
      exact rowSound_inserted_iff hlawful.filed hinj hrecord hwithin hnone hsteps

/-! ### A deletion -/

private theorem get?_stage_five {chunkIds : List String} :
    (Exc.stage (eraseEffects d chunkIds) s 5).documents.get? d = none :=
  (Dict.get?_erase s.documents d d).trans (if_pos rfl)

/-- As soon as FAISS has lost chunks of a document, its row is not sound. -/
private theorem not_rowSound_stage {chunkIds : List String} (hlawful : s.Lawful env texts)
    (hinj : ∀ a ∈ texts, ∀ b ∈ texts, contentHash env a = contentHash env b → a = b)
    (hsound : RowSound env texts s d) (hrow : s.documents.get? d = some row)
    (hids : chunkIds.toFinset = s.chunkRowIds d) (hne : s.chunkRowIds d ≠ ∅) {k : ℕ} (hk : 1 ≤ k)
    (hk' : k ≤ 4) : ¬RowSound env texts (Exc.stage (eraseEffects d chunkIds) s k) d := by
  obtain ⟨⟨-, -, hfaiss⟩, hiff⟩ := hlawful.intact hinj hsound hrow
  have hstage : (Exc.stage (eraseEffects d chunkIds) s k).documents.get? d = some row ∧
      (Exc.stage (eraseEffects d chunkIds) s k).faissIds d =
        (s.withoutFaiss chunkIds).faissIds d := by
    match k, hk, hk' with
    | 1, _, _ | 2, _, _ | 3, _, _ | 4, _, _ => exact ⟨hrow, rfl⟩
  rw [hiff _ hstage.1]
  intro hholds
  have hempty : (s.withoutFaiss chunkIds).faissIds d = ∅ := by
    rw [Stores.faissIds_withoutFaiss, Catalog.remove, hids, hfaiss, Finset.sdiff_self]
  exact hne (hholds.2.2.symm.trans (hstage.2.trans hempty))

/-- **A deletion.** -/
private theorem rowSound_delete_iff {l : IngestLabel} (hlawful : s.Lawful env texts)
    (hinj : ∀ a ∈ texts, ∀ b ∈ texts, contentHash env a = contentHash env b → a = b)
    (hsound : RowSound env texts s d) :
    RowSound env texts (deleteDocument env l.faults d s).2 d ↔
      l.failing.all (nothingErasedBefore (s.chunkRowIds d)) = true := by
  have hexit : DeleteExit env l.faults d s _ _ := deleteDocument_exit d s
  generalize (deleteDocument env l.faults d s).1 = r at hexit
  generalize (deleteDocument env l.faults d s).2 = s' at hexit ⊢
  cases hexit with
  | readFault hfault =>
    rw [failing_all_of_fault hfault]
    exact iff_of_true hsound rfl
  | notFound hids =>
    rw [hids, failing_all_iff]
    refine iff_of_true hsound fun op _ => ?_
    cases op <;> rfl
  | aborted hids hne hx hfails =>
    have hchunks : s.chunkRowIds d ≠ ∅ := by
      rw [← hids]
      exact fun h => hne ((List.toFinset_eq_empty_iff _).mp h)
    obtain ⟨row, hrow⟩ : ∃ row, s.documents.get? d = some row :=
      Option.ne_none_iff_exists'.mp fun hnone => hchunks (hlawful.parented d hnone)
    have hunsound {k : ℕ} (hk : 1 ≤ k) (hk' : k ≤ 4) :=
      not_rowSound_stage hlawful hinj hsound hrow hids hchunks hk hk'
    obtain ⟨⟨-, -, hfaiss⟩, -⟩ := hlawful.intact hinj hsound hrow
    cases eraseFailure_of_fails hx hfails with
    | faissDelete h =>
      refine iff_of_true hsound ?_
      rcases h with hfault | ⟨id, hid, hmissing⟩
      · rw [failing_all_of_fault hfault]
        rfl
      · have hstored : id ∈ s.faissIds d := by
          rw [hfaiss, ← hids]
          exact List.mem_toFinset.mpr hid
        obtain ⟨e, he, hid', -⟩ := Stores.mem_faissIds.mp hstored
        exact absurd (List.mem_map.mpr ⟨e, he, hid'⟩) hmissing
    | faissSave h =>
      rcases h with hnone | hfault
      · refine absurd ?_ hchunks
        rw [← hfaiss, Stores.faissIds, Stores.faissEntries, hnone]
        rfl
      · rw [failing_all_of_fault hfault, nothingErasedBefore, decide_eq_true_eq]
        exact iff_of_false (hunsound (le_refl 1) (by omega)) hchunks
    | bm25Save hfault | deleteDocumentRow hfault =>
      rw [failing_all_of_fault hfault, nothingErasedBefore, decide_eq_true_eq]
      exact iff_of_false (hunsound (by omega) (by omega)) hchunks
  | unannounced hids hne hfault =>
    rw [failing_all_of_fault hfault]
    exact iff_of_true (rowSound_of_none get?_stage_five) rfl
  | erased hids hne hsteps =>
    rw [failing_all_iff]
    refine iff_of_true (rowSound_of_none get?_stage_five) fun op hfault => ?_
    cases op with
    | faissSave => exact absurd (faissSave_ok_iff.mp (hsteps 1 _ rfl)).2 hfault
    | bm25Save => exact absurd (bm25Save_ok_iff.mp (hsteps 3 _ rfl)) hfault
    | deleteDocumentRow => exact absurd (deleteDocumentRow_ok_iff.mp (hsteps 4 _ rfl)) hfault
    | getDocument | getChunkIds | faissDelete | embed | faissAdd | upsertDocumentRow
    | deleteChunks | insertChunks | bumpIndexVersion => rfl

/-! ### Runs -/

/-- A call leaves Postgres alone, or the document has no row and no chunk rows after it, or the row
of the text that was ingested. -/
def RegistryAfter (env : IngestEnv) (texts : List String) (d : String) (s s' : Stores) : Prop :=
  (s'.documents = s.documents ∧ s'.chunks = s.chunks) ∨
    (s'.documents.get? d = none ∧ s'.chunkRowIds d = ∅) ∨
    ∃ row contract context, s'.documents.get? d = some row ∧
      VersionOf env texts d row contract context

private theorem registryAfter_insert {faults : Faults}
    (hwithin : (IngestCall.insertOrUpdate contract identity).Within texts) (s : Stores) :
    RegistryAfter env texts (documentIdFor env contract.title) s
      (insertOrUpdateDocument env faults contract identity s).2 := by
  have hexit : InsertExit env faults contract identity s _ _ :=
    insertOrUpdateDocument_exit contract identity s
  have hversion {record : DocumentRecord} (hrecord : recordOf env contract identity = some record)
      {k : ℕ} (hk : 7 ≤ k) (hk' : k ≤ 9) :
      RegistryAfter env texts (documentIdFor env contract.title) s
        (Exc.stage (writeEffects record (s.diffFor env record)) s k) := by
    obtain ⟨context, hcontract⟩ := versionOf_record hrecord hwithin
    rw [hcontract.id]
    exact Or.inr (Or.inr ⟨_, contract, context, get?_stage hk hk',
      ⟨hcontract.text, hcontract.mem, hcontract.id, hcontract.hash⟩⟩)
  generalize (insertOrUpdateDocument env faults contract identity s).1 = r at hexit
  generalize (insertOrUpdateDocument env faults contract identity s).2 = s' at hexit ⊢
  cases hexit with
  | noContext | readFault | noop => exact Or.inl ⟨rfl, rfl⟩
  | @aborted record k x e hrecord hversion' hx =>
    rcases Nat.lt_or_ge k 7 with hk | hk
    · exact Or.inl (stage_registry (by omega))
    · have hlength : k < 9 := (List.getElem?_eq_some_iff.mp hx).1
      exact hversion hrecord hk (by omega)
  | unannounced hrecord | written hrecord => exact hversion hrecord (by omega) (le_refl 9)

private theorem registryAfter_delete {faults : Faults} (d : String) (s : Stores) :
    RegistryAfter env texts d s (deleteDocument env faults d s).2 := by
  have hexit : DeleteExit env faults d s _ _ := deleteDocument_exit d s
  have hgone (chunkIds : List String) :
      (Exc.stage (eraseEffects d chunkIds) s 5).chunkRowIds d = ∅ := by
    have hids : (Exc.stage (eraseEffects d chunkIds) s 5).chunkRowIds =
        Function.update s.chunkRowIds d ∅ := idsIn_filter_ne s.chunks d
    rw [hids, Function.update_self]
  generalize (deleteDocument env faults d s).1 = r at hexit
  generalize (deleteDocument env faults d s).2 = s' at hexit ⊢
  cases hexit with
  | readFault | notFound => exact Or.inl ⟨rfl, rfl⟩
  | @aborted chunkIds k x e hids hne hx =>
    have hlength : k < 5 := (List.getElem?_eq_some_iff.mp hx).1
    refine Or.inl ?_
    match k, hlength with
    | 0, _ | 1, _ | 2, _ | 3, _ | 4, _ => exact ⟨rfl, rfl⟩
  | unannounced | erased => exact Or.inr (Or.inl ⟨get?_stage_five, hgone _⟩)

private theorem registryAfter_attemptCall {l : FaultyCall} (hwithin : l.call.Within texts)
    (s : Stores) :
    RegistryAfter env texts (l.call.documentId env) s (attemptCall env s l) := by
  obtain ⟨call, faults⟩ := l
  cases call with
  | insertOrUpdate contract identity => exact registryAfter_insert hwithin s
  | delete documentId => exact registryAfter_delete documentId s

/-- **One call keeps the stores lawful**, whatever fails. -/
theorem Stores.Lawful.attemptCall (hlawful : s.Lawful env texts) {l : FaultyCall}
    (hwithin : l.call.Within texts) : (attemptCall env s l).Lawful env texts := by
  have htouches : TouchesOnly (l.call.documentId env) s (AuditFlow.attemptCall env s l) :=
    touchesOnly_attemptCall s l
  obtain ⟨hfiled, hsame⟩ := htouches hlawful.filed
  have hregistry : RegistryAfter env texts (l.call.documentId env) s
      (AuditFlow.attemptCall env s l) := registryAfter_attemptCall hwithin s
  generalize AuditFlow.attemptCall env s l = s' at hfiled hsame hregistry ⊢
  refine ⟨hfiled, fun d' hnone => ?_, fun d' row hrow => ?_⟩
  · rcases eq_or_ne d' (l.call.documentId env) with rfl | hne
    · rcases hregistry with ⟨hdocuments, hchunks⟩ | ⟨-, hempty⟩ | ⟨row, -, -, hrow, -⟩
      · rw [hdocuments] at hnone
        rw [Stores.chunkRowIds, hchunks]
        exact hlawful.parented _ hnone
      · exact hempty
      · cases hnone.symm.trans hrow
    · have hrow : s'.documents.get? d' = s.documents.get? d' :=
        congrArg DocumentPart.row (hsame d' hne)
      have hchunks : s'.chunkRowIds d' = s.chunkRowIds d' :=
        congrArg (fun part : DocumentPart => part.chunkRows.keys.toFinset) (hsame d' hne)
      rw [hchunks]
      exact hlawful.parented d' (hrow.symm.trans hnone)
  · rcases eq_or_ne d' (l.call.documentId env) with rfl | hne
    · rcases hregistry with
        ⟨hdocuments, -⟩ | ⟨hnone, -⟩ | ⟨row', contract, context, hrow', hversion⟩
      · rw [hdocuments] at hrow
        exact hlawful.versioned _ row hrow
      · cases hnone.symm.trans hrow
      · obtain rfl := Option.some.inj (hrow.symm.trans hrow')
        exact ⟨contract, context, hversion⟩
    · have hrow' : s'.documents.get? d' = s.documents.get? d' :=
        congrArg DocumentPart.row (hsame d' hne)
      exact hlawful.versioned d' row (hrow'.symm.trans hrow)

theorem lawful_empty (env : IngestEnv) (texts : List String) : Stores.Lawful env texts {} where
  filed := filed_empty
  parented _ _ := rfl
  versioned _ _ h := nomatch h

/-- However many calls were aborted, and wherever, the stores are lawful. -/
theorem lawful_of_exec {labels : List IngestLabel} (hwithin : ∀ l ∈ labels, l.call.Within texts)
    (hrun : exec (storesStep env) {} labels = some s) : s.Lawful env texts := by
  have hreach : ReachWhere (storesStep env) (fun _ l => l.call.Within texts) {} s :=
    reachWhere_of_exec hwithin hrun
  refine hreach.invariant (lawful_empty env texts) fun s l s' hlawful hwithin' hstep => ?_
  obtain rfl := Option.some.inj hstep
  exact hlawful.attemptCall hwithin'

/-- **One call** keeps no-ops sound exactly as the check says. -/
theorem noopsSound_step_iff {l : IngestLabel} (hlawful : s.Lawful env texts)
    (hinj : ∀ a ∈ texts, ∀ b ∈ texts, contentHash env a = contentHash env b → a = b)
    (hsound : NoopsSound env texts s) (hwithin : l.call.Within texts)
    (hstep : storesStep env s l = some s') :
    NoopsSound env texts s' ↔ keepsNoopsSound env s l = true := by
  obtain rfl := Option.some.inj hstep
  rw [noopsSound_iff_of_touchesOnly (touchesOnly_attemptCall s ⟨l.call, l.faults⟩) hlawful.filed
    hsound]
  rw [noopsSound_iff] at hsound
  rcases hcall : l.call with ⟨contract, identity⟩ | documentId
  · rw [hcall] at hwithin
    rcases hrecord : recordOf env contract identity with - | record
    · -- a contract without a text is refused
      have hrefused : (insertOrUpdateDocument env l.faults contract identity s).2 = s := by
        rw [insertOrUpdateDocument, hrecord]
        rfl
      simp only [AuditFlow.attemptCall, keepsNoopsSound, hcall, hrecord, hrefused]
      exact iff_of_true (hsound _) rfl
    · obtain ⟨-, -, hid, -⟩ := buildDocumentRecord_eq_some hrecord
      have hsound' := hsound record.documentId
      simp only [AuditFlow.attemptCall, keepsNoopsSound, hcall, hrecord, Option.all_some,
        IngestCall.documentId, ← hid]
      rcases hrow : s.documents.get? record.documentId with - | row
      · have hno : ¬s.documents.contains record.documentId = true := by
          rw [Dict.contains, hrow]
          exact Bool.false_ne_true
        rw [rowSound_insert_iff hlawful hinj hrow hrecord hwithin, if_neg hno]
        split_ifs with hcomes
        · rw [Bool.and_eq_true, Bool.or_eq_true, decide_eq_true_eq] at hcomes
          exact imp_iff_right hcomes
        · rw [Bool.and_eq_true, Bool.or_eq_true, decide_eq_true_eq] at hcomes
          exact iff_of_true (fun h => absurd h hcomes) rfl
      · have hyes : s.documents.contains record.documentId = true :=
          Dict.contains_iff.mpr ⟨row, hrow⟩
        rw [rowSound_update_iff hlawful hinj hsound' hrow hrecord hwithin, if_pos hyes]
  · simp only [AuditFlow.attemptCall, keepsNoopsSound, hcall, IngestCall.documentId]
    exact rowSound_delete_iff hlawful hinj (hsound documentId)

/-- No document has a row yet. -/
theorem noopsSound_empty (env : IngestEnv) (texts : List String) : NoopsSound env texts {} :=
  noopsSound_iff.mpr fun _ => rowSound_of_none rfl

/-- **No-ops are sound all along a run if and only if each call keeps them so.** -/
theorem noops_sound_iff
    (hinj : ∀ a ∈ texts, ∀ b ∈ texts, contentHash env a = contentHash env b → a = b)
    {labels : List IngestLabel} (hwithin : ∀ l ∈ labels, l.call.Within texts) :
    (∀ before after s, labels = before ++ after →
      exec (storesStep env) {} before = some s → NoopsSound env texts s) ↔
    ∀ before l after s s', labels = before ++ l :: after →
      exec (storesStep env) {} before = some s → storesStep env s l = some s' →
        keepsNoopsSound env s l = true := by
  refine forall_exec_iff (noopsSound_empty env texts) ?_
  intro before l after s s' hsplit hrun hstep hsound
  have hwithin' : ∀ l' ∈ before, l'.call.Within texts := by
    intro l' hl'
    exact hwithin l' (hsplit ▸ List.mem_append_left _ hl')
  exact noopsSound_step_iff (lawful_of_exec hwithin' hrun) hinj hsound
    (hwithin l (hsplit ▸ List.mem_append_right _ List.mem_cons_self)) hstep

end

/-- The stores that the sample contract is ingested into after a run, if that is a no-op. -/
def noopAfter (labels : List IngestLabel) (text : String) : Option Stores :=
  (exec (storesStep sampleEnv) {} labels).bind fun s =>
    match insertOrUpdateDocument sampleEnv Faults.none ⟨"Alpha", some text⟩ none s with
    | (.ok result, stores) => if result.wasNoop then some stores else none
    | (.error _, _) => none

private theorem run_of_noopAfter {labels : List IngestLabel} {text : String} {stores : Stores}
    (h : noopAfter labels text = some stores) :
    ∃ s result, exec (storesStep sampleEnv) {} labels = some s ∧
      insertOrUpdateDocument sampleEnv Faults.none ⟨"Alpha", some text⟩ none s =
        (.ok result, stores) ∧ result.wasNoop = true := by
  obtain ⟨s, hs, hnoop⟩ := Option.bind_eq_some_iff.mp h
  rcases hrun : insertOrUpdateDocument sampleEnv Faults.none ⟨"Alpha", some text⟩ none s
    with ⟨e | result, stores'⟩
  · rw [hrun] at hnoop
    cases hnoop
  · rw [hrun] at hnoop
    dsimp only at hnoop
    split_ifs at hnoop with hwas
    obtain rfl := Option.some.inj hnoop
    exact ⟨s, result, hs, hrun, hwas⟩

/-- An insert that is refused when FAISS is saved, the same insert again, and then an update that is
refused at its first change before it goes through. -/
def refusedRun : List IngestLabel :=
  [⟨sampleInsert "one", some (.faissSave, writeRefused)⟩, ⟨sampleInsert "one", none⟩,
   ⟨sampleInsert "two", some (.faissDelete, writeRefused)⟩, ⟨sampleInsert "two", none⟩]

/-- `noops_sound_iff` at this run, and the no-op after it. -/
theorem noops_sound_refused :
    ∃ s result stores, exec (storesStep sampleEnv) {} refusedRun = some s ∧
      insertOrUpdateDocument sampleEnv Faults.none ⟨"Alpha", some "two"⟩ none s =
        (.ok result, stores) ∧ result.wasNoop = true ∧
      HoldsExactly sampleEnv stores ⟨"Alpha", some "two"⟩ := by
  let ok : Stores → IngestLabel → Prop := fun s l => keepsNoopsSound sampleEnv s l = true
  have hguard : (execWhere (storesStep sampleEnv) ok {} refusedRun).isSome = true := by
    decide +kernel
  have hwithin : ∀ l ∈ refusedRun, l.call.Within ["one", "two"] := by decide +kernel
  have hwithin' : (IngestCall.insertOrUpdate ⟨"Alpha", some "two"⟩ none).Within ["one", "two"] := by
    decide +kernel
  have hsome : (noopAfter refusedRun "two").isSome = true := by decide +kernel
  obtain ⟨stores, hstores⟩ := Option.isSome_iff_exists.mp hsome
  obtain ⟨s, result, hs, hrun, hnoop⟩ := run_of_noopAfter hstores
  have hsound : NoopsSound sampleEnv ["one", "two"] s := by
    refine (noops_sound_iff sample_injective hwithin).mpr ?_ refusedRun [] s
      (List.append_nil _).symm hs
    intro before l after s s' hsplit hbefore _
    have hok : ok s l := guard_of_execWhere hguard hsplit hbefore
    exact hok
  exact ⟨s, result, stores, hs, hrun, hnoop,
    hsound ⟨"Alpha", some "two"⟩ none Faults.none result stores hwithin' hrun hnoop⟩

/-- **A no-op without any chunk row.** -/
theorem unsound_noop :
    ∃ s result stores, exec (storesStep sampleEnv) {}
        [⟨sampleInsert "one", some (.insertChunks, writeRefused)⟩] = some s ∧
      insertOrUpdateDocument sampleEnv Faults.none ⟨"Alpha", some "one"⟩ none s =
        (.ok result, stores) ∧ result.wasNoop = true ∧
      ¬HoldsExactly sampleEnv stores ⟨"Alpha", some "one"⟩ := by
  have hany : (noopAfter [⟨sampleInsert "one", some (.insertChunks, writeRefused)⟩] "one").any
      (fun stores => decide ¬HoldsExactly sampleEnv stores ⟨"Alpha", some "one"⟩) = true := by
    decide +kernel
  obtain ⟨stores, hstores, hnot⟩ := (Option.any_eq_true _ _).mp hany
  obtain ⟨s, result, hs, hrun, hnoop⟩ := run_of_noopAfter hstores
  exact ⟨s, result, stores, hs, hrun, hnoop, of_decide_eq_true hnot⟩

end AuditFlow
