import AuditFlow.Foundation.Listing
import AuditFlow.Ingest.Locality

/-!
# The order of the stored chunks

`get_document` lists the chunks of a document by `chunk_index`, and `get_scoped_context` looks for
the one with `is_preamble`. Both are positions in a text, but a chunk id is content addressed: an
update **keeps the record of a chunk whose text is still there**, with the position that it had in
an earlier text, and of a passage that repeats, the last record is the one that is stored.

So the chunks are in the order of the latest text **if and only if** these mixed positions happen to
be (`keptOrNew`, `KeepsOrder`): `ordered_iff` says so for every run without failures. A passage put
in front of the text is enough to break it, `second_preamble`.
-/

namespace AuditFlow

open Foundation

/-! ### The order of a text -/

/-- The chunk ids of a contract in the order of its text, each where it occurs first. -/
def textOrder (env : IngestEnv) (contract : Contract) : List String :=
  match recordOf env contract none with
  | some record => firstOccurrences record.chunkIds
  | none => []

/-- Chunks in the order of a text, with the first one, and no other, as preamble. -/
def FollowsText (ids : List String) (chunks : List ChunkRecord) : Prop :=
  chunks.map (·.chunkId) = ids ∧ ∀ p ∈ chunks.zipIdx, (p.1.isPreamble = true ↔ p.2 = 0)

/-- However chunks with the same `chunk_index` are listed, the listing follows the text. -/
def OrderedAs (ids : List String) (chunks : List ChunkRecord) : Prop :=
  ∀ listing, ListsBy (·.chunkIndex) chunks listing → FollowsText ids listing

/-- The chunks of a document in the BM25 corpus. -/
def Stores.corpusChunks (s : Stores) (documentId : String) : List ChunkRecord :=
  (s.bm25.filter fun _ chunk => decide (chunk.documentId = documentId)).values

/-- The stored chunks of every document are in the order of its latest text. -/
def Ordered {env : IngestEnv} (s : IngestState env) : Prop :=
  ∀ d contract, s.ledger.latest d = some contract → textOrder env contract ≠ [] →
    (∃ doc, s.stores.document d = some doc ∧ OrderedAs (textOrder env contract) doc.chunks) ∧
      OrderedAs (textOrder env contract) (s.stores.corpusChunks d)

/-- The positions increase strictly, and the preamble is the first. -/
structure InOrder (chunks : List ChunkRecord) : Prop where
  increasing : chunks.Pairwise fun a b => a.chunkIndex < b.chunkIndex
  preamble : ∀ p ∈ chunks.zipIdx, (p.1.isPreamble = true ↔ p.2 = 0)

/-- The record that a chunk of a contract has after a call: the stored one if there is one, and
otherwise that of its last occurrence in the text. -/
def Stores.keptOrNew (s : Stores) (record : DocumentRecord) (k : String) : Option ChunkRecord :=
  (s.chunks.get? k).or ((Dict.empty.setAll (·.chunkId) id record.chunks).get? k)

/-- The call has nothing to do, or the records that its chunks have afterwards are in the order of
its text. -/
def KeepsOrder (env : IngestEnv) (s : Stores) (l : IngestLabel) : Prop :=
  match l.call with
  | .insertOrUpdate contract identity =>
    ∀ record ∈ recordOf env contract identity, ¬s.hasVersion record →
      InOrder ((firstOccurrences record.chunkIds).filterMap (s.keptOrNew record))
  | .delete _ => True

instance (ids : List String) (chunks : List ChunkRecord) : Decidable (FollowsText ids chunks) :=
  inferInstanceAs (Decidable (_ ∧ _))

instance (chunks : List ChunkRecord) : Decidable (InOrder chunks) :=
  decidable_of_iff ((chunks.Pairwise fun a b => a.chunkIndex < b.chunkIndex) ∧
    ∀ p ∈ chunks.zipIdx, (p.1.isPreamble = true ↔ p.2 = 0))
    ⟨fun h => ⟨h.1, h.2⟩, fun h => ⟨h.1, h.2⟩⟩

instance (chunks listing : List ChunkRecord) : Decidable (ListsBy (·.chunkIndex) chunks listing) :=
  decidable_of_iff (listing.Perm chunks ∧
    listing.Pairwise fun a b => a.chunkIndex ≤ b.chunkIndex)
    ⟨fun h => ⟨h.1, h.2⟩, fun h => ⟨h.1, h.2⟩⟩

instance (s : Stores) (record : DocumentRecord) : Decidable (s.hasVersion record) :=
  decidable_of_iff (∃ row ∈ s.documents.get? record.documentId,
    row.contentHash = record.contentHash) Iff.rfl

instance (env : IngestEnv) (s : Stores) (l : IngestLabel) : Decidable (KeepsOrder env s l) :=
  match l with
  | ⟨.insertOrUpdate contract identity, _⟩ =>
    inferInstanceAs (Decidable (∀ record ∈ recordOf env contract identity,
      ¬s.hasVersion record →
        InOrder ((firstOccurrences record.chunkIds).filterMap (s.keptOrNew record))))
  | ⟨.delete _, _⟩ => isTrue trivial

/-! ### Listings -/

section

variable {ids : List String} {chunks rows : List ChunkRecord}

theorem inOrder_nil : InOrder [] := ⟨List.Pairwise.nil, List.forall_mem_nil _⟩

/-- **One order.** All listings of the chunks follow the text exactly if the positions increase
along it. -/
theorem orderedAs_iff (hnodup : ids.Nodup) (hperm : chunks.Perm rows)
    (hids : rows.map (·.chunkId) = ids) : OrderedAs ids chunks ↔ InOrder rows := by
  have hone : (∀ listing, ListsBy (·.chunkIndex) rows listing →
        listing.map (·.chunkId) = rows.map (·.chunkId)) ↔
      rows.Pairwise fun a b => a.chunkIndex < b.chunkIndex :=
    forall_listsBy_map_iff (hids ▸ hnodup)
  constructor
  · intro h
    have hincreasing : rows.Pairwise fun a b => a.chunkIndex < b.chunkIndex :=
      hone.mp fun listing hlisting => (h listing (hlisting.congr hperm.symm)).1.trans hids.symm
    have hrows : ListsBy (·.chunkIndex) chunks rows :=
      ⟨hperm.symm, hincreasing.imp le_of_lt⟩
    exact ⟨hincreasing, (h rows hrows).2⟩
  · intro h listing hlisting
    have hrows : listing = rows :=
      (forall_listsBy_iff (List.Nodup.of_map _ (hids ▸ hnodup))).mpr h.increasing listing
        (hlisting.congr hperm)
    rw [hrows]
    exact ⟨hids, h.preamble⟩

end

/-- `get_document` lists the chunks by `chunk_index`. -/
theorem listsBy_document {s : Stores} {d : String} {doc : DocumentRecord}
    (h : s.document d = some doc) : ListsBy (·.chunkIndex) (s.chunkRows d).values doc.chunks := by
  obtain ⟨row, -, rfl⟩ := Option.map_eq_some_iff.mp h
  exact listsBy_mergeSort _ _

/-! ### The two tables -/

/-- The BM25 corpus has the records of the table `chunks`, each under its own id. -/
structure Mirrors (s : Stores) : Prop where
  same : ∀ k, s.bm25.get? k = s.chunks.get? k
  keyed : ∀ k row, s.chunks.get? k = some row → row.chunkId = k

section

variable {env : IngestEnv} {s : IngestState env} {contract contract' : Contract}
  {identity : Option DocumentIdentity} {record : DocumentRecord} {texts : List String}
  {d k : String}

theorem nodup_textOrder (contract : Contract) : (textOrder env contract).Nodup := by
  rw [textOrder]
  split
  · exact nodup_firstOccurrences _
  · exact List.nodup_nil

theorem mem_textOrder : k ∈ textOrder env contract ↔ k ∈ contractChunkIds env contract := by
  rw [textOrder, contractChunkIds]
  rcases recordOf env contract none with - | record
  · exact iff_of_false List.not_mem_nil (Finset.notMem_empty k)
  · dsimp only
    rw [mem_firstOccurrences, List.mem_toFinset]

/-- The order of a text is that of the record of any contract with the text. -/
theorem textOrder_eq (h : recordOf env contract identity = some record)
    (hcontext : truthy contract'.context = truthy contract.context)
    (hid : documentIdFor env contract'.title = record.documentId) :
    textOrder env contract' = firstOccurrences record.chunkIds := by
  obtain ⟨context, hc, -⟩ := buildDocumentRecord_eq_some h
  have hrecord : ∃ record', recordOf env contract' none = some record' := by
    rw [recordOf, buildDocumentRecord, hcontext, hc]
    exact ⟨_, rfl⟩
  obtain ⟨record', hrecord'⟩ := hrecord
  obtain ⟨-, -, hid', -⟩ := buildDocumentRecord_eq_some hrecord'
  rw [textOrder, hrecord']
  dsimp only
  rw [chunkIds_eq_of_context hrecord' h (hid'.trans hid) hcontext]

/-- A chunk id of the ledger is stored under its document. -/
private theorem exists_row (ha : Agrees s) (hk : k ∈ s.ledger.chunkIds d) :
    ∃ row, s.stores.chunks.get? k = some row ∧ row.documentId = d := by
  rw [← ha.chunks] at hk
  exact mem_idsIn.mp hk

private theorem mem_ledger_of_textOrder (hlatest : s.ledger.latest d = some contract)
    (hk : k ∈ textOrder env contract) : k ∈ s.ledger.chunkIds d := by
  rw [Ledger.chunkIds, hlatest]
  exact mem_textOrder.mp hk

/-- The rows of a document, along its text. -/
private theorem values_perm_textOrder (ha : Agrees s)
    (hlatest : s.ledger.latest d = some contract) {rows : Dict String ChunkRecord}
    (hrows : ∀ k, rows.get? k = s.stores.chunks.get? k) :
    (rows.filter fun _ chunk => decide (chunk.documentId = d)).values.Perm
      ((textOrder env contract).filterMap s.stores.chunks.get?) := by
  have hget : ∀ k ∈ textOrder env contract,
      (rows.filter fun _ chunk => decide (chunk.documentId = d)).get? k =
        s.stores.chunks.get? k := by
    intro k hk
    obtain ⟨row, hrow, hd⟩ := exists_row ha (mem_ledger_of_textOrder hlatest hk)
    rw [Dict.get?_filter, hrows, hrow, Option.filter_some, if_pos (decide_eq_true hd)]
  rw [← List.filterMap_congr hget]
  refine Dict.values_perm_filterMap (nodup_textOrder contract) fun k => ?_
  have hids : k ∈ idsIn rows d ↔ k ∈ s.ledger.chunkIds d := by
    rw [← ha.chunks, Stores.chunkRowIds, mem_idsIn, mem_idsIn, hrows]
  rw [mem_textOrder, ← List.mem_toFinset, ← idsIn, hids, Ledger.chunkIds, hlatest]

private theorem map_chunkId_textOrder (ha : Agrees s) (hm : Mirrors s.stores)
    (hlatest : s.ledger.latest d = some contract) :
    ((textOrder env contract).filterMap s.stores.chunks.get?).map (·.chunkId) =
      textOrder env contract := by
  refine map_filterMap_get? fun k hk => ?_
  obtain ⟨row, hrow, -⟩ := exists_row ha (mem_ledger_of_textOrder hlatest hk)
  exact ⟨row, hm.keyed k row hrow, hrow⟩

/-- A document with chunks has a row. -/
private theorem exists_documentRow (ha : Agrees s) (hlatest : s.ledger.latest d = some contract)
    (hne : textOrder env contract ≠ []) : ∃ row, s.stores.documents.get? d = some row := by
  have hrecord : ∃ record, recordOf env contract none = some record := by
    rw [← Option.ne_none_iff_exists']
    intro hnone
    rw [textOrder, hnone] at hne
    exact hne rfl
  obtain ⟨record, hrecord⟩ := hrecord
  obtain ⟨context, hcontext, -⟩ := buildDocumentRecord_eq_some hrecord
  have hversions := ha.versions d
  rw [hlatest, Option.bind_some, hcontext, Option.map_some, Option.map_eq_some_iff] at hversions
  obtain ⟨row, hrow, -⟩ := hversions
  exact ⟨row, hrow⟩

/-- **The records along the text** decide whether a document is in order, in both tables. -/
theorem ordered_iff_inOrder (ha : Agrees s) (hm : Mirrors s.stores) : Ordered s ↔
    ∀ d contract, s.ledger.latest d = some contract →
      InOrder ((textOrder env contract).filterMap s.stores.chunks.get?) := by
  refine forall₃_congr fun d contract hlatest => ?_
  have hids := map_chunkId_textOrder ha hm hlatest
  have hcorpus : OrderedAs (textOrder env contract) (s.stores.corpusChunks d) ↔
      InOrder ((textOrder env contract).filterMap s.stores.chunks.get?) :=
    orderedAs_iff (nodup_textOrder contract) (values_perm_textOrder ha hlatest hm.same) hids
  constructor
  · intro h
    by_cases hnil : textOrder env contract = []
    · rw [hnil]
      exact inOrder_nil
    · exact hcorpus.mp (h hnil).2
  · intro h hne
    obtain ⟨row, hrow⟩ := exists_documentRow ha hlatest hne
    have hdoc := congrArg (Option.map (s.stores.withChunkRows d)) hrow
    have hperm := (listsBy_document hdoc).perm.trans
      (values_perm_textOrder ha hlatest fun _ => rfl)
    exact ⟨⟨_, hdoc, (orderedAs_iff (nodup_textOrder contract) hperm hids).mpr h⟩, hcorpus.mpr h⟩

/-! ### What a call does to the records -/

/-- A table after an update: new records, no records for what is deleted, and the old ones. -/
private theorem get?_updated {rows : Dict String ChunkRecord} {old : List String} (k : String) :
    ((rows.eraseAll (documentDiff env record old).toDelete).setAll (·.chunkId) id
        (documentDiff env record old).toAdd).get? k =
      if k ∈ (documentDiff env record old).toAdd.map (·.chunkId) then
        (Dict.empty.setAll (·.chunkId) id record.chunks).get? k
      else if k ∈ (documentDiff env record old).toDelete then none else rows.get? k := by
  split_ifs with hadd hdelete
  · obtain ⟨chunk, hchunk, rfl, hget⟩ : ∃ e ∈ (documentDiff env record old).toAdd,
        e.chunkId = k ∧ ((rows.eraseAll (documentDiff env record old).toDelete).setAll (·.chunkId)
          id (documentDiff env record old).toAdd).get? k = some (id e) :=
      Dict.get?_setAll_of_mem hadd
    rw [hget, get?_of_mem_toAdd hchunk]
    rfl
  · rw [Dict.get?_setAll_of_notMem hadd, Dict.get?_eraseAll, if_pos hdelete]
  · rw [Dict.get?_setAll_of_notMem hadd, Dict.get?_eraseAll, if_neg hdelete]

private theorem get?_written (ha : Agrees s)
    (hrecord : recordOf env contract identity = some record) (k : String) :
    (Exc.stage (writeEffects record (s.stores.diffFor env record)) s.stores 9).chunks.get? k =
      if k ∈ (s.stores.diffFor env record).toAdd.map (·.chunkId) then
        (Dict.empty.setAll (·.chunkId) id record.chunks).get? k
      else if k ∈ (s.stores.diffFor env record).toDelete then none
      else s.stores.chunks.get? k := by
  rw [chunks_written ha hrecord]
  exact get?_updated k

theorem Mirrors.written (ha : Agrees s) (hm : Mirrors s.stores)
    (hrecord : recordOf env contract identity = some record) :
    Mirrors (Exc.stage (writeEffects record (s.stores.diffFor env record)) s.stores 9).bumped where
  same k := by
    have hbm25 :
        (Exc.stage (writeEffects record (s.stores.diffFor env record)) s.stores 9).bumped.bm25 =
          _ :=
      stage_nine_bm25
    rw [hbm25]
    refine (get?_updated k).trans ?_
    rw [hm.same]
    exact (get?_written ha hrecord k).symm
  keyed k row hrow := by
    have hget := (get?_written ha hrecord k).symm.trans hrow
    split_ifs at hget with hadd
    · obtain ⟨chunk, -, hid, hnew⟩ : ∃ e ∈ record.chunks, e.chunkId = k ∧
          (Dict.empty.setAll (·.chunkId) id record.chunks).get? k = some (id e) :=
        Dict.get?_setAll_of_mem (mem_toAdd_chunkIds.mp hadd).1
      rw [← Option.some.inj (hnew.symm.trans hget)]
      exact hid
    · exact hm.keyed k row hget

/-- A stored chunk id tells its document. -/
private theorem documentId_of_get? (ha : Agrees s) {row : ChunkRecord}
    (hrow : s.stores.chunks.get? k = some row) : row.documentId = ownerOf k :=
  ha.filed.chunks k row hrow

/-- **The chunks of the contract**: each has the record that was stored, or else the new one. -/
theorem get?_written_of_mem (ha : Agrees s)
    (hrecord : recordOf env contract identity = some record) (hk : k ∈ record.chunkIds) :
    (Exc.stage (writeEffects record (s.stores.diffFor env record)) s.stores 9).chunks.get? k =
      s.stores.keptOrNew record k := by
  have hold : k ∈ (s.stores.chunkRows record.documentId).keys ↔
      ∃ row, s.stores.chunks.get? k = some row := by
    rw [Stores.chunkRows, Dict.mem_keys_iff]
    simp only [Dict.get?_filter, Option.filter_eq_some_iff, decide_eq_true_eq]
    refine exists_congr fun row => and_iff_left_of_imp fun hrow => ?_
    rw [documentId_of_get? ha hrow, ownerOf_of_mem_chunkIds hrecord hk]
  rw [get?_written ha hrecord, Stores.keptOrNew]
  rcases hrow : s.stores.chunks.get? k with - | row
  · have hadd : k ∈ (s.stores.diffFor env record).toAdd.map (·.chunkId) := by
      refine mem_toAdd_chunkIds.mpr ⟨hk, fun hmem => ?_⟩
      obtain ⟨row, hrow'⟩ := hold.mp hmem
      cases hrow.symm.trans hrow'
    rw [if_pos hadd, Option.none_or]
  · have hmem := hold.mpr ⟨row, hrow⟩
    have hadd : k ∉ (s.stores.diffFor env record).toAdd.map (·.chunkId) :=
      fun h => (mem_toAdd_chunkIds.mp h).2 hmem
    have hdelete : k ∉ (s.stores.diffFor env record).toDelete :=
      fun h => (mem_toDelete.mp h).2 hk
    rw [if_neg hadd, if_neg hdelete, Option.some_or]

/-- The chunks of other documents keep their records. -/
private theorem get?_written_of_ne (ha : Agrees s)
    (hrecord : recordOf env contract identity = some record) (hk : k ∈ s.ledger.chunkIds d)
    (hne : d ≠ record.documentId) :
    (Exc.stage (writeEffects record (s.stores.diffFor env record)) s.stores 9).chunks.get? k =
      s.stores.chunks.get? k := by
  have howner : ownerOf k = d := s.ledger.catalog.owned hk
  have hadd : k ∉ (s.stores.diffFor env record).toAdd.map (·.chunkId) := by
    intro hmem
    rw [ownerOf_of_mem_chunkIds hrecord (mem_toAdd_chunkIds.mp hmem).1] at howner
    exact hne howner.symm
  have hdelete : k ∉ (s.stores.diffFor env record).toDelete := by
    intro hmem
    obtain ⟨row, hrow, hd⟩ := mem_idsIn.mp (List.mem_toFinset.mpr (mem_toDelete.mp hmem).1)
    rw [documentId_of_get? ha hrow, howner] at hd
    exact hne hd
  rw [get?_written ha hrecord, if_neg hadd, if_neg hdelete]

theorem Mirrors.erased (hm : Mirrors s.stores) {documentId : String} {chunkIds : List String}
    (hids : chunkIds.toFinset = s.stores.chunkRowIds documentId) :
    Mirrors (Exc.stage (eraseEffects documentId chunkIds) s.stores 5).bumped where
  same k := by
    have hmem : k ∈ chunkIds ↔ ∃ row, s.stores.chunks.get? k = some row ∧
        row.documentId = documentId := by
      rw [← List.mem_toFinset, hids]
      exact mem_idsIn
    change (s.stores.bm25.eraseAll chunkIds).get? k =
      (s.stores.chunks.filter fun _ chunk => decide (chunk.documentId ≠ documentId)).get? k
    rw [Dict.get?_eraseAll, Dict.get?_filter, hm.same]
    rcases hrow : s.stores.chunks.get? k with - | row
    · rw [Option.filter_none, ite_self]
    · rw [hrow] at hmem
      by_cases hd : row.documentId = documentId
      · rw [if_pos (hmem.mpr ⟨row, rfl, hd⟩), Option.filter_some, if_neg (by simpa using hd)]
      · have hnot : k ∉ chunkIds := by
          intro h
          obtain ⟨row', hrow', hd'⟩ := hmem.mp h
          obtain rfl := Option.some.inj hrow'
          exact hd hd'
        rw [if_neg hnot, Option.filter_some, if_pos (by simpa using hd)]
  keyed k row hrow := by
    have hget : (s.stores.chunks.filter fun _ chunk =>
        decide (chunk.documentId ≠ documentId)).get? k = some row := hrow
    rw [Dict.get?_filter] at hget
    exact hm.keyed k row (Option.filter_eq_some_iff.mp hget).1

/-! ### One call -/

/-- A call that changes neither rows nor text orders changes no order. -/
private theorem ordered_congr {s' : IngestState env} (ha : Agrees s) (hm : Mirrors s.stores)
    (ha' : Agrees s') (hm' : Mirrors s'.stores) (hchunks : s'.stores.chunks = s.stores.chunks)
    (hledger : ∀ d contract', s'.ledger.latest d = some contract' → ∃ contract,
      s.ledger.latest d = some contract ∧ textOrder env contract = textOrder env contract')
    (h : Ordered s) : Ordered s' := by
  rw [ordered_iff_inOrder ha' hm']
  intro d contract' hlatest
  obtain ⟨contract, hlatest', hsame⟩ := hledger d contract' hlatest
  rw [hchunks, ← hsame]
  exact (ordered_iff_inOrder ha hm).mp h d contract hlatest'

/-- **A call that writes a contract** keeps the order exactly if the kept and the new records are in
the order of its text. -/
private theorem ordered_written_iff (ha : Agrees s) (hm : Mirrors s.stores)
    (hrecord : recordOf env contract identity = some record) (h : Ordered s) :
    Ordered (⟨(Exc.stage (writeEffects record (s.stores.diffFor env record)) s.stores 9).bumped,
        s.ledger.record contract⟩ : IngestState env) ↔
      InOrder ((firstOccurrences record.chunkIds).filterMap (s.stores.keptOrNew record)) := by
  obtain ⟨-, -, hid, -⟩ := buildDocumentRecord_eq_some hrecord
  rw [ordered_iff_inOrder (agrees_written ha hrecord) (hm.written ha hrecord)]
  have htext : textOrder env contract = firstOccurrences record.chunkIds :=
    textOrder_eq hrecord rfl hid.symm
  have hrows : (textOrder env contract).filterMap (Exc.stage (writeEffects record
        (s.stores.diffFor env record)) s.stores 9).chunks.get? =
      (firstOccurrences record.chunkIds).filterMap (s.stores.keptOrNew record) := by
    rw [htext]
    exact List.filterMap_congr fun k hk =>
      get?_written_of_mem ha hrecord (mem_firstOccurrences.mp hk)
  constructor
  · intro hall
    rw [← hrows]
    exact hall (documentIdFor env contract.title) contract
      (Ledger.latest_record_self s.ledger contract)
  · intro hinOrder d contract' hlatest
    dsimp only at hlatest ⊢
    rcases eq_or_ne d (documentIdFor env contract.title) with hd | hne
    · rw [hd, Ledger.latest_record_self] at hlatest
      obtain rfl := Option.some.inj hlatest
      exact hrows ▸ hinOrder
    · rw [Ledger.latest_record_of_ne s.ledger hne] at hlatest
      have hsame : (textOrder env contract').filterMap (Exc.stage (writeEffects record
            (s.stores.diffFor env record)) s.stores 9).chunks.get? =
          (textOrder env contract').filterMap s.stores.chunks.get? :=
        List.filterMap_congr fun k hk =>
          get?_written_of_ne ha hrecord (mem_ledger_of_textOrder hlatest hk) (hid ▸ hne)
      change InOrder ((textOrder env contract').filterMap (Exc.stage (writeEffects record
        (s.stores.diffFor env record)) s.stores 9).chunks.get?)
      rw [hsame]
      exact (ordered_iff_inOrder ha hm).mp h d contract' hlatest

/-- A call that deletes a document keeps the order of the others. -/
private theorem ordered_erased (ha : Agrees s) (hm : Mirrors s.stores) {documentId : String}
    {chunkIds : List String} (hids : chunkIds.toFinset = s.stores.chunkRowIds documentId)
    (h : Ordered s) :
    Ordered (⟨(Exc.stage (eraseEffects documentId chunkIds) s.stores 5).bumped,
      s.ledger.remove documentId⟩ : IngestState env) := by
  rw [ordered_iff_inOrder (agrees_erased ha hids) (hm.erased hids)]
  intro d contract hlatest
  have hne : d ≠ documentId := by
    rintro rfl
    rw [Ledger.latest_remove_self] at hlatest
    cases hlatest
  rw [Ledger.latest_remove_of_ne s.ledger hne] at hlatest
  have hsame : (textOrder env contract).filterMap (s.stores.chunks.filter
        fun _ chunk => decide (chunk.documentId ≠ documentId)).get? =
      (textOrder env contract).filterMap s.stores.chunks.get? := by
    refine List.filterMap_congr fun k hk => ?_
    obtain ⟨row, hrow, hd⟩ := exists_row ha (mem_ledger_of_textOrder hlatest hk)
    rw [Dict.get?_filter, hrow, Option.filter_some, if_pos (decide_eq_true (hd ▸ hne))]
  change InOrder ((textOrder env contract).filterMap (s.stores.chunks.filter
    fun _ chunk => decide (chunk.documentId ≠ documentId)).get?)
  rw [hsame]
  exact (ordered_iff_inOrder ha hm).mp h d contract hlatest

/-- What a call without failures does. -/
inductive CallOutcome (s : IngestState env) (l : IngestLabel) : IngestState env → Prop
  | raised {stores : Stores} (hsame : SameContents s.stores stores)
      (hkeeps : KeepsOrder env s.stores l) : CallOutcome s l ⟨stores, s.ledger⟩
  | noop {contract : Contract} {identity : Option DocumentIdentity} {record : DocumentRecord}
      (hcall : l.call = .insertOrUpdate contract identity)
      (hrecord : recordOf env contract identity = some record)
      (hversion : s.stores.hasVersion record) :
      CallOutcome s l ⟨s.stores, s.ledger.record contract⟩
  | written {contract : Contract} {identity : Option DocumentIdentity} {record : DocumentRecord}
      (hcall : l.call = .insertOrUpdate contract identity)
      (hrecord : recordOf env contract identity = some record)
      (hversion : ¬s.stores.hasVersion record) :
      CallOutcome s l
        ⟨(Exc.stage (writeEffects record (s.stores.diffFor env record)) s.stores 9).bumped,
          s.ledger.record contract⟩
  | erased {documentId : String} {chunkIds : List String} (hcall : l.call = .delete documentId)
      (hids : chunkIds.toFinset = s.stores.chunkRowIds documentId) :
      CallOutcome s l ⟨(Exc.stage (eraseEffects documentId chunkIds) s.stores 5).bumped,
        s.ledger.remove documentId⟩

/-- Without failures, a contract is only refused if it has no chunks. -/
private theorem chunkIds_eq_nil_of_writeFailure (ha : Agrees s) {n : ℕ}
    (hfails : WriteFailure Faults.none (s.stores.diffFor env record) s.stores n) :
    record.chunkIds = [] := by
  cases hfails with
  | faissDelete _ _ h =>
    obtain ⟨k, hk, hnot⟩ := h.resolve_left (not_not.mpr rfl)
    have hmem : k ∈ s.stores.faissIds record.documentId := by
      rw [ha.faiss, ← ha.chunks]
      exact List.mem_toFinset.mpr (mem_toDelete.mp hk).1
    obtain ⟨e, he, hid, -⟩ := Stores.mem_faissIds.mp hmem
    exact absurd (List.mem_map.mpr ⟨e, he, hid⟩) hnot
  | faissAdd _ h => exact absurd h (by simp [Faults.none])
  | faissSave h =>
    obtain ⟨hnone, hadd⟩ := h.resolve_right (not_not.mpr rfl)
    have hsub := toAdd_eq_nil_iff.mp hadd
    rw [ha.inStep.chunkRowIds_of_none hnone, Finset.subset_empty,
      List.toFinset_eq_empty_iff] at hsub
    exact hsub
  | bm25Save h | upsertDocumentRow h | deleteChunks _ h | insertChunks _ h => exact absurd rfl h

/-- **Every call without failures** has one of these outcomes. -/
theorem callOutcome (ha : Agrees s) {l : IngestLabel} (hfault : l.fault = none)
    {s' : IngestState env} (hstep : ingestStep env s l = some s') : CallOutcome s l s' := by
  have hfaults : l.faults = Faults.none := by rw [IngestLabel.faults, hfault]
  have hharmless : harmless env s.stores l = true := by rw [harmless, hfault]
  rw [ingestStep] at hstep
  rcases hcall : l.call with ⟨contract, identity⟩ | documentId
  · rw [hcall] at hstep
    dsimp only at hstep
    have hexit : InsertExit env l.faults contract identity s.stores _ _ :=
      insertOrUpdateDocument_exit contract identity s.stores
    rcases hrun : insertOrUpdateDocument env l.faults contract identity s.stores with ⟨r, stores⟩
    rw [hrun] at hstep hexit
    cases hexit with
    | noContext hnone =>
      obtain rfl := Option.some.inj hstep
      refine .raised ⟨rfl, rfl, rfl, rfl⟩ ?_
      simp only [KeepsOrder, hcall, hnone, Option.mem_def, reduceCtorEq, false_implies,
        implies_true]
    | readFault h =>
      rw [hfaults] at h
      exact absurd h (by simp [Faults.none])
    | noop hrecord hversion =>
      obtain rfl := Option.some.inj hstep
      exact .noop hcall hrecord hversion
    | aborted hrecord hversion hx hfails =>
      obtain rfl := Option.some.inj hstep
      have hfailure := writeFailure_of_diffFor hrecord hx hfails
      refine .raised (sameContents_of_writeFailure ha hharmless hcall hrecord hfailure) ?_
      rw [hfaults] at hfailure
      simp only [KeepsOrder, hcall]
      intro record' hrecord' _
      obtain rfl := Option.some.inj (hrecord.symm.trans hrecord')
      rw [chunkIds_eq_nil_of_writeFailure ha hfailure]
      exact inOrder_nil
    | unannounced _ _ h =>
      rw [hfaults] at h
      exact absurd rfl h
    | written hrecord hversion =>
      obtain rfl := Option.some.inj hstep
      exact .written hcall hrecord hversion
  · rw [hcall] at hstep
    dsimp only at hstep
    have hkeeps : KeepsOrder env s.stores l := by simp only [KeepsOrder, hcall]
    have hexit : DeleteExit env l.faults documentId s.stores _ _ :=
      deleteDocument_exit documentId s.stores
    rcases hrun : deleteDocument env l.faults documentId s.stores with ⟨r, stores⟩
    rw [hrun] at hstep hexit
    cases hexit with
    | readFault | notFound =>
      obtain rfl := Option.some.inj hstep
      exact .raised ⟨rfl, rfl, rfl, rfl⟩ hkeeps
    | aborted hids hne hx hfails =>
      obtain rfl := Option.some.inj hstep
      have hfailure : EraseFailure l.faults _ s.stores _ := eraseFailure_of_fails hx hfails
      exact .raised (sameContents_of_eraseFailure ha hharmless hcall hids hne hfailure) hkeeps
    | unannounced _ _ h =>
      rw [hfaults] at h
      exact absurd rfl h
    | erased hids =>
      obtain rfl := Option.some.inj hstep
      exact .erased hcall hids

/-- Both tables get the same records. -/
theorem Mirrors.step (ha : Agrees s) (hm : Mirrors s.stores) {l : IngestLabel}
    {s' : IngestState env} (h : CallOutcome s l s') : Mirrors s'.stores := by
  cases h with
  | raised hsame => exact ⟨fun k => by rw [hsame.bm25, hsame.chunks, hm.same],
      fun k row hrow => hm.keyed k row (hsame.chunks ▸ hrow)⟩
  | noop => exact hm
  | written _ hrecord => exact hm.written ha hrecord
  | erased _ hids => exact hm.erased hids

/-- **One call** keeps the order exactly if the condition is met. -/
theorem ordered_step_iff (hinv : IngestInvariant texts s) (hm : Mirrors s.stores)
    (hinj : ∀ a ∈ texts, ∀ b ∈ texts, contentHash env a = contentHash env b → a = b)
    {l : IngestLabel} {s' : IngestState env} (hwithin : l.call.Within texts)
    (hout : CallOutcome s l s') (hinv' : IngestInvariant texts s') (h : Ordered s) :
    Ordered s' ↔ KeepsOrder env s.stores l := by
  obtain ⟨ha, hin⟩ := hinv
  have hm' := hm.step ha hout
  cases hout with
  | raised hsame hkeeps =>
    have hordered := ordered_congr ha hm hinv'.agrees hm' hsame.chunks
      (fun d contract hlatest => ⟨contract, hlatest, rfl⟩) h
    exact iff_of_true hordered hkeeps
  | @noop contract identity record hcall hrecord hversion =>
    rw [hcall] at hwithin
    have hkeeps : KeepsOrder env s.stores l := by
      simp only [KeepsOrder, hcall]
      intro record' hrecord' hnew
      obtain rfl := Option.some.inj (hrecord.symm.trans hrecord')
      exact absurd hversion hnew
    refine iff_of_true (ordered_congr ha hm hinv'.agrees hm' rfl (fun d contract' hlatest => ?_) h)
      hkeeps
    -- the contract that is recorded has the text of the one before it
    obtain ⟨-, -, hid, -⟩ := buildDocumentRecord_eq_some hrecord
    obtain ⟨contract₀, hlatest₀, hcontext⟩ :=
      latest_of_hasVersion ha hin hinj hwithin hrecord hversion
    dsimp only at hlatest
    rcases eq_or_ne d record.documentId with hd | hne
    · rw [hd, hid, Ledger.latest_record_self] at hlatest
      obtain rfl := Option.some.inj hlatest
      refine ⟨contract₀, hd ▸ hlatest₀, ?_⟩
      rw [textOrder_eq hrecord hcontext (s.ledger.keyed hlatest₀),
        textOrder_eq hrecord rfl hid.symm]
    · rw [Ledger.latest_record_of_ne s.ledger (hid ▸ hne)] at hlatest
      exact ⟨contract', hlatest, rfl⟩
  | written hcall hrecord hversion =>
    rw [ordered_written_iff ha hm hrecord h]
    simp only [KeepsOrder, hcall]
    constructor
    · intro hinOrder record' hrecord' _
      obtain rfl := Option.some.inj (hrecord.symm.trans hrecord')
      exact hinOrder
    · exact fun hkeeps => hkeeps _ hrecord hversion
  | erased hcall hids =>
    exact iff_of_true (ordered_erased ha hm hids h) (by simp only [KeepsOrder, hcall])

/-! ### Runs -/

theorem ordered_empty (env : IngestEnv) : Ordered (IngestState.empty env) :=
  fun _ _ hlatest => nomatch hlatest

theorem mirrors_empty : Mirrors {} := ⟨fun _ => rfl, fun _ _ hrow => nomatch hrow⟩

/-- A call always ends. -/
private theorem exists_ingestStep (s : IngestState env) (l : IngestLabel) :
    ∃ s', ingestStep env s l = some s' := by
  rw [ingestStep]
  split
  · split
    · exact ⟨_, rfl⟩
    · exact ⟨_, rfl⟩
  · split
    · exact ⟨_, rfl⟩
    · exact ⟨_, rfl⟩

/-- One call without failures keeps the invariants. -/
private theorem invariants_step
    (hinj : ∀ a ∈ texts, ∀ b ∈ texts, contentHash env a = contentHash env b → a = b)
    (hinv : IngestInvariant texts s) (hm : Mirrors s.stores) {l : IngestLabel}
    (hl : l.fault = none ∧ l.call.Within texts) {s' : IngestState env}
    (hstep : ingestStep env s l = some s') : IngestInvariant texts s' ∧ Mirrors s'.stores := by
  have hharmless : harmless env s.stores l = true := by rw [harmless, hl.1]
  exact ⟨hinv.step hinj hl.2 hharmless hstep,
    hm.step hinv.agrees (callOutcome hinv.agrees hl.1 hstep)⟩

private theorem invariants_of_exec
    (hinj : ∀ a ∈ texts, ∀ b ∈ texts, contentHash env a = contentHash env b → a = b)
    {labels : List IngestLabel} (hlabels : ∀ l ∈ labels, l.fault = none ∧ l.call.Within texts)
    (hrun : exec (ingestStep env) (.empty env) labels = some s) :
    IngestInvariant texts s ∧ Mirrors s.stores := by
  refine (reachWhere_of_exec hlabels hrun).invariant
    (P := fun s => IngestInvariant texts s ∧ Mirrors s.stores) ?_ fun s l s' h hl hstep => ?_
  · exact ⟨⟨agrees_empty env, fun _ _ h => nomatch h⟩, mirrors_empty⟩
  · exact invariants_step hinj h.1 h.2 hl hstep

/-- **The order of the stored chunks.** In a run without failures, the stored chunks of every
document are in the order of its latest text at all times if and only if each call that writes a
contract leaves the kept and the new records in the order of its text. -/
theorem ordered_iff
    (hinj : ∀ a ∈ texts, ∀ b ∈ texts, contentHash env a = contentHash env b → a = b)
    {labels : List IngestLabel} (hlabels : ∀ l ∈ labels, l.fault = none ∧ l.call.Within texts) :
    (∀ before after s, labels = before ++ after →
      exec (ingestStep env) (.empty env) before = some s → Ordered s) ↔
    ∀ before l after s, labels = before ++ l :: after →
      exec (ingestStep env) (.empty env) before = some s → KeepsOrder env s.stores l := by
  have hstep_iff : ∀ before l after s s', labels = before ++ l :: after →
      exec (ingestStep env) (.empty env) before = some s → ingestStep env s l = some s' →
      Ordered s → (Ordered s' ↔ KeepsOrder env s.stores l) := by
    intro before l after s s' hsplit hrun hstep h
    have hbefore : ∀ l' ∈ before, l'.fault = none ∧ l'.call.Within texts :=
      fun l' hl' => hlabels l' (hsplit ▸ List.mem_append_left _ hl')
    have hl := hlabels l (hsplit ▸ List.mem_append_right _ List.mem_cons_self)
    obtain ⟨hinv, hm⟩ := invariants_of_exec hinj hbefore hrun
    exact ordered_step_iff hinv hm hinj hl.2 (callOutcome hinv.agrees hl.1 hstep)
      (invariants_step hinj hinv hm hl hstep).1 h
  rw [forall_exec_iff (ordered_empty env) hstep_iff]
  constructor
  · intro hkeeps before l after s hsplit hrun
    obtain ⟨s', hstep⟩ := exists_ingestStep s l
    exact hkeeps before l after s s' hsplit hrun hstep
  · intro hkeeps before l after s s' hsplit hrun _
    exact hkeeps before l after s hsplit hrun

end

/-! ### A passage in front -/

/-- A text of two pages: what separates them is longer than `CHUNK_SIZE`. -/
def frontText : String := "two" ++ String.ofList (List.replicate 998 ' ') ++ "\n\none"

/-- Digests of the sample texts and of `frontText`. -/
def frontSha256 : Sha256 where
  hex text :=
    if text = frontText then "02d14fc9e4f905227a8f8cae72199ce66bdff6fc5abb755df4c2a7ebab235936"
    else sampleSha256.hex text
  hex_isHexDigit {text c} h := by
    have hall : "02d14fc9e4f905227a8f8cae72199ce66bdff6fc5abb755df4c2a7ebab235936".toList.all
        isHexDigit = true := by decide +kernel
    split_ifs at h with hfront
    · exact List.all_eq_true.mp hall c h
    · exact sampleSha256.hex_isHexDigit h

/-- The sample environment, with the two pages of `frontText`. -/
def frontEnv : IngestEnv :=
  { sampleEnv with
    sha256 := frontSha256
    splitDocuments := fun chunkSize chunkOverlap text =>
      if text = frontText then ["two", "one"]
      else sampleEnv.splitDocuments chunkSize chunkOverlap text }

/-- Texts with different hashes. -/
theorem front_injective : ∀ a ∈ ["one", "two", frontText], ∀ b ∈ ["one", "two", frontText],
    contentHash frontEnv a = contentHash frontEnv b → a = b := by
  decide +kernel

/-- A text of two pages is ingested, and then its first page alone. -/
def shortenedRun : List IngestLabel :=
  [{ call := sampleInsert frontText }, { call := sampleInsert "two" }]

/-- `ordered_iff` for a text that is shortened from its end. -/
theorem ordered_iff_shortened :
    ∃ s, exec (ingestStep frontEnv) (.empty frontEnv) shortenedRun = some s ∧ Ordered s := by
  have hlabels : ∀ l ∈ shortenedRun, l.fault = none ∧
      l.call.Within ["one", "two", frontText] := by
    decide +kernel
  have hordered := (ordered_iff front_injective hlabels).mpr fun before l after s hsplit hrun => by
    have hfirst : KeepsOrder frontEnv (IngestState.empty frontEnv).stores
        { call := sampleInsert frontText } := by
      decide +kernel
    have hsecond : ∀ s ∈ exec (ingestStep frontEnv) (.empty frontEnv)
        [{ call := sampleInsert frontText }],
        KeepsOrder frontEnv s.stores { call := sampleInsert "two" } := by
      decide +kernel
    rcases before with - | ⟨l₀, - | ⟨l₁, before⟩⟩
    · obtain ⟨rfl, -⟩ := List.cons.inj hsplit
      obtain rfl := Option.some.inj hrun
      exact hfirst
    · obtain ⟨rfl, hrest⟩ := List.cons.inj hsplit
      obtain ⟨rfl, -⟩ := List.cons.inj hrest
      exact hsecond s hrun
    · have hlength := congrArg List.length hsplit
      simp only [shortenedRun, List.length_cons, List.length_append, List.length_nil] at hlength
      omega
  have hrun : (exec (ingestStep frontEnv) (.empty frontEnv) shortenedRun).isSome = true := by
    decide +kernel
  obtain ⟨s, hs⟩ := Option.isSome_iff_exists.mp hrun
  exact ⟨s, hs, hordered shortenedRun [] s (List.append_nil _).symm hs⟩

/-- A text is ingested, and then the same text with a passage in front. -/
def frontRun : List IngestLabel :=
  [{ call := sampleInsert "one" }, { call := sampleInsert frontText }]

/-- **A second preamble**: the passage in front is the first page now, and what was the first page
before still is, so that the two have the same position. -/
theorem second_preamble :
    ¬∀ (env : IngestEnv) (texts : List String) (labels : List IngestLabel) (s : IngestState env),
      (∀ a ∈ texts, ∀ b ∈ texts, contentHash env a = contentHash env b → a = b) →
      (∀ l ∈ labels, l.fault = none ∧ l.call.Within texts) →
      exec (ingestStep env) (.empty env) labels = some s → Ordered s := by
  intro h
  have hrun : (exec (ingestStep frontEnv) (.empty frontEnv) frontRun).any (fun s =>
      decide (s.ledger.latest (documentIdFor frontEnv "Alpha") = some ⟨"Alpha", some frontText⟩ ∧
        ListsBy (·.chunkIndex) (s.stores.corpusChunks (documentIdFor frontEnv "Alpha"))
          (s.stores.corpusChunks (documentIdFor frontEnv "Alpha")) ∧
        textOrder frontEnv ⟨"Alpha", some frontText⟩ ≠ [] ∧
        ¬FollowsText (textOrder frontEnv ⟨"Alpha", some frontText⟩)
          (s.stores.corpusChunks (documentIdFor frontEnv "Alpha")))) = true := by
    decide +kernel
  obtain ⟨s, hs, hdecide⟩ := (Option.any_eq_true _ _).mp hrun
  obtain ⟨hlatest, hlisting, hne, hnot⟩ := of_decide_eq_true hdecide
  have hlabels : ∀ l ∈ frontRun, l.fault = none ∧ l.call.Within ["one", "two", frontText] := by
    decide +kernel
  have hordered : Ordered s := h frontEnv _ frontRun s front_injective hlabels hs
  exact hnot ((hordered _ _ hlatest hne).2 _ hlisting)

end AuditFlow
