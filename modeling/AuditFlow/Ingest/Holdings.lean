import AuditFlow.Ingest.Stores

/-!
# What the stores hold of each document

`faissIds`, `bm25Ids` and `chunkRowIds` are the chunk ids that the three stores hold of a document.
They are the abstraction functions from the stores to catalogs: each effect of `Stores` is `remove`
or `add` of a catalog on them, provided that what is added is new to the store.
-/

namespace AuditFlow

open Foundation

/-- The keys of the rows of a document. -/
def idsIn (rows : Dict String ChunkRecord) (documentId : String) : Finset String :=
  (rows.filter fun _ chunk => decide (chunk.documentId = documentId)).keys.toFinset

namespace Stores

/-- The chunk ids of a document in FAISS. -/
def faissIds (s : Stores) (documentId : String) : Finset String :=
  ((s.faissEntries.filter fun e => e.metadata.documentId = documentId).map (·.id)).toFinset

/-- The chunk ids of a document in the BM25 corpus. -/
def bm25Ids (s : Stores) (documentId : String) : Finset String := idsIn s.bm25 documentId

/-- The chunk ids of a document in the table `chunks`. -/
def chunkRowIds (s : Stores) (documentId : String) : Finset String := idsIn s.chunks documentId

end Stores

/-! ### Rows -/

section

variable {rows : Dict String ChunkRecord} {documentId k : String} {chunks : List ChunkRecord}

theorem mem_idsIn : k ∈ idsIn rows documentId ↔
    ∃ chunk, rows.get? k = some chunk ∧ chunk.documentId = documentId := by
  rw [idsIn, List.mem_toFinset, Dict.mem_keys_iff]
  simp only [Dict.get?_filter, Option.filter_eq_some_iff, decide_eq_true_eq]

theorem idsIn_eraseAll (rows : Dict String ChunkRecord) (ids : List String) :
    idsIn (rows.eraseAll ids) = Catalog.remove (idsIn rows) ids.toFinset := by
  funext d
  ext k
  rw [Catalog.remove, Finset.mem_sdiff, List.mem_toFinset, mem_idsIn, mem_idsIn,
    Dict.get?_eraseAll]
  split_ifs with hk
  · simp [hk]
  · simp [hk]

/-- Rows of one document that are set. -/
theorem idsIn_setAll_self (hdoc : ∀ chunk ∈ chunks, chunk.documentId = documentId) :
    idsIn (rows.setAll (·.chunkId) id chunks) documentId =
      idsIn rows documentId ∪ (chunks.map (·.chunkId)).toFinset := by
  ext k
  rw [Finset.mem_union, List.mem_toFinset, mem_idsIn, mem_idsIn]
  by_cases hk : k ∈ chunks.map (·.chunkId)
  · obtain ⟨chunk, hchunk, -, hget⟩ : ∃ e ∈ chunks, e.chunkId = k ∧
        (rows.setAll (·.chunkId) id chunks).get? k = some (id e) := Dict.get?_setAll_of_mem hk
    exact iff_of_true ⟨chunk, hget, hdoc chunk hchunk⟩ (Or.inr hk)
  · rw [Dict.get?_setAll_of_notMem hk, or_iff_left hk]

/-- Setting rows of one document that are not there yet. -/
theorem idsIn_setAll (hnew : ∀ chunk ∈ chunks, chunk.chunkId ∉ rows.keys)
    (hdoc : ∀ chunk ∈ chunks, chunk.documentId = documentId) :
    idsIn (rows.setAll (·.chunkId) id chunks) =
      Catalog.add (idsIn rows) documentId (chunks.map (·.chunkId)).toFinset := by
  funext d
  rw [Catalog.add]
  rcases eq_or_ne d documentId with rfl | hne
  · rw [Function.update_self, idsIn_setAll_self hdoc]
  · rw [Function.update_of_ne hne]
    ext k
    rw [mem_idsIn, mem_idsIn]
    by_cases hk : k ∈ chunks.map (·.chunkId)
    · -- a new key: no document had it before, and only `documentId` has it now
      obtain ⟨chunk, hchunk, rfl, hget⟩ : ∃ e ∈ chunks, e.chunkId = k ∧
          (rows.setAll (·.chunkId) id chunks).get? k = some (id e) := Dict.get?_setAll_of_mem hk
      refine iff_of_false ?_ ?_
      · rintro ⟨chunk', hchunk', hd⟩
        obtain rfl : chunk = chunk' := Option.some.inj (hget.symm.trans hchunk')
        exact hne (hd.symm.trans (hdoc chunk hchunk))
      · rintro ⟨row, hrow, -⟩
        exact hnew chunk hchunk (Dict.mem_keys_iff.mpr ⟨row, hrow⟩)
    · rw [Dict.get?_setAll_of_notMem hk]

/-- Inserting rows that are not there yet is setting them. -/
theorem foldl_insertChunk (hnodup : (chunks.map (·.chunkId)).Nodup)
    (hnew : ∀ chunk ∈ chunks, chunk.chunkId ∉ rows.keys) :
    chunks.foldl Stores.insertChunk rows = rows.setAll (·.chunkId) id chunks := by
  induction chunks generalizing rows with
  | nil => rfl
  | cons chunk chunks ih =>
    obtain ⟨hfirst, hrest⟩ := List.nodup_cons.mp hnodup
    have hinsert : Stores.insertChunk rows chunk = rows.set chunk.chunkId chunk := by
      have hnot : ¬rows.contains chunk.chunkId = true := by
        rw [Dict.contains_iff, ← Dict.mem_keys_iff]
        exact hnew chunk List.mem_cons_self
      rw [Stores.insertChunk, if_neg hnot]
    rw [List.foldl_cons, hinsert, Dict.setAll_cons]
    refine ih hrest fun chunk' hchunk' hmem => ?_
    rw [Dict.keys_set, if_neg (hnew chunk List.mem_cons_self), List.mem_append,
      List.mem_singleton] at hmem
    rcases hmem with hold | hsame
    · exact hnew chunk' (List.mem_cons_of_mem chunk hchunk') hold
    · exact hfirst (List.mem_map.mpr ⟨chunk', hchunk', hsame⟩)

/-- Deleting the rows of a document. -/
theorem idsIn_filter_ne (rows : Dict String ChunkRecord) (documentId : String) :
    idsIn (rows.filter fun _ chunk => decide (chunk.documentId ≠ documentId)) =
      Function.update (idsIn rows) documentId ∅ := by
  funext d
  ext k
  rw [mem_idsIn, Dict.get?_filter]
  simp only [Option.filter_eq_some_iff, decide_eq_true_eq]
  rcases eq_or_ne d documentId with rfl | hne
  · rw [Function.update_self]
    refine iff_of_false ?_ (Finset.notMem_empty k)
    rintro ⟨chunk, ⟨-, hother⟩, hd⟩
    exact hother hd
  · rw [Function.update_of_ne hne, mem_idsIn]
    refine exists_congr fun chunk => ⟨fun h => ⟨h.1.1, h.2⟩, fun h => ⟨⟨h.1, ?_⟩, h.2⟩⟩
    rw [h.2]
    exact hne

end

/-! ### FAISS -/

namespace Stores

variable {s : Stores} {documentId k : String} {entries : List FaissEntry}

theorem mem_faissIds : k ∈ s.faissIds documentId ↔
    ∃ e ∈ s.faissEntries, e.id = k ∧ e.metadata.documentId = documentId := by
  rw [faissIds, List.mem_toFinset, List.mem_map]
  simp only [List.mem_filter, decide_eq_true_eq]
  exact exists_congr fun e => ⟨fun h => ⟨h.1.1, h.2, h.1.2⟩, fun h => ⟨⟨h.1, h.2.2⟩, h.2.1⟩⟩

theorem faissEntries_withoutFaiss (s : Stores) (ids : List String) :
    (s.withoutFaiss ids).faissEntries = s.faissEntries.filter fun e => e.id ∉ ids := by
  rw [faissEntries, withoutFaiss, faissEntries]
  cases s.faiss with
  | none => rfl
  | some store => rfl

theorem faissEntries_withFaiss (s : Stores) (entries : List FaissEntry) :
    (s.withFaiss entries).faissEntries =
      s.faissEntries ++ entries.filter fun e => e.id ∉ s.faissEntries.map (·.id) := rfl

theorem faissIds_withoutFaiss (s : Stores) (ids : List String) :
    (s.withoutFaiss ids).faissIds = Catalog.remove s.faissIds ids.toFinset := by
  funext d
  ext k
  rw [Catalog.remove, Finset.mem_sdiff, List.mem_toFinset, mem_faissIds, mem_faissIds,
    faissEntries_withoutFaiss]
  simp only [List.mem_filter, decide_eq_true_eq]
  constructor
  · rintro ⟨e, ⟨he, hnot⟩, rfl, hd⟩
    exact ⟨⟨e, he, rfl, hd⟩, hnot⟩
  · rintro ⟨⟨e, he, rfl, hd⟩, hnot⟩
    exact ⟨e, ⟨he, hnot⟩, rfl, hd⟩

/-- Adding entries of one document that are not there yet. -/
theorem faissIds_withFaiss (hnew : ∀ e ∈ entries, e.id ∉ s.faissEntries.map (·.id))
    (hdoc : ∀ e ∈ entries, e.metadata.documentId = documentId) :
    (s.withFaiss entries).faissIds =
      Catalog.add s.faissIds documentId (entries.map (·.id)).toFinset := by
  funext d
  ext k
  rw [mem_faissIds, faissEntries_withFaiss,
    List.filter_eq_self.mpr fun e he => decide_eq_true (hnew e he), Catalog.add]
  simp only [List.mem_append, or_and_right, exists_or, ← mem_faissIds]
  rcases eq_or_ne d documentId with rfl | hne
  · rw [Function.update_self, Finset.mem_union, List.mem_toFinset, List.mem_map]
    refine or_congr_right (exists_congr fun e => ⟨fun h => ⟨h.1, h.2.1⟩, fun h => ?_⟩)
    exact ⟨h.1, h.2, hdoc e h.1⟩
  · rw [Function.update_of_ne hne, or_iff_left]
    rintro ⟨e, he, -, hd⟩
    exact hne (hd.symm.trans (hdoc e he))

/-- Ids stay distinct: what is there is skipped. -/
theorem nodup_withFaiss (h : (s.faissEntries.map (·.id)).Nodup)
    (hnodup : (entries.map (·.id)).Nodup) :
    ((s.withFaiss entries).faissEntries.map (·.id)).Nodup := by
  rw [faissEntries_withFaiss, List.map_append]
  refine h.append (hnodup.sublist (List.filter_sublist.map _)) fun k hk hmem => ?_
  obtain ⟨e, he, rfl⟩ := List.mem_map.mp hmem
  exact of_decide_eq_true (List.mem_filter.mp he).2 hk

theorem nodup_withoutFaiss (h : (s.faissEntries.map (·.id)).Nodup) (ids : List String) :
    ((s.withoutFaiss ids).faissEntries.map (·.id)).Nodup := by
  rw [faissEntries_withoutFaiss]
  exact h.sublist (List.filter_sublist.map _)

/-! ### Stores in step -/

/-- FAISS, BM25 and Postgres hold the same chunk ids of each document. -/
structure InStep (s : Stores) : Prop where
  faiss : s.faissIds = s.chunkRowIds
  bm25 : s.bm25Ids = s.chunkRowIds

/-- A stored chunk is in FAISS. -/
theorem InStep.mem_faiss (h : s.InStep) (hk : k ∈ s.chunkRowIds documentId) :
    k ∈ s.faissEntries.map (·.id) := by
  rw [← h.faiss] at hk
  obtain ⟨e, he, hid, -⟩ := mem_faissIds.mp hk
  exact List.mem_map.mpr ⟨e, he, hid⟩

/-- Before there is a FAISS store, nothing is stored. -/
theorem InStep.chunkRowIds_of_none (h : s.InStep) (hnone : s.faiss = none) (documentId : String) :
    s.chunkRowIds documentId = ∅ := by
  rw [← h.faiss, faissIds, faissEntries, hnone]
  rfl

end Stores

end AuditFlow
