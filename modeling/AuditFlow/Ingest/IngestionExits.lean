import AuditFlow.Ingest.IngestionService

/-!
# Everything an ingestion can do

`InsertExit` and `DeleteExit` list the ways in which a call of `insert_or_update_document` or
`delete_document` can end, with the stores that it leaves. In particular a call that **aborts** has
had the effects of exactly the first `k` writes, and `WriteFailure` and `EraseFailure` say which
write failed at each `k`, and why.
-/

namespace AuditFlow

open Foundation

section

variable (env : IngestEnv) (faults : Faults)

/-- The ways in which `insert_or_update_document` can end. -/
inductive InsertExit (contract : Contract) (identity : Option DocumentIdentity) (s : Stores) :
    Except PyError IngestResult → Stores → Prop
  | noContext {e : PyError} (hrecord : recordOf env contract identity = none) :
      InsertExit contract identity s (.error e) s
  | readFault {e : PyError} (hfault : faults .getDocument ≠ none ∨ faults .getChunkIds ≠ none) :
      InsertExit contract identity s (.error e) s
  | noop {record : DocumentRecord} (hrecord : recordOf env contract identity = some record)
      (hversion : s.hasVersion record) :
      InsertExit contract identity s
        (.ok { documentId := record.documentId, addedChunks := 0, deletedChunks := 0
               unchangedChunks := (s.chunkRows record.documentId).keys.length, wasNoop := true }) s
  | aborted {record : DocumentRecord} {k : ℕ} {x : Exc PyError Stores Unit} {e : PyError}
      (hrecord : recordOf env contract identity = some record) (hversion : ¬s.hasVersion record)
      (hx : (writeDocument env faults record (s.diffFor env record))[k]? = some x)
      (hfails : (x (Exc.stage (writeEffects record (s.diffFor env record)) s k)).1 ≠ .ok ())
      (hbefore : ∀ j < k, ∀ y : Exc PyError Stores Unit,
        (writeDocument env faults record (s.diffFor env record))[j]? = some y →
          (y (Exc.stage (writeEffects record (s.diffFor env record)) s j)).1 = .ok ()) :
      InsertExit contract identity s (.error e)
        (Exc.stage (writeEffects record (s.diffFor env record)) s k)
  | unannounced {record : DocumentRecord} {e : PyError}
      (hrecord : recordOf env contract identity = some record) (hversion : ¬s.hasVersion record)
      (hfault : faults .bumpIndexVersion ≠ none)
      (hsteps : ∀ (k : ℕ) (x : Exc PyError Stores Unit),
        (writeDocument env faults record (s.diffFor env record))[k]? = some x →
          (x (Exc.stage (writeEffects record (s.diffFor env record)) s k)).1 = .ok ()) :
      InsertExit contract identity s (.error e)
        (Exc.stage (writeEffects record (s.diffFor env record)) s 9)
  | written {record : DocumentRecord} (hrecord : recordOf env contract identity = some record)
      (hversion : ¬s.hasVersion record)
      (hsteps : ∀ (k : ℕ) (x : Exc PyError Stores Unit),
        (writeDocument env faults record (s.diffFor env record))[k]? = some x →
          (x (Exc.stage (writeEffects record (s.diffFor env record)) s k)).1 = .ok ()) :
      InsertExit contract identity s (.ok ((s.diffFor env record).result record))
        (Exc.stage (writeEffects record (s.diffFor env record)) s 9).bumped

/-- The ways in which `delete_document` can end. -/
inductive DeleteExit (documentId : String) (s : Stores) : Except PyError Unit → Stores → Prop
  | readFault {e : PyError} (hfault : faults .getChunkIds ≠ none) :
      DeleteExit documentId s (.error e) s
  | notFound {e : PyError} (hids : s.chunkRowIds documentId = ∅) :
      DeleteExit documentId s (.error e) s
  | aborted {chunkIds : List String} {k : ℕ} {x : Exc PyError Stores Unit} {e : PyError}
      (hids : chunkIds.toFinset = s.chunkRowIds documentId) (hne : chunkIds ≠ [])
      (hx : (eraseDocument env faults documentId chunkIds)[k]? = some x)
      (hfails : (x (Exc.stage (eraseEffects documentId chunkIds) s k)).1 ≠ .ok ()) :
      DeleteExit documentId s (.error e) (Exc.stage (eraseEffects documentId chunkIds) s k)
  | unannounced {chunkIds : List String} {e : PyError}
      (hids : chunkIds.toFinset = s.chunkRowIds documentId) (hne : chunkIds ≠ [])
      (hfault : faults .bumpIndexVersion ≠ none) :
      DeleteExit documentId s (.error e) (Exc.stage (eraseEffects documentId chunkIds) s 5)
  | erased {chunkIds : List String} (hids : chunkIds.toFinset = s.chunkRowIds documentId)
      (hne : chunkIds ≠ [])
      (hsteps : ∀ (k : ℕ) (x : Exc PyError Stores Unit),
        (eraseDocument env faults documentId chunkIds)[k]? = some x →
          (x (Exc.stage (eraseEffects documentId chunkIds) s k)).1 = .ok ()) :
      DeleteExit documentId s (.ok ()) (Exc.stage (eraseEffects documentId chunkIds) s 5).bumped

variable {env faults} {s : Stores}

/-! ### The exits are complete -/

theorem getDocument_cases (faults : Faults) (documentId : String) (s : Stores) :
    getDocument faults documentId s = (.ok (s.document documentId), s) ∨
      ∃ e, getDocument faults documentId s = (.error e, s) ∧ faults .getDocument ≠ none := by
  rw [getDocument, attempt_apply]
  rcases faults .getDocument with - | e
  · exact Or.inl rfl
  · exact Or.inr ⟨e, rfl, Option.some_ne_none e⟩

theorem getChunkIdsForDocument_cases (faults : Faults) (documentId : String) (s : Stores) :
    getChunkIdsForDocument faults documentId s = (.ok (s.chunkRows documentId).keys, s) ∨
      ∃ e, getChunkIdsForDocument faults documentId s = (.error e, s) ∧
        faults .getChunkIds ≠ none := by
  rw [getChunkIdsForDocument, attempt_apply]
  rcases faults .getChunkIds with - | e
  · exact Or.inl rfl
  · exact Or.inr ⟨e, rfl, Option.some_ne_none e⟩

theorem bumpIndexVersion_cases (faults : Faults) (s : Stores) :
    bumpIndexVersion faults s = (.ok (), s.bumped) ∨
      ∃ e, bumpIndexVersion faults s = (.error e, s) ∧ faults .bumpIndexVersion ≠ none := by
  rw [bumpIndexVersion, attempt_apply]
  rcases faults .bumpIndexVersion with - | e
  · exact Or.inl rfl
  · exact Or.inr ⟨e, rfl, Option.some_ne_none e⟩

/-- Writes in order: all of them, or those before the one that fails. -/
theorem writeAll_cases {writes : List (Exc PyError Stores Unit)}
    {effects : List (Stores → Stores)} (h : List.Forall₂ Exc.Atomic writes effects)
    (wrapped : PyError) (s : Stores) :
    (writeAll writes wrapped s = (.ok (), Exc.stage effects s effects.length) ∧
        ∀ (k : ℕ) (x : Exc PyError Stores Unit), writes[k]? = some x →
          (x (Exc.stage effects s k)).1 = .ok ()) ∨
      ∃ (k : ℕ) (x : Exc PyError Stores Unit) (e : PyError), writes[k]? = some x ∧
        (x (Exc.stage effects s k)).1 ≠ .ok () ∧
        (∀ j < k, ∀ y : Exc PyError Stores Unit, writes[j]? = some y →
          (y (Exc.stage effects s j)).1 = .ok ()) ∧
        writeAll writes wrapped s = (.error e, Exc.stage effects s k) := by
  -- the handler only changes the exception, not the stores
  rcases Exc.inOrder_cases h s with ⟨hall, hsteps⟩ | ⟨k, x, e, hx, hraise, hbefore, hrun⟩
  · exact Or.inl ⟨Exc.handle_of_ok hall, hsteps⟩
  · refine Or.inr ⟨k, x, asIngestionError wrapped e, hx, ?_, hbefore, Exc.handle_of_error hrun⟩
    rw [hraise]
    exact fun h => nomatch h

/-- The no-op test of `insert_or_update_document`. -/
theorem noop_cases (record : DocumentRecord) :
    ((s.document record.documentId).filter (fun row => row.contentHash = record.contentHash) =
        none ∧ ¬s.hasVersion record) ∨
      ∃ row, (s.document record.documentId).filter
          (fun row => row.contentHash = record.contentHash) = some row ∧
        s.hasVersion record ∧ row.chunks.length = (s.chunkRows record.documentId).keys.length := by
  rw [Stores.document, Stores.hasVersion]
  rcases s.documents.get? record.documentId with - | row
  · exact Or.inl ⟨rfl, fun ⟨_, h, _⟩ => nomatch h⟩
  · rcases eq_or_ne row.contentHash record.contentHash with hsame | hne
    · refine Or.inr ⟨s.withChunkRows record.documentId row, ?_, ⟨row, rfl, hsame⟩, ?_⟩
      · exact Option.filter_eq_some_iff.mpr ⟨rfl, decide_eq_true hsame⟩
      · simp only [Stores.withChunkRows, Stores.inOrderOfIndex, List.length_mergeSort,
          Dict.values, Dict.keys, List.length_map]
    · refine Or.inl ⟨?_, ?_⟩
      · exact Option.filter_eq_none_iff.mpr fun row' hrow' => by
          obtain rfl := Option.some.inj hrow'
          exact fun hsame => hne (of_decide_eq_true hsame)
      · rintro ⟨row', hrow', hsame⟩
        obtain rfl := Option.some.inj hrow'
        exact hne hsame

private theorem updateDocument_exit {contract : Contract} {identity : Option DocumentIdentity}
    {record : DocumentRecord} (hrecord : recordOf env contract identity = some record)
    (hversion : ¬s.hasVersion record) :
    InsertExit env faults contract identity s (updateDocument env faults record s).1
      (updateDocument env faults record s).2 := by
  have hdiff : documentDiff env record (s.chunkRows record.documentId).keys =
      s.diffFor env record := rfl
  have hatomic : List.Forall₂ Exc.Atomic (writeDocument env faults record (s.diffFor env record))
      (writeEffects record (s.diffFor env record)) := atomic_writeDocument
  rw [updateDocument]
  rcases getChunkIdsForDocument_cases faults record.documentId s with
    hread | ⟨e, hread, hfault⟩
  · rw [Exc.bind_of_ok hread, hdiff]
    rcases writeAll_cases hatomic (writeError env record) s with
      ⟨hrun, hsteps⟩ | ⟨k, x, e, hx, hfails, hbefore, hrun⟩
    · have hlength : (writeEffects record (s.diffFor env record)).length = 9 := rfl
      rw [Exc.bind_of_ok hrun, hlength]
      rcases bumpIndexVersion_cases faults
          (Exc.stage (writeEffects record (s.diffFor env record)) s 9) with
        hbump | ⟨e, hbump, hfault⟩
      · rw [Exc.bind_of_ok hbump]
        exact .written hrecord hversion hsteps
      · rw [Exc.bind_of_error hbump]
        exact .unannounced hrecord hversion hfault hsteps
    · rw [Exc.bind_of_error hrun]
      exact .aborted hrecord hversion hx hfails hbefore
  · rw [Exc.bind_of_error hread]
    exact .readFault (Or.inr hfault)

/-- **Everything `insert_or_update_document` can do.** -/
theorem insertOrUpdateDocument_exit (contract : Contract) (identity : Option DocumentIdentity)
    (s : Stores) :
    InsertExit env faults contract identity s
      (insertOrUpdateDocument env faults contract identity s).1
      (insertOrUpdateDocument env faults contract identity s).2 := by
  rw [insertOrUpdateDocument]
  rcases hrecord : recordOf env contract identity with - | record
  · exact .noContext hrecord
  · dsimp only
    rcases getDocument_cases faults record.documentId s with
      hread | ⟨e, hread, hfault⟩
    · rw [Exc.bind_of_ok hread]
      rcases noop_cases (s := s) record with ⟨hnone, hversion⟩ | ⟨row, hsome, hversion, hlength⟩
      · rw [hnone]
        exact updateDocument_exit hrecord hversion
      · have hnoop : InsertExit env faults contract identity s _ s := .noop hrecord hversion
        rw [← hlength] at hnoop
        rw [hsome]
        exact hnoop
    · rw [Exc.bind_of_error hread]
      exact .readFault (Or.inl hfault)

/-- If Postgres cannot be read, nothing is written. -/
theorem insertOrUpdateDocument_of_readFault (contract : Contract)
    (identity : Option DocumentIdentity)
    (h : faults .getDocument ≠ none ∨ faults .getChunkIds ≠ none) :
    (insertOrUpdateDocument env faults contract identity s).2 = s := by
  rw [insertOrUpdateDocument]
  rcases recordOf env contract identity with - | record
  · rfl
  · dsimp only
    rcases getDocument_cases faults record.documentId s with hread | ⟨e, hread, -⟩
    · rw [Exc.bind_of_ok hread]
      rcases noop_cases (s := s) record with ⟨hnone, -⟩ | ⟨row, hsome, -, -⟩
      · rw [hnone]
        change (updateDocument env faults record s).2 = s
        rw [updateDocument]
        rcases hfault : faults .getChunkIds with - | e
        · rw [getDocument, attempt_apply] at hread
          rcases hdocument : faults .getDocument with - | e
          · exact absurd h (by simp [hfault, hdocument])
          · rw [hdocument] at hread
            cases hread
        · have hraises : getChunkIdsForDocument faults record.documentId s = (.error e, s) := by
            rw [getChunkIdsForDocument, attempt_apply, hfault]
          rw [Exc.bind_of_error hraises]
      · rw [hsome]
        rfl
    · rw [Exc.bind_of_error hread]

/-- **Everything `delete_document` can do.** -/
theorem deleteDocument_exit (documentId : String) (s : Stores) :
    DeleteExit env faults documentId s (deleteDocument env faults documentId s).1
      (deleteDocument env faults documentId s).2 := by
  rw [deleteDocument]
  rcases getChunkIdsForDocument_cases faults documentId s with
    hread | ⟨e, hread, hfault⟩
  · rw [Exc.bind_of_ok hread]
    have hids : (env.setOrder.list (s.chunkRows documentId).keys).toFinset =
        s.chunkRowIds documentId := List.toFinset_eq_of_perm _ _ (env.setOrder.perm _)
    generalize env.setOrder.list (s.chunkRows documentId).keys = chunkIds at hids ⊢
    rcases eq_or_ne chunkIds [] with rfl | hne
    · exact .notFound hids.symm
    · have hatomic : List.Forall₂ Exc.Atomic (eraseDocument env faults documentId chunkIds)
          (eraseEffects documentId chunkIds) := atomic_eraseDocument
      rw [if_neg hne]
      rcases writeAll_cases hatomic (deleteError env documentId) s with
        ⟨hrun, hsteps⟩ | ⟨k, x, e, hx, hfails, -, hrun⟩
      · have hlength : (eraseEffects documentId chunkIds).length = 5 := rfl
        rw [Exc.bind_of_ok hrun, hlength]
        rcases bumpIndexVersion_cases faults
            (Exc.stage (eraseEffects documentId chunkIds) s 5) with hbump | ⟨e, hbump, hfault⟩
        · rw [hbump]
          exact .erased hids hne hsteps
        · rw [hbump]
          exact .unannounced hids hne hfault
      · rw [Exc.bind_of_error hrun]
        exact .aborted hids hne hx hfails
  · rw [Exc.bind_of_error hread]
    exact .readFault hfault

/-! ### Which write failed -/

variable (faults) in
/-- Why the write at `k` of `insert_or_update_document` fails. -/
inductive WriteFailure (diff : DocumentDiff) (s : Stores) : ℕ → Prop
  | faissDelete (hne : diff.toDelete ≠ []) (hstore : s.faiss ≠ none)
      (h : faults .faissDelete ≠ none ∨
        ∃ id ∈ diff.toDelete, id ∉ s.faissEntries.map (·.id)) : WriteFailure diff s 0
  | faissAdd (hne : diff.toAdd ≠ []) (h : faults .embed ≠ none ∨ faults .faissAdd ≠ none) :
      WriteFailure diff s 1
  | faissSave (h : (s.faiss = none ∧ diff.toAdd = []) ∨ faults .faissSave ≠ none) :
      WriteFailure diff s 2
  | bm25Save (h : faults .bm25Save ≠ none) : WriteFailure diff s 5
  | upsertDocumentRow (h : faults .upsertDocumentRow ≠ none) : WriteFailure diff s 6
  | deleteChunks (hne : diff.toDelete ≠ []) (h : faults .deleteChunks ≠ none) :
      WriteFailure diff s 7
  | insertChunks (hne : diff.toAdd ≠ []) (h : faults .insertChunks ≠ none) : WriteFailure diff s 8

variable (faults) in
/-- Why the write at `k` of `delete_document` fails. -/
inductive EraseFailure (chunkIds : List String) (s : Stores) : ℕ → Prop
  | faissDelete (h : faults .faissDelete ≠ none ∨
      ∃ id ∈ chunkIds, id ∉ s.faissEntries.map (·.id)) : EraseFailure chunkIds s 0
  | faissSave (h : s.faiss = none ∨ faults .faissSave ≠ none) : EraseFailure chunkIds s 1
  | bm25Save (h : faults .bm25Save ≠ none) : EraseFailure chunkIds s 3
  | deleteDocumentRow (h : faults .deleteDocumentRow ≠ none) : EraseFailure chunkIds s 4

section

variable {record : DocumentRecord} {diff : DocumentDiff} {k : ℕ} {x : Exc PyError Stores Unit}

theorem faiss_withoutFaiss_eq_none_iff {ids : List String} :
    (s.withoutFaiss ids).faiss = none ↔ s.faiss = none := Option.map_eq_none_iff

theorem faiss_addedToFaiss_eq_none_iff {toAdd : List ChunkRecord} :
    (addedToFaiss record toAdd s).faiss = none ↔ s.faiss = none ∧ toAdd = [] := by
  rw [addedToFaiss]
  split_ifs with hnil
  · exact (and_iff_left hnil).symm
  · exact iff_of_false (Option.some_ne_none _) fun h => hnil h.2

@[simp] theorem addedToFaiss_documents (toAdd : List ChunkRecord) :
    (addedToFaiss record toAdd s).documents = s.documents := by
  rw [addedToFaiss_eq]

@[simp] theorem addedToFaiss_chunks (toAdd : List ChunkRecord) :
    (addedToFaiss record toAdd s).chunks = s.chunks := by
  rw [addedToFaiss_eq]

@[simp] theorem addedToFaiss_bm25 (toAdd : List ChunkRecord) :
    (addedToFaiss record toAdd s).bm25 = s.bm25 := by
  rw [addedToFaiss_eq]

/-- Up to the row of the document, Postgres is unchanged. -/
theorem stage_registry (hk : k ≤ 6) :
    (Exc.stage (writeEffects record diff) s k).documents = s.documents ∧
      (Exc.stage (writeEffects record diff) s k).chunks = s.chunks := by
  match k, hk with
  | 0, _ | 1, _ => exact ⟨rfl, rfl⟩
  | 2, _ | 3, _ | 4, _ | 5, _ | 6, _ =>
    exact ⟨addedToFaiss_documents diff.toAdd, addedToFaiss_chunks diff.toAdd⟩

/-- From the row of the document on, Postgres has the new version. -/
theorem stage_documents (hk : 7 ≤ k) (hk' : k ≤ 9) :
    (Exc.stage (writeEffects record diff) s k).documents =
      s.documents.set record.documentId { record with chunks := [] } := by
  match k, hk, hk' with
  | 7, _, _ | 8, _, _ | 9, _, _ =>
    exact congrArg (fun rows : Dict String DocumentRecord =>
      rows.set record.documentId { record with chunks := [] }) (addedToFaiss_documents diff.toAdd)

/-- After the first two writes FAISS does not change any more. -/
theorem stage_faiss (hk : 2 ≤ k) (hk' : k ≤ 9) :
    (Exc.stage (writeEffects record diff) s k).faiss =
      (addedToFaiss record diff.toAdd (s.withoutFaiss diff.toDelete)).faiss := by
  match k, hk, hk' with
  | 2, _, _ | 3, _, _ | 4, _, _ | 5, _, _ | 6, _, _ | 7, _, _ | 8, _, _ | 9, _, _ => rfl

/-- BM25 after all writes. -/
theorem stage_nine_bm25 : (Exc.stage (writeEffects record diff) s 9).bm25 =
    (s.bm25.eraseAll diff.toDelete).setAll (·.chunkId) id diff.toAdd := by
  have hbm25 : (addedToFaiss record diff.toAdd (s.withoutFaiss diff.toDelete)).bm25 = s.bm25 :=
    addedToFaiss_bm25 _
  rw [← hbm25]
  rfl

/-- The table `chunks` after all writes. -/
theorem stage_nine_chunks : (Exc.stage (writeEffects record diff) s 9).chunks =
    diff.toAdd.foldl Stores.insertChunk (s.chunks.eraseAll diff.toDelete) := by
  have hchunks :
      (addedToFaiss record diff.toAdd (s.withoutFaiss diff.toDelete)).chunks = s.chunks :=
    addedToFaiss_chunks _
  rw [← hchunks]
  rfl

private theorem writeFailure_of_fails (hnodup : (diff.toAdd.map (·.chunkId)).Nodup)
    (hdoc : ∀ chunk ∈ diff.toAdd, chunk.documentId = record.documentId)
    (hx : (writeDocument env faults record diff)[k]? = some x)
    (hfails : (x (Exc.stage (writeEffects record diff) s k)).1 ≠ .ok ()) :
    WriteFailure faults diff s k := by
  match k, hx with
  | 0, hx =>
    obtain rfl := Option.some.inj hx
    rw [Exc.stage_zero, Ne, faissDelete_ok_iff, not_or, not_or, not_and_or] at hfails
    refine .faissDelete hfails.1 hfails.2.1 (hfails.2.2.imp_right fun h => ?_)
    simpa only [not_forall, exists_prop] using h
  | 1, hx =>
    obtain rfl := Option.some.inj hx
    have hnot : ¬(diff.toAdd = [] ∨ faults .embed = none ∧ faults .faissAdd = none) := by
      intro h
      refine hfails ((addToFaiss_ok_iff hnodup).mpr ?_)
      exact h.imp_right fun hnone => ⟨hnone.1, Or.inl hnone.2⟩
    rw [not_or, not_and_or] at hnot
    exact .faissAdd hnot.1 hnot.2
  | 2, hx =>
    obtain rfl := Option.some.inj hx
    rw [Ne, faissSave_ok_iff, not_and_or, not_not, stage_faiss (le_refl 2) (by omega),
      faiss_addedToFaiss_eq_none_iff, faiss_withoutFaiss_eq_none_iff] at hfails
    exact .faissSave hfails
  | 3, hx | 4, hx =>
    -- the BM25 corpus is in memory until it is saved
    obtain rfl := Option.some.inj hx
    exact absurd rfl hfails
  | 5, hx =>
    obtain rfl := Option.some.inj hx
    rw [Ne, bm25Save_ok_iff] at hfails
    exact .bm25Save hfails
  | 6, hx =>
    obtain rfl := Option.some.inj hx
    rw [Ne, upsertDocumentRow_ok_iff] at hfails
    exact .upsertDocumentRow hfails
  | 7, hx =>
    obtain rfl := Option.some.inj hx
    rw [Ne, deleteChunks_ok_iff, not_or] at hfails
    exact .deleteChunks hfails.1 hfails.2
  | 8, hx =>
    obtain rfl := Option.some.inj hx
    -- the row of the document is there, so the foreign key holds
    have hrow : ∀ chunk ∈ diff.toAdd,
        (Exc.stage (writeEffects record diff) s 8).documents.contains chunk.documentId = true := by
      intro chunk hchunk
      rw [stage_documents (by omega) (by omega), hdoc chunk hchunk, Dict.contains_iff]
      exact ⟨_, Dict.get?_set_self _ _ _⟩
    rw [Ne, insertChunks_ok_iff hrow, not_or] at hfails
    exact .insertChunks hfails.1 hfails.2
  | k + 9, hx => cases hx

theorem writeFailure_of_diffFor {contract : Contract} {identity : Option DocumentIdentity}
    (hrecord : recordOf env contract identity = some record)
    (hx : (writeDocument env faults record (s.diffFor env record))[k]? = some x)
    (hfails : (x (Exc.stage (writeEffects record (s.diffFor env record)) s k)).1 ≠ .ok ()) :
    WriteFailure faults (s.diffFor env record) s k :=
  writeFailure_of_fails nodup_toAdd_chunkIds
    (fun _ hchunk => (chunk_owned hrecord (mem_chunks_of_mem_toAdd hchunk)).1) hx hfails

theorem eraseFailure_of_fails {documentId : String} {chunkIds : List String}
    (hx : (eraseDocument env faults documentId chunkIds)[k]? = some x)
    (hfails : (x (Exc.stage (eraseEffects documentId chunkIds) s k)).1 ≠ .ok ()) :
    EraseFailure faults chunkIds s k := by
  match k, hx with
  | 0, hx =>
    obtain rfl := Option.some.inj hx
    rw [Exc.stage_zero, Ne, faissDelete_ok_iff, not_or, not_or, not_and_or] at hfails
    refine .faissDelete (hfails.2.2.imp_right fun h => ?_)
    simpa only [not_forall, exists_prop] using h
  | 1, hx =>
    obtain rfl := Option.some.inj hx
    rw [Ne, faissSave_ok_iff, not_and_or, not_not] at hfails
    exact .faissSave (hfails.imp_left faiss_withoutFaiss_eq_none_iff.mp)
  | 2, hx =>
    obtain rfl := Option.some.inj hx
    exact absurd rfl hfails
  | 3, hx =>
    obtain rfl := Option.some.inj hx
    rw [Ne, bm25Save_ok_iff] at hfails
    exact .bm25Save hfails
  | 4, hx =>
    obtain rfl := Option.some.inj hx
    rw [Ne, deleteDocumentRow_ok_iff] at hfails
    exact .deleteDocumentRow hfails
  | k + 5, hx => cases hx

end

end

end AuditFlow
