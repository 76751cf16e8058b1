import AuditFlow.Ingest.Agreement

/-!
# Calling again after a write failed

A call that aborts half-way is called again, without further failures. The second call reads from
Postgres what there is to delete; but Postgres is written last, so that FAISS may have lost these
chunks already, and `FAISS.delete` refuses an id that is not there. `FaissIndex.add` skips the ids
that are there already; **`FaissIndex.delete` does not skip those that are gone**.

`retry_iff` says exactly when the second call goes through.
-/

namespace AuditFlow

open Foundation

/-! ### Calls that raise -/

namespace IngestCall

/-- The call raises, and leaves the stores `s'`. -/
def Raises (env : IngestEnv) (faults : Faults) (s s' : Stores) : IngestCall → Prop
  | insertOrUpdate contract identity =>
    ∃ e, insertOrUpdateDocument env faults contract identity s = (.error e, s')
  | delete documentId => ∃ e, deleteDocument env faults documentId s = (.error e, s')

/-- The call is not refused before its first write: there is a text to chunk, or a document to
delete. -/
def IsAccepted (env : IngestEnv) (s : Stores) : IngestCall → Prop
  | insertOrUpdate contract identity => recordOf env contract identity ≠ none
  | delete documentId => s.chunkRowIds documentId ≠ ∅

/-- A call that was aborted at the write `op` goes through when it is called again: an update, if
nothing was deleted from FAISS yet or Postgres has the new version already; a deletion, if nothing
was deleted yet. An update without chunks never goes through before there is a FAISS store. -/
def isRetryable (env : IngestEnv) (s : Stores) (op : IngestOp) : IngestCall → Bool
  | insertOrUpdate contract identity => (recordOf env contract identity).all fun record =>
    (decide (op ∈ [.faissDelete, .deleteChunks, .insertChunks]) ||
        decide (s.chunkRowIds record.documentId ⊆ record.chunkIds.toFinset)) &&
      (s.faiss.isSome || decide (record.chunks ≠ []))
  | delete _ => decide (op = .faissDelete)

end IngestCall

section

variable {env : IngestEnv} {s : Stores} {contract : Contract} {identity : Option DocumentIdentity}
  {record : DocumentRecord} {documentId : String} {k : ℕ}

/-- Without faults, an update is stopped by a chunk to delete that FAISS does not have, or by a
FAISS store that was never created. -/
theorem insert_raises_iff (hrecord : recordOf env contract identity = some record)
    (hversion : ¬s.hasVersion record) :
    (∃ s', (IngestCall.insertOrUpdate contract identity).Raises env Faults.none s s') ↔
      (s.faiss ≠ none ∧ ∃ id ∈ (s.diffFor env record).toDelete,
        id ∉ s.faissEntries.map (·.id)) ∨
      (s.faiss = none ∧ (s.diffFor env record).toAdd = []) := by
  have hexit : InsertExit env Faults.none contract identity s _ _ :=
    insertOrUpdateDocument_exit contract identity s
  rcases hrun : insertOrUpdateDocument env Faults.none contract identity s with ⟨r, stores⟩
  rw [hrun] at hexit
  dsimp only at hexit
  constructor
  · rintro ⟨s', e, he⟩
    obtain ⟨rfl, rfl⟩ := Prod.mk.inj (hrun.symm.trans he)
    cases hexit with
    | noContext hnone => cases hrecord.symm.trans hnone
    | readFault hfault => exact absurd hfault (by simp [Faults.none])
    | aborted hrecord' _ hx hfails =>
      obtain rfl := Option.some.inj (hrecord.symm.trans hrecord')
      cases writeFailure_of_diffFor hrecord hx hfails with
      | faissDelete _ hstore h => exact Or.inl ⟨hstore, h.resolve_left (not_not.mpr rfl)⟩
      | faissAdd _ h => exact absurd h (by simp [Faults.none])
      | faissSave h => exact Or.inr (h.resolve_right (not_not.mpr rfl))
      | bm25Save h | upsertDocumentRow h | deleteChunks _ h | insertChunks _ h =>
        exact absurd rfl h
    | unannounced _ _ hfault => exact absurd rfl hfault
  · intro hstop
    cases hexit with
    | noContext | readFault | aborted | unannounced => exact ⟨_, _, hrun⟩
    | noop hrecord' hversion' =>
      obtain rfl := Option.some.inj (hrecord.symm.trans hrecord')
      exact absurd hversion' hversion
    | written hrecord' _ hsteps =>
      obtain rfl := Option.some.inj (hrecord.symm.trans hrecord')
      have hdelete := faissDelete_ok_iff.mp (hsteps 0 _ rfl)
      have hsave := (faissSave_ok_iff.mp (hsteps 2 _ rfl)).1
      rw [stage_faiss (le_refl 2) (by omega), Ne, faiss_addedToFaiss_eq_none_iff,
        faiss_withoutFaiss_eq_none_iff] at hsave
      rcases hstop with ⟨hstore, id, hid, hnot⟩ | hnothing
      · rcases hdelete with hnil | hnone | ⟨-, hall⟩
        · rw [hnil] at hid
          cases hid
        · exact absurd hnone hstore
        · exact absurd (hall id hid) hnot
      · exact absurd hnothing hsave

/-- Without faults, a deletion is stopped by a chunk that FAISS does not have, or by a FAISS store
that was never created. -/
theorem delete_raises_iff (hne : s.chunkRowIds documentId ≠ ∅) :
    (∃ s', (IngestCall.delete documentId).Raises env Faults.none s s') ↔
      s.faiss = none ∨ ∃ id ∈ s.chunkRowIds documentId, id ∉ s.faissEntries.map (·.id) := by
  have hexit : DeleteExit env Faults.none documentId s _ _ := deleteDocument_exit documentId s
  rcases hrun : deleteDocument env Faults.none documentId s with ⟨r, stores⟩
  rw [hrun] at hexit
  dsimp only at hexit
  constructor
  · rintro ⟨s', e, he⟩
    obtain ⟨rfl, rfl⟩ := Prod.mk.inj (hrun.symm.trans he)
    cases hexit with
    | readFault hfault => exact absurd rfl hfault
    | notFound hids => exact absurd hids hne
    | aborted hids _ hx hfails =>
      have hfailure : EraseFailure Faults.none _ s _ := eraseFailure_of_fails hx hfails
      cases hfailure with
      | faissDelete h =>
        obtain ⟨id, hid, hnot⟩ := h.resolve_left (not_not.mpr rfl)
        rw [← List.mem_toFinset, hids] at hid
        exact Or.inr ⟨id, hid, hnot⟩
      | faissSave h => exact Or.inl (h.resolve_right (not_not.mpr rfl))
      | bm25Save h | deleteDocumentRow h => exact absurd rfl h
    | unannounced _ _ hfault => exact absurd rfl hfault
  · intro hstop
    cases hexit with
    | readFault | notFound | aborted | unannounced => exact ⟨_, _, hrun⟩
    | erased hids hchunks hsteps =>
      have hdelete := faissDelete_ok_iff.mp (hsteps 0 _ rfl)
      have hsave : (s.withoutFaiss _).faiss ≠ none := (faissSave_ok_iff.mp (hsteps 1 _ rfl)).1
      rw [Ne, faiss_withoutFaiss_eq_none_iff] at hsave
      rcases hstop with hnone | ⟨id, hid, hnot⟩
      · exact absurd hnone hsave
      · rw [← hids, List.mem_toFinset] at hid
        rcases hdelete with hnil | hnone | ⟨-, hall⟩
        · exact absurd hnil hchunks
        · exact absurd hnone hsave
        · exact absurd (hall id hid) hnot

/-! ### The stores that an abort leaves -/

/-- From the second write on, FAISS has lost what is to be deleted. -/
private theorem notMem_faiss_stage (hk : 1 ≤ k) (hk' : k ≤ 9) {id : String}
    (hid : id ∈ (s.diffFor env record).toDelete) : id ∉ (Exc.stage (writeEffects record
      (s.diffFor env record)) s k).faissEntries.map (·.id) := by
  have hremoved : id ∉
      (s.withoutFaiss (s.diffFor env record).toDelete).faissEntries.map (·.id) := by
    rw [Stores.faissEntries_withoutFaiss]
    intro hmem
    obtain ⟨e, he, rfl⟩ := List.mem_map.mp hmem
    exact of_decide_eq_true (List.mem_filter.mp he).2 hid
  rcases hk.eq_or_lt with rfl | hk
  · exact hremoved
  · rw [Stores.faissEntries, stage_faiss hk hk', ← Stores.faissEntries, addedToFaiss]
    split_ifs with hnil
    · exact hremoved
    · rw [Stores.faissEntries_withFaiss, List.map_append, List.mem_append]
      rintro (hold | hnew)
      · exact hremoved hold
      · -- what is added belongs to the new version, and what is deleted does not
        obtain ⟨e, he, rfl⟩ := List.mem_map.mp hnew
        obtain ⟨chunk, hchunk, rfl⟩ := List.mem_map.mp (List.mem_filter.mp he).1
        exact (mem_toDelete.mp hid).2 (mem_toAdd_chunkIds.mp (List.mem_map_of_mem hchunk)).1

private theorem faiss_stage_eq_none_iff (hk : 1 ≤ k) (hk' : k ≤ 9)
    (hadd : (s.diffFor env record).toAdd = []) :
    (Exc.stage (writeEffects record (s.diffFor env record)) s k).faiss = none ↔ s.faiss = none := by
  rcases hk.eq_or_lt with rfl | hk
  · exact faiss_withoutFaiss_eq_none_iff
  · rw [stage_faiss hk hk', faiss_addedToFaiss_eq_none_iff, faiss_withoutFaiss_eq_none_iff]
    exact and_iff_left hadd

private theorem faiss_stage_ne_none (hk : 1 ≤ k) (hk' : k ≤ 9) (h : s.faiss ≠ none) :
    (Exc.stage (writeEffects record (s.diffFor env record)) s k).faiss ≠ none := by
  rcases hk.eq_or_lt with rfl | hk
  · exact fun hnone => h (faiss_withoutFaiss_eq_none_iff.mp hnone)
  · rw [stage_faiss hk hk', Ne, faiss_addedToFaiss_eq_none_iff, faiss_withoutFaiss_eq_none_iff]
    exact fun hnone => h hnone.1

/-- Before there is a FAISS store, every chunk is new. -/
private theorem toAdd_eq_nil_iff_of_none (hstep : s.InStep) (hnone : s.faiss = none) :
    (s.diffFor env record).toAdd = [] ↔ record.chunks = [] := by
  rw [toAdd_eq_nil_iff, hstep.chunkRowIds_of_none hnone, Finset.subset_empty,
    List.toFinset_eq_empty_iff, DocumentRecord.chunkIds, List.map_eq_nil_iff]

/-- **After an abort between FAISS and Postgres** an update goes through if nothing was to be
deleted, and there is a FAISS store in the end. -/
private theorem insert_raises_stage_iff (hstep : s.InStep)
    (hrecord : recordOf env contract identity = some record) (hversion : ¬s.hasVersion record)
    (hk : 1 ≤ k) (hk' : k ≤ 6) :
    (∃ s', (IngestCall.insertOrUpdate contract identity).Raises env Faults.none
        (Exc.stage (writeEffects record (s.diffFor env record)) s k) s') ↔
      (s.diffFor env record).toDelete ≠ [] ∨ (s.faiss = none ∧ record.chunks = []) := by
  obtain ⟨hdocuments, hchunks⟩ : (Exc.stage (writeEffects record (s.diffFor env record)) s
    k).documents = s.documents ∧ _ := stage_registry hk'
  have hversion' : ¬(Exc.stage (writeEffects record (s.diffFor env record)) s k).hasVersion
      record := by
    rw [Stores.hasVersion, hdocuments]
    exact hversion
  have hdiff : (Exc.stage (writeEffects record (s.diffFor env record)) s k).diffFor env record =
      s.diffFor env record := by
    rw [Stores.diffFor, Stores.chunkRows, hchunks, ← Stores.chunkRows, ← Stores.diffFor]
  rw [insert_raises_iff hrecord hversion', hdiff]
  constructor
  · rintro (⟨-, id, hid, -⟩ | ⟨hnone, hadd⟩)
    · exact Or.inl (List.ne_nil_of_mem hid)
    · rw [faiss_stage_eq_none_iff hk (by omega) hadd] at hnone
      exact Or.inr ⟨hnone, (toAdd_eq_nil_iff_of_none hstep hnone).mp hadd⟩
  · rintro (hdelete | ⟨hnone, hrecordChunks⟩)
    · obtain ⟨id, hid⟩ := List.exists_mem_of_ne_nil _ hdelete
      have hstore : s.faiss ≠ none := fun hnone => hdelete (toDelete_eq_nil_of_none hstep hnone)
      exact Or.inl ⟨faiss_stage_ne_none hk (by omega) hstore, id, hid,
        notMem_faiss_stage hk (by omega) hid⟩
    · have hadd : (s.diffFor env record).toAdd = [] :=
        (toAdd_eq_nil_iff_of_none hstep hnone).mpr hrecordChunks
      exact Or.inr ⟨(faiss_stage_eq_none_iff hk (by omega) hadd).mpr hnone, hadd⟩

/-- After an abort of a deletion behind its first write, FAISS has lost the chunks. -/
private theorem delete_raises_stage {chunkIds : List String}
    (hids : chunkIds.toFinset = s.chunkRowIds documentId) (hne : chunkIds ≠ []) (hk : 1 ≤ k)
    (hk' : k ≤ 4) : ∃ s', (IngestCall.delete documentId).Raises env Faults.none
      (Exc.stage (eraseEffects documentId chunkIds) s k) s' := by
  have hrows : (Exc.stage (eraseEffects documentId chunkIds) s k).chunkRowIds documentId =
      chunkIds.toFinset := by
    rw [hids]
    match k, hk, hk' with
    | 1, _, _ | 2, _, _ | 3, _, _ | 4, _, _ => rfl
  have hentries : (Exc.stage (eraseEffects documentId chunkIds) s k).faissEntries =
      s.faissEntries.filter fun e => e.id ∉ chunkIds := by
    rw [← Stores.faissEntries_withoutFaiss]
    match k, hk, hk' with
    | 1, _, _ | 2, _, _ | 3, _, _ | 4, _, _ => rfl
  obtain ⟨id, hid⟩ := List.exists_mem_of_ne_nil chunkIds hne
  have hnonempty : chunkIds.toFinset ≠ ∅ := fun h => hne ((List.toFinset_eq_empty_iff _).mp h)
  refine (delete_raises_iff (hrows ▸ hnonempty)).mpr (Or.inr ⟨id, ?_, ?_⟩)
  · rw [hrows]
    exact List.mem_toFinset.mpr hid
  · rw [hentries]
    intro hmem
    obtain ⟨e, he, rfl⟩ := List.mem_map.mp hmem
    exact of_decide_eq_true (List.mem_filter.mp he).2 hid

/-- From the row of the document on, Postgres has the version. -/
private theorem hasVersion_stage (hk : 7 ≤ k) (hk' : k ≤ 9) : (Exc.stage (writeEffects record
    (s.diffFor env record)) s k).hasVersion record := by
  rw [Stores.hasVersion, stage_documents hk hk']
  exact ⟨_, Dict.get?_set_self _ _ _, rfl⟩

/-- A version that Postgres has is not written again. -/
private theorem not_raises_of_hasVersion (hrecord : recordOf env contract identity = some record)
    (hversion : s.hasVersion record) (s' : Stores) :
    ¬(IngestCall.insertOrUpdate contract identity).Raises env Faults.none s s' := by
  rintro ⟨e, he⟩
  have hexit : InsertExit env Faults.none contract identity s _ _ :=
    insertOrUpdateDocument_exit contract identity s
  rw [he] at hexit
  dsimp only at hexit
  cases hexit with
  | noContext hnone => cases hrecord.symm.trans hnone
  | readFault hfault => exact absurd hfault (by simp [Faults.none])
  | aborted hrecord' hversion' | unannounced hrecord' hversion' =>
    obtain rfl := Option.some.inj (hrecord.symm.trans hrecord')
    exact hversion' hversion

/-! ### Calling again -/

section

variable {op op' : IngestOp} {e : PyError} {s' : Stores}

private theorem eq_of_only_ne_none (h : Faults.only op e op' ≠ none) : op' = op := by
  rw [Faults.only] at h
  split_ifs at h with hop
  · exact hop
  · exact absurd rfl h

private theorem isRetryable_insert_iff (hrecord : recordOf env contract identity = some record) :
    (IngestCall.insertOrUpdate contract identity).isRetryable env s op = true ↔
      (op ∈ [.faissDelete, .deleteChunks, .insertChunks] ∨ (s.diffFor env record).toDelete = []) ∧
        (s.faiss ≠ none ∨ record.chunks ≠ []) := by
  rw [toDelete_eq_nil_iff, ← Option.isSome_iff_ne_none]
  simp only [IngestCall.isRetryable, hrecord, Option.all_some, Bool.and_eq_true, Bool.or_eq_true,
    decide_eq_true_eq]

/-- Between FAISS and Postgres it only matters whether something was to be deleted. -/
private theorem insert_retry_between (hstep : s.InStep)
    (hrecord : recordOf env contract identity = some record) (hversion : ¬s.hasVersion record)
    (hk : 1 ≤ k) (hk' : k ≤ 6) (hop : op ∉ [.faissDelete, .deleteChunks, .insertChunks] ∨
      (s.faiss = none ∧ record.chunks = [])) :
    (∀ s'', ¬(IngestCall.insertOrUpdate contract identity).Raises env Faults.none
        (Exc.stage (writeEffects record (s.diffFor env record)) s k) s'') ↔
      (op ∈ [.faissDelete, .deleteChunks, .insertChunks] ∨ (s.diffFor env record).toDelete = []) ∧
        (s.faiss ≠ none ∨ record.chunks ≠ []) := by
  rw [← not_exists, insert_raises_stage_iff hstep hrecord hversion hk hk', not_or, not_not,
    not_and_or]
  refine ⟨fun h => ⟨Or.inr h.1, h.2⟩, fun h => ?_⟩
  rcases hop with hop | ⟨hnone, hnil⟩
  · exact ⟨h.1.resolve_left hop, h.2⟩
  · exact absurd h.2 (not_or.mpr ⟨not_not.mpr hnone, not_not.mpr hnil⟩)

private theorem insert_retry_of_failure (hstep : s.InStep) (hwrite : op.isStoreWrite = true)
    (hrecord : recordOf env contract identity = some record) (hversion : ¬s.hasVersion record)
    (hfailure : WriteFailure (Faults.only op e) (s.diffFor env record) s k) :
    (∀ s'', ¬(IngestCall.insertOrUpdate contract identity).Raises env Faults.none
        (Exc.stage (writeEffects record (s.diffFor env record)) s k) s'') ↔
      (op ∈ [.faissDelete, .deleteChunks, .insertChunks] ∨ (s.diffFor env record).toDelete = []) ∧
        (s.faiss ≠ none ∨ record.chunks ≠ []) := by
  cases hfailure with
  | faissDelete hne hstore h =>
    -- in step, FAISS has what is to be deleted, so that it is the fault that stopped the call
    have hpresent : ¬∃ id ∈ (s.diffFor env record).toDelete, id ∉ s.faissEntries.map (·.id) := by
      rintro ⟨id, hid, hnot⟩
      exact hnot (hstep.mem_faiss (List.mem_toFinset.mpr (mem_toDelete.mp hid).1))
    obtain rfl := eq_of_only_ne_none (h.resolve_right hpresent)
    rw [Exc.stage_zero, ← not_exists, insert_raises_iff hrecord hversion]
    refine iff_of_true ?_ ⟨Or.inl (by decide), Or.inl hstore⟩
    rintro (⟨-, hmissing⟩ | ⟨hnone, -⟩)
    · exact hpresent hmissing
    · exact hstore hnone
  | faissAdd hne h =>
    have hop : op ∉ [.faissDelete, .deleteChunks, .insertChunks] := by
      rcases h with hembed | hadd
      · -- embedding is not a write
        obtain rfl := eq_of_only_ne_none hembed
        cases hwrite
      · obtain rfl := eq_of_only_ne_none hadd
        decide
    exact insert_retry_between hstep hrecord hversion (by omega) (by omega) (Or.inl hop)
  | faissSave h =>
    refine insert_retry_between hstep hrecord hversion (by omega) (by omega) ?_
    rcases h with ⟨hnone, hadd⟩ | hfault
    · exact Or.inr ⟨hnone, (toAdd_eq_nil_iff_of_none hstep hnone).mp hadd⟩
    · obtain rfl := eq_of_only_ne_none hfault
      exact Or.inl (by decide)
  | bm25Save hfault | upsertDocumentRow hfault =>
    obtain rfl := eq_of_only_ne_none hfault
    exact insert_retry_between hstep hrecord hversion (by omega) (by omega) (Or.inl (by decide))
  | deleteChunks hne hfault =>
    -- from here on the second call finds the new version in Postgres, and does nothing
    obtain rfl := eq_of_only_ne_none hfault
    have hstore : s.faiss ≠ none := fun hnone => hne (toDelete_eq_nil_of_none hstep hnone)
    exact iff_of_true (not_raises_of_hasVersion hrecord (hasVersion_stage (by omega) (by omega)))
      ⟨Or.inl (by decide), Or.inl hstore⟩
  | insertChunks hne hfault =>
    obtain rfl := eq_of_only_ne_none hfault
    have hchunks : record.chunks ≠ [] := by
      intro hnil
      refine hne (toAdd_eq_nil_iff.mpr ?_)
      rw [DocumentRecord.chunkIds, hnil]
      exact Finset.empty_subset _
    exact iff_of_true (not_raises_of_hasVersion hrecord (hasVersion_stage (by omega) (by omega)))
      ⟨Or.inl (by decide), Or.inr hchunks⟩

private theorem insert_retry_iff (hstep : s.InStep) (hwrite : op.isStoreWrite = true)
    (hrecord : recordOf env contract identity = some record)
    (habort : (IngestCall.insertOrUpdate contract identity).Raises env (Faults.only op e) s s') :
    (∀ s'', ¬(IngestCall.insertOrUpdate contract identity).Raises env Faults.none s' s'') ↔
      (IngestCall.insertOrUpdate contract identity).isRetryable env s op = true := by
  rw [isRetryable_insert_iff hrecord]
  obtain ⟨e', he⟩ := habort
  have hexit : InsertExit env (Faults.only op e) contract identity s _ _ :=
    insertOrUpdateDocument_exit contract identity s
  rw [he] at hexit
  dsimp only at hexit
  cases hexit with
  | noContext hnone => cases hrecord.symm.trans hnone
  | readFault hfault =>
    rcases hfault with hfault | hfault
    · obtain rfl := eq_of_only_ne_none hfault
      cases hwrite
    · obtain rfl := eq_of_only_ne_none hfault
      cases hwrite
  | unannounced _ _ hfault =>
    obtain rfl := eq_of_only_ne_none hfault
    cases hwrite
  | aborted hrecord' hversion hx hfails =>
    obtain rfl := Option.some.inj (hrecord.symm.trans hrecord')
    exact insert_retry_of_failure hstep hwrite hrecord hversion
      (writeFailure_of_diffFor hrecord hx hfails)

private theorem delete_retry_iff (hstep : s.InStep) (hwrite : op.isStoreWrite = true)
    (hne : s.chunkRowIds documentId ≠ ∅)
    (habort : (IngestCall.delete documentId).Raises env (Faults.only op e) s s') :
    (∀ s'', ¬(IngestCall.delete documentId).Raises env Faults.none s' s'') ↔
      (IngestCall.delete documentId).isRetryable env s op = true := by
  obtain ⟨e', he⟩ := habort
  have hexit : DeleteExit env (Faults.only op e) documentId s _ _ :=
    deleteDocument_exit documentId s
  have hstore : s.faiss ≠ none := fun hnone => hne (hstep.chunkRowIds_of_none hnone documentId)
  rw [he] at hexit
  dsimp only at hexit
  rw [IngestCall.isRetryable, decide_eq_true_eq, ← not_exists]
  cases hexit with
  | readFault hfault | unannounced _ _ hfault =>
    obtain rfl := eq_of_only_ne_none hfault
    cases hwrite
  | notFound hids => exact absurd hids hne
  | aborted hids hchunks hx hfails =>
    have hfailure : EraseFailure (Faults.only op e) _ s _ := eraseFailure_of_fails hx hfails
    cases hfailure with
    | faissDelete h =>
      have hpresent : ∀ id ∈ s.chunkRowIds documentId, id ∈ s.faissEntries.map (·.id) :=
        fun id hid => hstep.mem_faiss hid
      have hfault : Faults.only op e .faissDelete ≠ none := by
        refine h.resolve_right ?_
        rintro ⟨id, hid, hnot⟩
        exact hnot (hpresent id (hids ▸ List.mem_toFinset.mpr hid))
      obtain rfl := eq_of_only_ne_none hfault
      rw [Exc.stage_zero, delete_raises_iff hne]
      refine iff_of_true ?_ rfl
      rintro (hnone | ⟨id, hid, hnot⟩)
      · exact hstore hnone
      · exact hnot (hpresent id hid)
    | faissSave h =>
      obtain rfl := eq_of_only_ne_none (h.resolve_left hstore)
      exact iff_of_false (not_not.mpr (delete_raises_stage hids hchunks (by omega) (by omega)))
        (by decide)
    | bm25Save hfault | deleteDocumentRow hfault =>
      obtain rfl := eq_of_only_ne_none hfault
      exact iff_of_false (not_not.mpr (delete_raises_stage hids hchunks (by omega) (by omega)))
        (by decide)

/-- **When a retry goes through.** From stores in step, a call is aborted by one failing write; the
same call without failures then does not raise exactly if it is retryable. -/
theorem retry_iff {call : IngestCall} (hstep : s.InStep) (haccepted : call.IsAccepted env s)
    (hwrite : op.isStoreWrite = true) (habort : call.Raises env (Faults.only op e) s s') :
    (∀ s'', ¬call.Raises env Faults.none s' s'') ↔ call.isRetryable env s op = true := by
  cases call with
  | insertOrUpdate contract identity =>
    obtain ⟨record, hrecord⟩ := Option.ne_none_iff_exists'.mp haccepted
    exact insert_retry_iff hstep hwrite hrecord habort
  | delete documentId => exact delete_retry_iff hstep hwrite haccepted habort

end

end

/-! ### Concrete runs -/

private theorem raises_of_isOk {env : IngestEnv} {faults : Faults} {contract : Contract}
    {identity : Option DocumentIdentity} {s : Stores}
    (h : (insertOrUpdateDocument env faults contract identity s).1.isOk = false) :
    (IngestCall.insertOrUpdate contract identity).Raises env faults s
      (insertOrUpdateDocument env faults contract identity s).2 := by
  rcases hrun : insertOrUpdateDocument env faults contract identity s with ⟨e | result, s'⟩
  · exact ⟨e, hrun⟩
  · rw [hrun] at h
    cases h

/-- `retry_iff` for a new document whose BM25 corpus could not be saved. -/
theorem retry_iff_new :
    ∃ s', (sampleInsert "one").Raises sampleEnv (Faults.only .bm25Save writeRefused) {} s' ∧
      ∀ s'', ¬(sampleInsert "one").Raises sampleEnv Faults.none s' s'' := by
  have habort : (insertOrUpdateDocument sampleEnv (Faults.only .bm25Save writeRefused)
      ⟨"Alpha", some "one"⟩ none {}).1.isOk = false := by decide +kernel
  have haccepted : (sampleInsert "one").IsAccepted sampleEnv {} := Option.some_ne_none _
  have hretryable : (sampleInsert "one").isRetryable sampleEnv {} .bm25Save = true := by
    decide +kernel
  have hraises := raises_of_isOk habort
  have hretry := (retry_iff (agrees_empty sampleEnv).inStep haccepted rfl hraises).mpr hretryable
  exact ⟨_, hraises, hretry⟩

/-- **A retry that is refused.** The update of a stored document could not save FAISS; called again,
it asks FAISS to delete the old chunk once more. -/
theorem refused_retry :
    ∃ s s' s'', Reach (ingestStep sampleEnv) (.empty sampleEnv) s ∧ s.stores.InStep ∧
      (sampleInsert "two").IsAccepted sampleEnv s.stores ∧
      (sampleInsert "two").Raises sampleEnv (Faults.only .faissSave writeRefused) s.stores s' ∧
      (sampleInsert "two").Raises sampleEnv Faults.none s' s'' := by
  have hrun : (execWhere (ingestStep sampleEnv)
      (fun s l => l.call.Within ["one", "two"] ∧ harmless sampleEnv s.stores l = true)
      (.empty sampleEnv) [⟨sampleInsert "one", none⟩]).any (fun s =>
        let aborted := insertOrUpdateDocument sampleEnv (Faults.only .faissSave writeRefused)
          ⟨"Alpha", some "two"⟩ none s.stores
        let again := insertOrUpdateDocument sampleEnv Faults.none ⟨"Alpha", some "two"⟩ none
          aborted.2
        !aborted.1.isOk && !again.1.isOk) = true := by
    decide +kernel
  obtain ⟨s, hs, hboth⟩ := (Option.any_eq_true _ _).mp hrun
  obtain ⟨habort, hagain⟩ := (Bool.and_eq_true _ _).mp hboth
  have hreach := ReachWhere.start.exec hs
  exact ⟨s, _, _, hreach.reach, (invariant_of_reachWhere sample_injective hreach).agrees.inStep,
    Option.some_ne_none _, raises_of_isOk (Bool.not_eq_true' _ ▸ habort),
    raises_of_isOk (Bool.not_eq_true' _ ▸ hagain)⟩

end AuditFlow
