import AuditFlow.Foundation.Filing
import AuditFlow.Ingest.Agreement

/-!
# A call touches one document

`DocumentPart` is what the stores hold of one document: its row, its chunks in Postgres and in BM25,
and its entries in FAISS. What a call deletes is read from the table `chunks`, which calls that
failed may have left half-updated. But each chunk there is **filed** under an id of its document
(`Stores.Filed`), however far the calls before have come, and what a call adds has ids of its own
document: so whatever fails in a call, and wherever, it leaves the parts of all other documents
alone (`others_untouched`).
-/

namespace AuditFlow

open Foundation

/-- What the stores hold of a document. -/
structure DocumentPart where
  row : Option DocumentRecord := none
  chunkRows : Dict String ChunkRecord := .empty
  bm25 : Dict String ChunkRecord := .empty
  faiss : List FaissEntry := []

/-- The rows of a table that belong to a document. -/
def rowsOf (rows : Dict String ChunkRecord) (documentId : String) : Dict String ChunkRecord :=
  rows.filter fun _ chunk => decide (chunk.documentId = documentId)

/-- The part of a document. -/
def Stores.part (s : Stores) (documentId : String) : DocumentPart where
  row := s.documents.get? documentId
  chunkRows := rowsOf s.chunks documentId
  bm25 := rowsOf s.bm25 documentId
  faiss := s.faissEntries.filter fun e => e.metadata.documentId = documentId

/-- Each chunk is stored under an id that names its document. -/
structure Stores.Filed (s : Stores) : Prop where
  chunks : s.chunks.Filed ownerOf (·.documentId)
  bm25 : s.bm25.Filed ownerOf (·.documentId)
  faiss : ∀ e ∈ s.faissEntries, e.metadata.documentId = ownerOf e.id

/-- Filed stores stay filed, and the parts of all documents but `d` stay as they are. -/
def TouchesOnly (d : String) (s s' : Stores) : Prop :=
  s.Filed → s'.Filed ∧ ∀ d', d' ≠ d → s'.part d' = s.part d'

/-! ### Effects -/

section

variable {d : String} {s s' s'' : Stores}

theorem touchesOnly_refl (d : String) (s : Stores) : TouchesOnly d s s :=
  fun h => ⟨h, fun _ _ => rfl⟩

theorem TouchesOnly.trans (h : TouchesOnly d s s') (h' : TouchesOnly d s' s'') :
    TouchesOnly d s s'' := by
  intro hfiled
  obtain ⟨hfiled', hsame⟩ := h hfiled
  obtain ⟨hfiled'', hsame'⟩ := h' hfiled'
  exact ⟨hfiled'', fun d' hne => (hsame' d' hne).trans (hsame d' hne)⟩

private theorem touchesOnly_bm25 {rows : Dict String ChunkRecord}
    (h : Dict.ChangesOnly ownerOf (·.documentId) d s.bm25 rows) :
    TouchesOnly d s { s with bm25 := rows } := by
  intro hfiled
  obtain ⟨hbm25, hsame⟩ := h hfiled.bm25
  refine ⟨⟨hfiled.chunks, hbm25, hfiled.faiss⟩, fun d' hne => ?_⟩
  exact congrArg (fun rows => { s.part d' with bm25 := rows }) (hsame d' hne)

private theorem touchesOnly_chunks {rows : Dict String ChunkRecord}
    (h : Dict.ChangesOnly ownerOf (·.documentId) d s.chunks rows) :
    TouchesOnly d s { s with chunks := rows } := by
  intro hfiled
  obtain ⟨hchunks, hsame⟩ := h hfiled.chunks
  refine ⟨⟨hchunks, hfiled.bm25, hfiled.faiss⟩, fun d' hne => ?_⟩
  exact congrArg (fun rows => { s.part d' with chunkRows := rows }) (hsame d' hne)

private theorem touchesOnly_documents {rows : Dict String DocumentRecord}
    (h : ∀ d', d' ≠ d → rows.get? d' = s.documents.get? d') :
    TouchesOnly d s { s with documents := rows } := by
  intro hfiled
  refine ⟨⟨hfiled.chunks, hfiled.bm25, hfiled.faiss⟩, fun d' hne => ?_⟩
  exact congrArg (fun row => { s.part d' with row }) (h d' hne)

/-- FAISS without ids of `d`. -/
private theorem touchesOnly_withoutFaiss {ids : List String} (hids : ∀ k ∈ ids, ownerOf k = d)
    (s : Stores) : TouchesOnly d s (s.withoutFaiss ids) := by
  intro hfiled
  have hentries : (s.withoutFaiss ids).faissEntries =
      s.faissEntries.filter fun e => e.id ∉ ids := Stores.faissEntries_withoutFaiss s ids
  refine ⟨⟨hfiled.chunks, hfiled.bm25, fun e he => ?_⟩, fun d' hne => ?_⟩
  · rw [hentries] at he
    exact hfiled.faiss e (List.mem_filter.mp he).1
  · have hsame : (s.withoutFaiss ids).faissEntries.filter (fun e => e.metadata.documentId = d') =
        s.faissEntries.filter fun e => e.metadata.documentId = d' := by
      rw [hentries, List.filter_comm]
      refine List.filter_eq_self.mpr fun e he => decide_eq_true fun hmem => ?_
      obtain ⟨hentry, hdoc⟩ := List.mem_filter.mp he
      have howner : e.metadata.documentId = d := (hfiled.faiss e hentry).trans (hids e.id hmem)
      exact hne ((of_decide_eq_true hdoc).symm.trans howner)
    exact congrArg (fun faiss => { s.part d' with faiss }) hsame

/-- FAISS with entries of `d`. -/
private theorem touchesOnly_withFaiss {entries : List FaissEntry}
    (hentries : ∀ e ∈ entries, e.metadata.documentId = d ∧ ownerOf e.id = d) (s : Stores) :
    TouchesOnly d s (s.withFaiss entries) := by
  intro hfiled
  refine ⟨⟨hfiled.chunks, hfiled.bm25, fun e he => ?_⟩, fun d' hne => ?_⟩
  · rw [Stores.faissEntries_withFaiss, List.mem_append] at he
    rcases he with hold | hnew
    · exact hfiled.faiss e hold
    · obtain ⟨hdoc, howner⟩ := hentries e (List.mem_filter.mp hnew).1
      rw [hdoc, howner]
  · have hsame : (s.withFaiss entries).faissEntries.filter (fun e => e.metadata.documentId = d') =
        s.faissEntries.filter fun e => e.metadata.documentId = d' := by
      rw [Stores.faissEntries_withFaiss, List.filter_append]
      refine List.append_right_eq_self.mpr (List.filter_eq_nil_iff.mpr fun e he hdoc => ?_)
      have hown := (hentries e (List.mem_filter.mp he).1).1
      exact hne ((of_decide_eq_true hdoc).symm.trans hown)
    exact congrArg (fun faiss => { s.part d' with faiss }) hsame

/-- `ON CONFLICT DO NOTHING`. -/
private theorem changesOnly_insertChunk {chunk : ChunkRecord} (howner : ownerOf chunk.chunkId = d)
    (hdoc : chunk.documentId = d) (rows : Dict String ChunkRecord) :
    Dict.ChangesOnly ownerOf (·.documentId) d rows (Stores.insertChunk rows chunk) := by
  rw [Stores.insertChunk]
  split_ifs
  · exact Dict.changesOnly_refl d rows
  · exact Dict.changesOnly_set howner hdoc rows

/-- Deleting a document deletes its chunks. -/
private theorem touchesOnly_withoutDocument (d : String) (s : Stores) :
    TouchesOnly d s (s.withoutDocument d) := by
  have hrow : TouchesOnly d s { s with documents := s.documents.erase d } :=
    touchesOnly_documents fun d' hne => by rw [Dict.get?_erase, if_neg hne]
  exact hrow.trans (touchesOnly_chunks (Dict.changesOnly_filter d s.chunks))

/-! ### Calls -/

variable {env : IngestEnv} {faults : Faults}

/-- Every effect of an update that deletes and adds chunks of its own document. -/
private theorem touchesOnly_writeEffects {record : DocumentRecord} {diff : DocumentDiff}
    (hdelete : ∀ k ∈ diff.toDelete, ownerOf k = record.documentId)
    (hadd : ∀ chunk ∈ diff.toAdd,
      chunk.documentId = record.documentId ∧ ownerOf chunk.chunkId = record.documentId) :
    ∀ f ∈ writeEffects record diff, ∀ s, TouchesOnly record.documentId s (f s) := by
  intro f hf s
  simp only [writeEffects, List.mem_cons, List.not_mem_nil, or_false] at hf
  rcases hf with rfl | rfl | rfl | rfl | rfl | rfl | rfl | rfl | rfl
  · exact touchesOnly_withoutFaiss hdelete s
  · rw [addedToFaiss]
    split_ifs
    · exact touchesOnly_refl _ s
    · refine touchesOnly_withFaiss (fun e he => ?_) s
      obtain ⟨chunk, hchunk, rfl⟩ := List.mem_map.mp he
      exact ⟨rfl, (hadd chunk hchunk).2⟩
  · exact fun h => ⟨⟨h.chunks, h.bm25, h.faiss⟩, fun _ _ => rfl⟩
  · exact touchesOnly_bm25 (Dict.changesOnly_eraseAll hdelete s.bm25)
  · refine touchesOnly_bm25 (Dict.changesOnly_foldl (fun chunk hchunk rows => ?_) s.bm25)
    exact Dict.changesOnly_set (hadd chunk hchunk).2 (hadd chunk hchunk).1 rows
  · exact fun h => ⟨⟨h.chunks, h.bm25, h.faiss⟩, fun _ _ => rfl⟩
  · exact touchesOnly_documents fun d' hne => by rw [Dict.get?_set, if_neg hne]
  · exact touchesOnly_chunks (Dict.changesOnly_eraseAll hdelete s.chunks)
  · refine touchesOnly_chunks (Dict.changesOnly_foldl (fun chunk hchunk rows => ?_) s.chunks)
    exact changesOnly_insertChunk (hadd chunk hchunk).2 (hadd chunk hchunk).1 rows

/-- Every effect of a deletion of chunks of its own document. -/
private theorem touchesOnly_eraseEffects {ids : List String} (hids : ∀ k ∈ ids, ownerOf k = d) :
    ∀ f ∈ eraseEffects d ids, ∀ s, TouchesOnly d s (f s) := by
  intro f hf s
  simp only [eraseEffects, List.mem_cons, List.not_mem_nil, or_false] at hf
  rcases hf with rfl | rfl | rfl | rfl | rfl
  · exact touchesOnly_withoutFaiss hids s
  · exact fun h => ⟨⟨h.chunks, h.bm25, h.faiss⟩, fun _ _ => rfl⟩
  · exact touchesOnly_bm25 (Dict.changesOnly_eraseAll hids s.bm25)
  · exact fun h => ⟨⟨h.chunks, h.bm25, h.faiss⟩, fun _ _ => rfl⟩
  · exact touchesOnly_withoutDocument d s

/-- The stored chunks of a document have ids of the document. -/
private theorem Stores.Filed.ownerOf_chunkRows (h : s.Filed) {k : String}
    (hk : k ∈ (s.chunkRows d).keys) : ownerOf k = d :=
  h.chunks.owner_of_mem_keys (fun _ _ hd => of_decide_eq_true hd) hk

/-- **An update touches its document only**, whichever of its operations fail. -/
theorem touchesOnly_insert (contract : Contract) (identity : Option DocumentIdentity)
    (s : Stores) : TouchesOnly (documentIdFor env contract.title) s
      (insertOrUpdateDocument env faults contract identity s).2 := by
  intro hfiled
  have hexit : InsertExit env faults contract identity s _ _ :=
    insertOrUpdateDocument_exit contract identity s
  have hstage : ∀ record, recordOf env contract identity = some record → ∀ k,
      TouchesOnly (documentIdFor env contract.title) s
        (Exc.stage (writeEffects record (s.diffFor env record)) s k) := by
    intro record hrecord k
    obtain ⟨-, -, hid, -⟩ := buildDocumentRecord_eq_some hrecord
    rw [← hid]
    have heffects : ∀ f ∈ writeEffects record (s.diffFor env record), ∀ t,
        TouchesOnly record.documentId t (f t) :=
      touchesOnly_writeEffects (fun k hk => hfiled.ownerOf_chunkRows (mem_toDelete.mp hk).1)
        fun chunk hchunk => chunk_owned hrecord (mem_chunks_of_mem_toAdd hchunk)
    exact Exc.stage_rel (touchesOnly_refl _) (fun h h' => h.trans h') heffects s k
  generalize (insertOrUpdateDocument env faults contract identity s).1 = r at hexit
  generalize (insertOrUpdateDocument env faults contract identity s).2 = s' at hexit ⊢
  cases hexit with
  | noContext | readFault | noop => exact touchesOnly_refl _ s hfiled
  | aborted hrecord => exact hstage _ hrecord _ hfiled
  | unannounced hrecord => exact hstage _ hrecord 9 hfiled
  | written hrecord =>
    obtain ⟨hfiled', hsame⟩ := hstage _ hrecord 9 hfiled
    exact ⟨⟨hfiled'.chunks, hfiled'.bm25, hfiled'.faiss⟩, hsame⟩

/-- **A deletion touches its document only**, whichever of its operations fail. -/
theorem touchesOnly_delete (documentId : String) (s : Stores) :
    TouchesOnly documentId s (deleteDocument env faults documentId s).2 := by
  intro hfiled
  have hexit : DeleteExit env faults documentId s _ _ := deleteDocument_exit documentId s
  have hstage : ∀ ids : List String, ids.toFinset = s.chunkRowIds documentId → ∀ k,
      TouchesOnly documentId s (Exc.stage (eraseEffects documentId ids) s k) := by
    intro ids hids k
    refine Exc.stage_rel (touchesOnly_refl _) (fun h h' => h.trans h')
      (touchesOnly_eraseEffects fun id hid => hfiled.ownerOf_chunkRows ?_) s k
    rw [← List.mem_toFinset, hids] at hid
    exact List.mem_toFinset.mp hid
  generalize (deleteDocument env faults documentId s).1 = r at hexit
  generalize (deleteDocument env faults documentId s).2 = s' at hexit ⊢
  cases hexit with
  | readFault | notFound => exact touchesOnly_refl _ s hfiled
  | aborted hids => exact hstage _ hids _ hfiled
  | unannounced hids => exact hstage _ hids 5 hfiled
  | erased hids =>
    obtain ⟨hfiled', hsame⟩ := hstage _ hids 5 hfiled
    exact ⟨⟨hfiled'.chunks, hfiled'.bm25, hfiled'.faiss⟩, hsame⟩

/-! ### Runs in which anything may fail -/

/-- A call, and which of its operations fail. -/
structure FaultyCall where
  call : IngestCall
  faults : Faults

/-- The document that a call is about. -/
def IngestCall.documentId (env : IngestEnv) : IngestCall → String
  | .insertOrUpdate contract _ => documentIdFor env contract.title
  | .delete documentId => documentId

/-- The stores after a call, which may have been aborted. -/
def attemptCall (env : IngestEnv) (s : Stores) (l : FaultyCall) : Stores :=
  match l.call with
  | .insertOrUpdate contract identity => (insertOrUpdateDocument env l.faults contract identity s).2
  | .delete documentId => (deleteDocument env l.faults documentId s).2

theorem touchesOnly_attemptCall (s : Stores) (l : FaultyCall) :
    TouchesOnly (l.call.documentId env) s (attemptCall env s l) := by
  obtain ⟨call, faults⟩ := l
  cases call with
  | insertOrUpdate contract identity =>
    have htouches : TouchesOnly (documentIdFor env contract.title) s
        (insertOrUpdateDocument env faults contract identity s).2 :=
      touchesOnly_insert contract identity s
    exact htouches
  | delete documentId =>
    have htouches : TouchesOnly documentId s (deleteDocument env faults documentId s).2 :=
      touchesOnly_delete documentId s
    exact htouches

/-- The stores of a ledger are filed. -/
theorem Agrees.filed {s : IngestState env} (ha : Agrees s) : s.stores.Filed := by
  have hrows : ∀ {rows : Dict String ChunkRecord}, idsIn rows = s.ledger.chunkIds →
      rows.Filed ownerOf (·.documentId) := by
    intro rows hids k row hrow
    have hmem : k ∈ s.ledger.chunkIds row.documentId := by
      rw [← hids]
      exact mem_idsIn.mpr ⟨row, hrow, rfl⟩
    exact (s.ledger.catalog.owned hmem).symm
  refine ⟨hrows ha.chunks, hrows ha.bm25, fun e he => ?_⟩
  have hmem : e.id ∈ s.ledger.chunkIds e.metadata.documentId := by
    rw [← ha.faiss]
    exact Stores.mem_faissIds.mpr ⟨e, he, rfl, rfl⟩
  exact (s.ledger.catalog.owned hmem).symm

theorem filed_empty : Stores.Filed {} where
  chunks := Dict.filed_empty
  bm25 := Dict.filed_empty
  faiss _ h := nomatch h

/-- However many calls were aborted, and wherever, every chunk is filed under its document. -/
theorem filed_of_reach (h : Reach (fun s l => some (attemptCall env s l)) {} s) : s.Filed := by
  refine h.invariant filed_empty fun s l s' hs _ hstep => ?_
  obtain rfl := Option.some.inj hstep
  exact (touchesOnly_attemptCall s l hs).1

/-- **Ingestion touches one document only**: after any run of calls, any of which may have been
aborted by a failure, a further call, whether it succeeds or fails, leaves the row, the chunks and
the index entries of every other document as they are. -/
theorem others_untouched (h : Reach (fun s l => some (attemptCall env s l)) {} s) (l : FaultyCall)
    {d : String} (hd : d ≠ l.call.documentId env) : (attemptCall env s l).part d = s.part d :=
  (touchesOnly_attemptCall s l (filed_of_reach h)).2 d hd

end

/-- Two documents, an update of one of which was aborted between the deletion and the insertion of
its chunks. -/
def abortedRun : List FaultyCall :=
  [⟨sampleInsert "one", Faults.none⟩,
   ⟨.insertOrUpdate ⟨"Beta", some "one"⟩ none, Faults.none⟩,
   ⟨.insertOrUpdate ⟨"Beta", some "two"⟩ none, Faults.only .insertChunks writeRefused⟩]

/-- `others_untouched` after an aborted update, at a deletion that is aborted as well. -/
theorem others_untouched_aborted : ∃ s, (s.part "alpha").chunkRows.keys ≠ [] ∧
    (s.part "beta").chunkRows.keys = [] ∧ (s.part "beta").faiss ≠ [] ∧
    (attemptCall sampleEnv s ⟨.insertOrUpdate ⟨"Beta", some "one"⟩ none,
      Faults.only .bm25Save writeRefused⟩).part "alpha" = s.part "alpha" := by
  have hrun : (exec (fun s l => some (attemptCall sampleEnv s l)) {} abortedRun).any (fun s =>
      decide ((s.part "alpha").chunkRows.keys ≠ []) &&
        (decide ((s.part "beta").chunkRows.keys = []) && decide ((s.part "beta").faiss ≠ []))) =
      true := by
    decide +kernel
  obtain ⟨s, hs, hparts⟩ := (Option.any_eq_true _ _).mp hrun
  obtain ⟨halpha, hbeta⟩ := (Bool.and_eq_true _ _).mp hparts
  obtain ⟨hrows, hfaiss⟩ := (Bool.and_eq_true _ _).mp hbeta
  have hother : "alpha" ≠ IngestCall.documentId sampleEnv
      (.insertOrUpdate ⟨"Beta", some "one"⟩ none) := by
    decide +kernel
  have hreach : Reach (fun s l => some (attemptCall sampleEnv s l)) {} s := reach_of_exec hs
  refine ⟨s, of_decide_eq_true halpha, of_decide_eq_true hrows, of_decide_eq_true hfaiss, ?_⟩
  exact others_untouched hreach _ hother

end AuditFlow
