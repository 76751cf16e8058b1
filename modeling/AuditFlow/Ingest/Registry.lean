import AuditFlow.Ingest.Order
import AuditFlow.Ingest.Recovery

/-!
# The registry of documents

The table `documents` is what the rest of the application reads of a document: its version for the
next update, and its identity, by which a question can name it. Without failures, the stores are at
all times those of **some** ledger (`Stores.Consistent`), whatever the hash does; so each call can
be described from the stores alone (`insert_raises_iff_of_consistent`, `delete_returns_iff`).

Two properties of the registry depend on more than the code looks at. `delete_document` asks the
table `chunks` whether there is a document, so that it refuses a document without chunks
(`deletable_iff`); and an update asks the hash of the text alone whether there is anything to do, so
that a new identity of an old text is dropped (`identity_refreshed_iff`).
-/

namespace AuditFlow

open Foundation

/-! ### Calls without failures -/

/-- The stores are those of a ledger. -/
def Stores.Consistent (env : IngestEnv) (s : Stores) : Prop :=
  ∃ ledger : Ledger env, Agrees (⟨s, ledger⟩ : IngestState env)

/-- A call that returns. -/
def serve (env : IngestEnv) (s : Stores) : IngestCall → Option Stores
  | .insertOrUpdate contract identity =>
    match insertOrUpdateDocument env Faults.none contract identity s with
    | (.ok _, s') => some s'
    | (.error _, _) => none
  | .delete documentId =>
    match deleteDocument env Faults.none documentId s with
    | (.ok _, s') => some s'
    | (.error _, _) => none

section

variable {env : IngestEnv} {s s' : Stores} {contract : Contract}
  {identity : Option DocumentIdentity} {record : DocumentRecord} {documentId : String}

theorem consistent_empty (env : IngestEnv) : Stores.Consistent env {} := ⟨_, agrees_empty env⟩

theorem Stores.Consistent.inStep (h : s.Consistent env) : s.InStep := by
  obtain ⟨ledger, ha⟩ := h
  exact ha.inStep

/-- A no-op leaves the stores to the ledger that they had. -/
private theorem consistent_of_outcome {ledger : Ledger env} {call : IngestCall}
    {t : IngestState env} (ha : Agrees (⟨s, ledger⟩ : IngestState env))
    (h : CallOutcome ⟨s, ledger⟩ ⟨call, none⟩ t) : t.stores.Consistent env := by
  cases h with
  | raised hsame => exact ⟨ledger, hsame.agrees ha⟩
  | noop => exact ⟨ledger, ha⟩
  | written _ hrecord => exact ⟨_, agrees_written ha hrecord⟩
  | erased _ hids => exact ⟨_, agrees_erased ha hids⟩

/-- A call, as a step beside any ledger. -/
private theorem ingestStep_of_insert (ledger : Ledger env) {r : Except PyError IngestResult}
    (hrun : insertOrUpdateDocument env Faults.none contract identity s = (r, s')) :
    ∃ ledger', ingestStep env ⟨s, ledger⟩ ⟨.insertOrUpdate contract identity, none⟩ =
      some ⟨s', ledger'⟩ := by
  have hfaults : IngestLabel.faults ⟨.insertOrUpdate contract identity, none⟩ = Faults.none := rfl
  rw [ingestStep]
  dsimp only
  rw [hfaults, hrun]
  cases r with
  | ok result => exact ⟨_, rfl⟩
  | error e => exact ⟨_, rfl⟩

private theorem ingestStep_of_delete (ledger : Ledger env) {r : Except PyError Unit}
    (hrun : deleteDocument env Faults.none documentId s = (r, s')) :
    ∃ ledger', ingestStep env ⟨s, ledger⟩ ⟨.delete documentId, none⟩ = some ⟨s', ledger'⟩ := by
  have hfaults : IngestLabel.faults ⟨.delete documentId, none⟩ = Faults.none := rfl
  rw [ingestStep]
  dsimp only
  rw [hfaults, hrun]
  cases r with
  | ok result => exact ⟨_, rfl⟩
  | error e => exact ⟨_, rfl⟩

/-- An update that returns. -/
theorem serve_insert_eq_some : serve env s (.insertOrUpdate contract identity) = some s' ↔
    ∃ result, insertOrUpdateDocument env Faults.none contract identity s = (.ok result, s') := by
  rw [serve]
  rcases insertOrUpdateDocument env Faults.none contract identity s with ⟨e | result, t⟩
  · exact iff_of_false (by rintro ⟨⟩) (by rintro ⟨_, ⟨⟩⟩)
  · constructor
    · rintro ⟨⟩
      exact ⟨result, rfl⟩
    · rintro ⟨_, ⟨⟩⟩
      rfl

/-- A deletion that returns. -/
theorem serve_delete_eq_some : serve env s (.delete documentId) = some s' ↔
    deleteDocument env Faults.none documentId s = (.ok (), s') := by
  rw [serve]
  rcases deleteDocument env Faults.none documentId s with ⟨e | _, t⟩
  · exact iff_of_false (by rintro ⟨⟩) (by rintro ⟨⟩)
  · constructor
    · rintro ⟨⟩
      rfl
    · rintro ⟨⟩
      rfl

theorem ingestStep_of_serve (ledger : Ledger env) {call : IngestCall}
    (hcall : serve env s call = some s') :
    ∃ ledger', ingestStep env ⟨s, ledger⟩ ⟨call, none⟩ = some ⟨s', ledger'⟩ := by
  cases call with
  | insertOrUpdate contract identity =>
    obtain ⟨result, hrun⟩ := serve_insert_eq_some.mp hcall
    exact ingestStep_of_insert ledger hrun
  | delete documentId => exact ingestStep_of_delete ledger (serve_delete_eq_some.mp hcall)

/-- **Consistency survives** a call that returns. -/
theorem Stores.Consistent.serve (h : s.Consistent env) {call : IngestCall}
    (hcall : serve env s call = some s') : s'.Consistent env := by
  obtain ⟨ledger, ha⟩ := h
  obtain ⟨ledger', hstep⟩ := ingestStep_of_serve ledger hcall
  exact consistent_of_outcome ha (callOutcome ha rfl hstep)

/-- **Every run of calls that return** leads from empty stores to consistent ones. -/
theorem consistent_of_reach (h : Reach (serve env) {} s) : s.Consistent env :=
  h.invariant (consistent_empty env) fun _ _ _ hs _ hstep => hs.serve hstep

/-- A document with chunks has a row. -/
theorem Stores.Consistent.document_of_chunks (h : s.Consistent env)
    (hchunks : s.chunkRowIds documentId ≠ ∅) : ∃ row, s.documents.get? documentId = some row := by
  obtain ⟨ledger, ha⟩ := h
  have hledger : ledger.chunkIds documentId ≠ ∅ := by
    rw [← congrFun ha.chunks documentId]
    exact hchunks
  have hversion : ∃ hash, (s.documents.get? documentId).map (·.contentHash) = some hash := by
    rw [ha.versions documentId]
    dsimp only
    rw [Ledger.chunkIds] at hledger
    rcases hlatest : ledger.latest documentId with - | contract
    · rw [hlatest] at hledger
      exact absurd rfl hledger
    · rw [hlatest] at hledger
      dsimp only at hledger
      rw [contractChunkIds] at hledger
      rcases hrecord : recordOf env contract none with - | record
      · rw [hrecord] at hledger
        exact absurd rfl hledger
      · obtain ⟨context, hcontext, -⟩ := buildDocumentRecord_eq_some hrecord
        rw [Option.bind_some, hcontext]
        exact ⟨_, rfl⟩
  obtain ⟨hash, hhash⟩ := hversion
  obtain ⟨row, hrow, -⟩ := Option.map_eq_some_iff.mp hhash
  exact ⟨row, hrow⟩

/-- Without failures, an update is refused exactly if there is no FAISS store yet and none comes
with it. -/
theorem insert_raises_iff_of_consistent (h : s.Consistent env)
    (hrecord : recordOf env contract identity = some record) :
    (∃ s', (IngestCall.insertOrUpdate contract identity).Raises env Faults.none s s') ↔
      ¬s.hasVersion record ∧ s.faiss = none ∧ record.chunkIds = [] := by
  by_cases hversion : s.hasVersion record
  · refine iff_of_false ?_ fun hnot => hnot.1 hversion
    rintro ⟨s', e, hraises⟩
    have hexit : InsertExit env Faults.none contract identity s _ _ :=
      insertOrUpdateDocument_exit contract identity s
    rw [hraises] at hexit
    cases hexit with
    | noContext hnone => cases hrecord.symm.trans hnone
    | readFault hfault => exact absurd hfault (by simp [Faults.none])
    | aborted hrecord' hnew | unannounced hrecord' hnew =>
      obtain rfl := Option.some.inj (hrecord.symm.trans hrecord')
      exact hnew hversion
  · have hpresent : ∀ id ∈ (s.diffFor env record).toDelete, id ∈ s.faissEntries.map (·.id) := by
      intro id hid
      exact h.inStep.mem_faiss (List.mem_toFinset.mpr (mem_toDelete.mp hid).1)
    rw [insert_raises_iff hrecord hversion]
    constructor
    · rintro (⟨-, id, hid, hnot⟩ | ⟨hnone, hadd⟩)
      · exact absurd (hpresent id hid) hnot
      · have hsub := toAdd_eq_nil_iff.mp hadd
        rw [h.inStep.chunkRowIds_of_none hnone, Finset.subset_empty,
          List.toFinset_eq_empty_iff] at hsub
        exact ⟨hversion, hnone, hsub⟩
    · rintro ⟨-, hnone, hids⟩
      refine Or.inr ⟨hnone, toAdd_eq_nil_iff.mpr ?_⟩
      rw [hids, List.toFinset_nil]
      exact Finset.empty_subset _

/-! ### Deletions -/

/-- Neither the row of the document nor any chunk of it is left, and the files are up to date. -/
structure Stores.Gone (s : Stores) (documentId : String) : Prop where
  row : s.documents.get? documentId = none
  faiss : s.faissIds documentId = ∅
  bm25 : s.bm25Ids documentId = ∅
  chunks : s.chunkRowIds documentId = ∅
  files : s.faissDisk = s.faiss ∧ s.bm25Disk = some s.bm25

/-- A deletion goes through exactly if there is a chunk. -/
theorem delete_returns_iff (h : s.Consistent env) :
    (∃ s', deleteDocument env Faults.none documentId s = (.ok (), s')) ↔
      s.chunkRowIds documentId ≠ ∅ := by
  constructor
  · rintro ⟨s', hrun⟩
    have hexit : DeleteExit env Faults.none documentId s _ _ := deleteDocument_exit documentId s
    rw [hrun] at hexit
    cases hexit with
    | erased hids hne =>
      rw [← hids]
      exact fun hempty => hne ((List.toFinset_eq_empty_iff _).mp hempty)
  · intro hne
    rcases hrun : deleteDocument env Faults.none documentId s with ⟨e | _, s'⟩
    · have hraises := (delete_raises_iff hne).mp ⟨s', e, hrun⟩
      rcases hraises with hnone | ⟨id, hid, hnot⟩
      · exact absurd (h.inStep.chunkRowIds_of_none hnone documentId) hne
      · exact absurd (h.inStep.mem_faiss hid) hnot
    · exact ⟨s', rfl⟩

/-- **A deletion that goes through leaves nothing.** -/
theorem gone_of_delete (h : s.Consistent env)
    (hrun : deleteDocument env Faults.none documentId s = (.ok (), s')) : s'.Gone documentId := by
  obtain ⟨ledger, ha⟩ := h
  have hexit : DeleteExit env Faults.none documentId s _ _ := deleteDocument_exit documentId s
  rw [hrun] at hexit
  cases hexit with
  | erased hids =>
    have herased := agrees_erased ha hids
    have hledger : (ledger.remove documentId).chunkIds documentId = ∅ := by
      rw [Ledger.chunkIds_remove, Function.update_self]
    refine ⟨?_, ?_, ?_, ?_, rfl, rfl⟩
    · have hversion := herased.versions documentId
      rw [Ledger.latest_remove_self] at hversion
      exact Option.map_eq_none_iff.mp hversion
    · exact (congrFun herased.faiss documentId).trans hledger
    · exact (congrFun herased.bm25 documentId).trans hledger
    · exact (congrFun herased.chunks documentId).trans hledger

/-- **What was ingested can be deleted** exactly if it has chunks: in every state that is reached by
calls that return, deleting a document goes through just in case it has a row, and leaves nothing of
it, if and only if a row comes with a chunk. -/
theorem deletable_iff (h : Reach (serve env) {} s) (documentId : String) :
    (((∃ s', deleteDocument env Faults.none documentId s = (.ok (), s')) ↔
          ∃ row, s.documents.get? documentId = some row) ∧
        ∀ s', deleteDocument env Faults.none documentId s = (.ok (), s') → s'.Gone documentId) ↔
      ((∃ row, s.documents.get? documentId = some row) → s.chunkRowIds documentId ≠ ∅) := by
  have hconsistent := consistent_of_reach h
  have hreturns : (∃ s', deleteDocument env Faults.none documentId s = (.ok (), s')) ↔
      s.chunkRowIds documentId ≠ ∅ := delete_returns_iff hconsistent
  constructor
  · rintro ⟨hiff, -⟩ hrow
    exact hreturns.mp (hiff.mpr hrow)
  · intro hchunks
    refine ⟨?_, fun s' hrun => gone_of_delete hconsistent hrun⟩
    rw [hreturns]
    exact ⟨hconsistent.document_of_chunks, hchunks⟩

end

/-- Digests of the sample texts, and of a blank. -/
def registryTexts : List (String × String) :=
  (" ", "36a9e7f1c95b82ffb99743e0c5c4ce95d83c9a430aac59f84ef3cbfab6145068") :: sampleTexts

/-- SHA-256 on the sample texts and on a blank. -/
def registrySha256 : Sha256 where
  hex text := (registryTexts.lookup text).getD ""
  hex_isHexDigit {text c} h := by
    have hall : (registryTexts.all fun entry => entry.2.toList.all isHexDigit) = true := by
      decide +kernel
    simp only [List.all_eq_true] at hall
    rcases hlookup : registryTexts.lookup text with - | digest
    · rw [hlookup] at h
      cases h
    · rw [hlookup] at h
      obtain ⟨l₁, l₂, hsplit, -⟩ := List.lookup_eq_some_iff.mp hlookup
      refine hall (text, digest) ?_ c h
      rw [hsplit]
      exact List.mem_append_right l₁ List.mem_cons_self

/-- The sample environment, with a text that has no chunk. -/
def registryEnv : IngestEnv :=
  { sampleEnv with
    sha256 := registrySha256
    splitDocuments := fun _ _ text => if text.toList.all Text.isSpace then [] else [text] }

/-- Contracts that are ingested one after the other. -/
def ingestAll (contracts : List (String × String)) : List IngestCall :=
  contracts.map fun c => .insertOrUpdate ⟨c.1, some c.2⟩ none

/-- `deletable_iff` for a document with a chunk. -/
theorem deletable_iff_chunk :
    ∃ s s', exec (serve registryEnv) {} (ingestAll [("Alpha", "one")]) = some s ∧
      deleteDocument registryEnv Faults.none "alpha" s = (.ok (), s') ∧ s'.Gone "alpha" := by
  have hrun : (exec (serve registryEnv) {} (ingestAll [("Alpha", "one")])).any (fun s =>
      (s.documents.get? "alpha").isSome && decide (s.chunkRowIds "alpha" ≠ ∅)) = true := by
    decide +kernel
  obtain ⟨s, hs, hboth⟩ := (Option.any_eq_true _ _).mp hrun
  obtain ⟨hrow, hchunks⟩ := (Bool.and_eq_true _ _).mp hboth
  obtain ⟨hiff, hgone⟩ := (deletable_iff (ReachWhere.start.exec hs) "alpha").mpr
    fun _ => of_decide_eq_true hchunks
  obtain ⟨s', hdelete⟩ := hiff.mpr (Option.isSome_iff_exists.mp hrow)
  exact ⟨s, s', hs, hdelete, hgone s' hdelete⟩

/-- **A document that cannot be deleted**: its text was replaced by a blank, which left its row and
no chunk. -/
theorem undeletable_document :
    ∃ s, Reach (serve registryEnv) {} s ∧ (∃ row, s.documents.get? "alpha" = some row) ∧
      ¬∃ s', deleteDocument registryEnv Faults.none "alpha" s = (.ok (), s') := by
  have hrun : (exec (serve registryEnv) {}
      (ingestAll [("Alpha", "one"), ("Alpha", " ")])).any (fun s =>
        (s.documents.get? "alpha").isSome && decide (s.chunkRowIds "alpha" = ∅)) = true := by
    decide +kernel
  obtain ⟨s, hs, hboth⟩ := (Option.any_eq_true _ _).mp hrun
  obtain ⟨hrow, hchunks⟩ := (Bool.and_eq_true _ _).mp hboth
  have hreach : Reach (serve registryEnv) {} s := ReachWhere.start.exec hs
  refine ⟨s, hreach, Option.isSome_iff_exists.mp hrow, ?_⟩
  rw [delete_returns_iff (consistent_of_reach hreach), not_not]
  exact of_decide_eq_true hchunks

/-! ### Identities -/

/-- The columns of `documents` that depend on the identity. -/
structure IdentityColumns where
  companyName : String
  counterpartyName : String
  contractType : String
  identitySource : String
  identityConfidence : String
  deriving DecidableEq, Repr

/-- The identity columns of a record. -/
def DocumentRecord.identityColumns (record : DocumentRecord) : IdentityColumns where
  companyName := record.companyName
  counterpartyName := record.counterpartyName
  contractType := record.contractType
  identitySource := record.identitySource
  identityConfidence := record.identityConfidence

/-- The row of the document has the identity of the record. -/
def Stores.hasIdentity (s : Stores) (record : DocumentRecord) : Prop :=
  ∃ row, s.documents.get? record.documentId = some row ∧
    row.identityColumns = record.identityColumns

instance (s : Stores) (record : DocumentRecord) : Decidable (s.hasIdentity record) :=
  decidable_of_iff ((s.documents.get? record.documentId).any fun row =>
    decide (row.identityColumns = record.identityColumns)) (by
      rw [Stores.hasIdentity, Option.any_eq_true]
      simp only [decide_eq_true_eq])

section

variable {env : IngestEnv} {faults : Faults} {s s' : Stores} {contract : Contract}
  {identity : Option DocumentIdentity} {result : IngestResult}

/-- **An update refreshes the identity** exactly if it is not a no-op, or there is nothing to
refresh. -/
theorem identity_refreshed_iff
    (hrun : insertOrUpdateDocument env faults contract identity s = (.ok result, s')) :
    ∃ record, recordOf env contract identity = some record ∧
      (s'.hasIdentity record ↔ (s.hasVersion record → s.hasIdentity record)) := by
  have hexit : InsertExit env faults contract identity s _ _ :=
    insertOrUpdateDocument_exit contract identity s
  rw [hrun] at hexit
  dsimp only at hexit
  cases hexit with
  | @noop record hrecord hversion =>
    refine ⟨record, hrecord, fun hidentity _ => hidentity, fun hidentity => hidentity hversion⟩
  | @written record hrecord hversion =>
    refine ⟨record, hrecord, fun _ hstored => absurd hstored hversion, fun _ => ?_⟩
    have hdocuments :
        (Exc.stage (writeEffects record (s.diffFor env record)) s 9).bumped.documents =
          s.documents.set record.documentId { record with chunks := [] } :=
      stage_documents (by omega) (le_refl 9)
    rw [Stores.hasIdentity, hdocuments]
    exact ⟨_, Dict.get?_set_self _ _ _, rfl⟩

end

/-- What the extraction finds in the sample contract. -/
def sampleIdentity : DocumentIdentity where
  documentHash := "7692c3ad3540bb80"
  companyName := "Alpha Corp."
  counterpartyName := "Beta Ltd."
  contractType := "Supply Agreement"
  confidence := "high"
  source := "gemini"

/-- The sample contract, called with the identity in the stores that it was ingested into without,
under the text `text`. -/
def reingested (text : String) : Option (IngestResult × Stores) :=
  (exec (serve sampleEnv) {} [sampleInsert text]).bind fun s =>
    match insertOrUpdateDocument sampleEnv Faults.none ⟨"Alpha", some "one"⟩ (some sampleIdentity)
        s with
    | (.ok result, s') => some (result, s')
    | (.error _, _) => none

private theorem run_of_reingested {text : String} {result : IngestResult} {s' : Stores}
    (h : reingested text = some (result, s')) :
    ∃ s, Reach (serve sampleEnv) {} s ∧ insertOrUpdateDocument sampleEnv Faults.none
      ⟨"Alpha", some "one"⟩ (some sampleIdentity) s = (.ok result, s') := by
  obtain ⟨s, hs, hrun⟩ := Option.bind_eq_some_iff.mp h
  refine ⟨s, ReachWhere.start.exec hs, ?_⟩
  split at hrun
  · rename_i hcall
    cases hrun
    exact hcall
  · cases hrun

/-- `identity_refreshed_iff` for a contract whose text has changed as well. -/
theorem identity_refreshed_iff_changed :
    ∃ s s' result record, insertOrUpdateDocument sampleEnv Faults.none ⟨"Alpha", some "one"⟩
        (some sampleIdentity) s = (.ok result, s') ∧
      recordOf sampleEnv ⟨"Alpha", some "one"⟩ (some sampleIdentity) = some record ∧
      (s'.hasIdentity record ↔ (s.hasVersion record → s.hasIdentity record)) := by
  have hsome : (reingested "two").isSome = true := by decide +kernel
  obtain ⟨⟨result, s'⟩, hresult⟩ := Option.isSome_iff_exists.mp hsome
  obtain ⟨s, -, hrun⟩ := run_of_reingested hresult
  obtain ⟨record, hrecord, hiff⟩ := identity_refreshed_iff hrun
  exact ⟨s, s', result, record, hrun, hrecord, hiff⟩

/-- **A stale identity.** The contract was ingested before its identity was extracted; ingesting it
again with the identity returns, and leaves the row without it. -/
theorem stale_identity :
    ∃ s s' result record, Reach (serve sampleEnv) {} s ∧
      insertOrUpdateDocument sampleEnv Faults.none ⟨"Alpha", some "one"⟩ (some sampleIdentity) s =
        (.ok result, s') ∧
      recordOf sampleEnv ⟨"Alpha", some "one"⟩ (some sampleIdentity) = some record ∧
      ¬s'.hasIdentity record := by
  have hboth : ((reingested "one").bind fun r => (recordOf sampleEnv ⟨"Alpha", some "one"⟩
      (some sampleIdentity)).map fun record => decide (r.2.hasIdentity record)) = some false := by
    decide +kernel
  obtain ⟨⟨result, s'⟩, hresult, hrecords⟩ := Option.bind_eq_some_iff.mp hboth
  obtain ⟨record, hrecord, hstale⟩ := Option.map_eq_some_iff.mp hrecords
  obtain ⟨s, hreach, hrun⟩ := run_of_reingested hresult
  exact ⟨s, s', result, record, hreach, hrun, hrecord, of_decide_eq_false hstale⟩

end AuditFlow
