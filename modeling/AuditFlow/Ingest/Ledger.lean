import AuditFlow.Foundation.Transition
import AuditFlow.Ingest.IngestionExits

/-!
# Runs of the ingestion, and what they are for

The purpose of the ingestion in its own terms is a `Ledger`: **which contract was ingested last**
under each document id. Its catalog says which chunk ids each document has. A run is a sequence of
calls, in each of which one operation may fail; `ingestStep` keeps the ledger beside the stores. A
call counts for the ledger if it returns.
-/

namespace AuditFlow

open Foundation

/-! ### The ledger -/

/-- The chunk ids that a contract has. -/
def contractChunkIds (env : IngestEnv) (contract : Contract) : Finset String :=
  match recordOf env contract none with
  | some record => record.chunkIds.toFinset
  | none => ∅

/-- The contract that was ingested last under each document id. -/
structure Ledger (env : IngestEnv) where
  latest : String → Option Contract
  keyed : ∀ {d contract}, latest d = some contract → documentIdFor env contract.title = d

namespace Ledger

variable {env : IngestEnv}

/-- Nothing was ingested. -/
def empty : Ledger env := ⟨fun _ => none, fun h => nomatch h⟩

/-- A contract is ingested. -/
def record (ledger : Ledger env) (contract : Contract) : Ledger env where
  latest := Function.update ledger.latest (documentIdFor env contract.title) (some contract)
  keyed {d contract'} h := by
    rcases eq_or_ne d (documentIdFor env contract.title) with hd | hne
    · rw [hd, Function.update_self] at h
      rw [hd, ← Option.some.inj h]
    · rw [Function.update_of_ne hne] at h
      exact ledger.keyed h

/-- A document is deleted. -/
def remove (ledger : Ledger env) (documentId : String) : Ledger env where
  latest := Function.update ledger.latest documentId none
  keyed {d contract'} h := by
    rcases eq_or_ne d documentId with rfl | hne
    · rw [Function.update_self] at h
      cases h
    · rw [Function.update_of_ne hne] at h
      exact ledger.keyed h

/-- The chunk ids of each document. -/
def chunkIds (ledger : Ledger env) (documentId : String) : Finset String :=
  match ledger.latest documentId with
  | some contract => contractChunkIds env contract
  | none => ∅

end Ledger

section

variable {env : IngestEnv} {contract contract' : Contract} {identity : Option DocumentIdentity}
  {record : DocumentRecord}

/-- The chunk ids of a contract are those of its record, whatever the identity. -/
theorem contractChunkIds_eq (h : recordOf env contract identity = some record) :
    contractChunkIds env contract = record.chunkIds.toFinset := by
  obtain ⟨context, hcontext, -⟩ := buildDocumentRecord_eq_some h
  have hrecord : ∃ record', recordOf env contract none = some record' := by
    rw [recordOf, buildDocumentRecord, hcontext]
    exact ⟨_, rfl⟩
  obtain ⟨record', hrecord'⟩ := hrecord
  have hid : record'.documentId = record.documentId := by
    obtain ⟨-, -, hid, -⟩ := buildDocumentRecord_eq_some h
    obtain ⟨-, -, hid', -⟩ := buildDocumentRecord_eq_some hrecord'
    rw [hid, hid']
  rw [contractChunkIds, hrecord']
  dsimp only
  rw [chunkIds_eq_of_context hrecord' h hid rfl]

/-- The same text under the same document id has the same chunk ids. -/
theorem contractChunkIds_congr (hcontext : truthy contract.context = truthy contract'.context)
    (hid : documentIdFor env contract.title = documentIdFor env contract'.title) :
    contractChunkIds env contract = contractChunkIds env contract' := by
  rw [contractChunkIds, contractChunkIds]
  rcases h : recordOf env contract none with - | record <;>
    rcases h' : recordOf env contract' none with - | record'
  · rfl
  · obtain ⟨context, hc, -⟩ := buildDocumentRecord_eq_some h'
    rw [recordOf, buildDocumentRecord, hcontext, hc] at h
    cases h
  · obtain ⟨context, hc, -⟩ := buildDocumentRecord_eq_some h
    rw [recordOf, buildDocumentRecord, ← hcontext, hc] at h'
    cases h'
  · obtain ⟨-, -, hrid, -⟩ := buildDocumentRecord_eq_some h
    obtain ⟨-, -, hrid', -⟩ := buildDocumentRecord_eq_some h'
    have hsame : record.documentId = record'.documentId := by
      rw [hrid, hrid', hid]
    dsimp only
    rw [chunkIds_eq_of_context h h' hsame hcontext]

theorem ownerOf_of_mem_contractChunkIds {k : String} (h : k ∈ contractChunkIds env contract) :
    ownerOf k = documentIdFor env contract.title := by
  rw [contractChunkIds] at h
  rcases hrecord : recordOf env contract none with - | record
  · rw [hrecord] at h
    exact absurd h (Finset.notMem_empty k)
  · rw [hrecord] at h
    obtain ⟨-, -, hid, -⟩ := buildDocumentRecord_eq_some hrecord
    rw [← hid]
    exact ownerOf_of_mem_chunkIds hrecord (List.mem_toFinset.mp h)

end

namespace Ledger

variable {env : IngestEnv} (ledger : Ledger env)

/-- The catalog of the ledger. -/
def catalog : Catalog ownerOf where
  keys := ledger.chunkIds
  owned {d k} h := by
    rw [chunkIds] at h
    rcases hlatest : ledger.latest d with - | contract
    · rw [hlatest] at h
      exact absurd h (Finset.notMem_empty k)
    · rw [hlatest] at h
      rw [ownerOf_of_mem_contractChunkIds h, ledger.keyed hlatest]

theorem latest_record_self (contract : Contract) :
    (ledger.record contract).latest (documentIdFor env contract.title) = some contract := by
  simp only [record, Function.update_self]

theorem latest_record_of_ne {contract : Contract} {d : String}
    (h : d ≠ documentIdFor env contract.title) :
    (ledger.record contract).latest d = ledger.latest d := by
  simp only [record, Function.update_of_ne h]

theorem latest_remove_self (documentId : String) :
    (ledger.remove documentId).latest documentId = none := by
  simp only [remove, Function.update_self]

theorem latest_remove_of_ne {documentId d : String} (h : d ≠ documentId) :
    (ledger.remove documentId).latest d = ledger.latest d := by
  simp only [remove, Function.update_of_ne h]

/-- Ingesting a contract replaces the chunk ids of its document. -/
theorem chunkIds_record (contract : Contract) : (ledger.record contract).chunkIds =
    Function.update ledger.chunkIds (documentIdFor env contract.title)
      (contractChunkIds env contract) := by
  funext d
  rcases eq_or_ne d (documentIdFor env contract.title) with hd | hne
  · rw [hd, Function.update_self, chunkIds, latest_record_self]
  · rw [Function.update_of_ne hne, chunkIds, latest_record_of_ne ledger hne, chunkIds]

/-- Deleting a document leaves it without chunk ids. -/
theorem chunkIds_remove (documentId : String) : (ledger.remove documentId).chunkIds =
    Function.update ledger.chunkIds documentId ∅ := by
  funext d
  rcases eq_or_ne d documentId with rfl | hne
  · rw [Function.update_self, chunkIds, latest_remove_self]
  · rw [Function.update_of_ne hne, chunkIds, latest_remove_of_ne ledger hne, chunkIds]

end Ledger

/-! ### Runs -/

/-- The calls of the service. -/
inductive IngestCall
  | insertOrUpdate (contract : Contract) (identity : Option DocumentIdentity)
  | delete (documentId : String)
  deriving DecidableEq

/-- A call, with the operation that fails in it and the exception that it raises. -/
structure IngestLabel where
  call : IngestCall
  fault : Option (IngestOp × PyError) := none
  deriving DecidableEq

/-- The faults of a call. -/
def IngestLabel.faults (l : IngestLabel) : Faults :=
  match l.fault with
  | some (op, e) => Faults.only op e
  | none => Faults.none

/-- The texts of a call are among the given ones. -/
def IngestCall.Within (texts : List String) : IngestCall → Prop
  | insertOrUpdate contract _ => ∀ context ∈ truthy contract.context, context ∈ texts
  | delete _ => True

instance (texts : List String) (call : IngestCall) : Decidable (call.Within texts) :=
  match call with
  | .insertOrUpdate contract _ =>
    inferInstanceAs (Decidable (∀ context ∈ truthy contract.context, context ∈ texts))
  | .delete _ => inferInstanceAs (Decidable True)

/-- The stores, and the ledger beside them. -/
structure IngestState (env : IngestEnv) where
  stores : Stores
  ledger : Ledger env

/-- Empty stores. -/
def IngestState.empty (env : IngestEnv) : IngestState env := ⟨{}, .empty⟩

/-- One call. -/
def ingestStep (env : IngestEnv) (s : IngestState env) (l : IngestLabel) :
    Option (IngestState env) :=
  match l.call with
  | .insertOrUpdate contract identity =>
    match insertOrUpdateDocument env l.faults contract identity s.stores with
    | (.ok _, stores) => some ⟨stores, s.ledger.record contract⟩
    | (.error _, stores) => some ⟨stores, s.ledger⟩
  | .delete documentId =>
    match deleteDocument env l.faults documentId s.stores with
    | (.ok _, stores) => some ⟨stores, s.ledger.remove documentId⟩
    | (.error _, stores) => some ⟨stores, s.ledger⟩

end AuditFlow
