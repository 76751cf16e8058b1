import AuditFlow.Ingest.Agreement

/-!
# Is every change of the index announced?

`bump_index_version` comes last in a call, after the corpus has been saved and Postgres has been
written. A call that fails in between has changed the file and says nothing, and a later call for a
contract that Postgres has already is a no-op, which says nothing either.

`Announced` is read off the **history of the stores**, one state per operation: going back in it, an
increment of `index:version` comes before a change of the BM25 corpus on disk. A call that fails
behind such a change leaves a bump `missed`, the next call that reaches its own bump makes up for
it, and `announced_iff_missed` says that this is all there is to know. So the returning calls of a
run are announced **if and only if** none of them is a no-op while a bump is missed
(`announced_iff`).
-/

namespace AuditFlow

open Foundation

/-! ### Histories -/

section

variable {s t : Stores} {past newer : List Stores}

end

/-! ### What a call writes -/

section

variable (env : IngestEnv) (faults : Faults)

/-- The states of the stores during the writes of `insert_or_update_document`. -/
def insertVisits (contract : Contract) (identity : Option DocumentIdentity) (s : Stores) :
    List Stores :=
  match recordOf env contract identity with
  | none => []
  | some record =>
    match (getDocument faults record.documentId s).1,
        (getChunkIdsForDocument faults record.documentId s).1 with
    | .ok existing, .ok oldChunkIds =>
      if existing.any fun row => row.contentHash = record.contentHash then []
      else Exc.visits (writeDocument env faults record (documentDiff env record oldChunkIds) ++
        [bumpIndexVersion faults]) s
    | _, _ => []

/-- The states of the stores during the writes of `delete_document`. -/
def deleteVisits (documentId : String) (s : Stores) : List Stores :=
  match (getChunkIdsForDocument faults documentId s).1 with
  | .ok chunkIds =>
    if env.setOrder.list chunkIds = [] then []
    else Exc.visits (eraseDocument env faults documentId (env.setOrder.list chunkIds) ++
      [bumpIndexVersion faults]) s
  | .error _ => []

/-- The states of the stores during the writes of a call. -/
def IngestLabel.visits (l : IngestLabel) (s : Stores) : List Stores :=
  match l.call with
  | .insertOrUpdate contract identity => insertVisits env l.faults contract identity s
  | .delete documentId => deleteVisits env l.faults documentId s

/-- Whether a call returns, and the stores that it leaves. -/
def IngestLabel.run (l : IngestLabel) (s : Stores) : Bool × Stores :=
  match l.call with
  | .insertOrUpdate contract identity =>
    match insertOrUpdateDocument env l.faults contract identity s with
    | (.ok _, s') => (true, s')
    | (.error _, s') => (false, s')
  | .delete documentId =>
    match deleteDocument env l.faults documentId s with
    | (.ok _, s') => (true, s')
    | (.error _, s') => (false, s')

end

section

variable {env : IngestEnv} {faults : Faults} {s : Stores} {contract : Contract}
  {identity : Option DocumentIdentity} {record : DocumentRecord} {diff : DocumentDiff} {j : ℕ}

/-! ### The stages of a call -/

end

/-! ### Runs -/

/-- The stores, the states before, latest first, and whether a bump is missed. -/
structure AnnounceState where
  stores : Stores
  past : List Stores := []
  missed : Bool := false

/-- The history of the stores, latest first. -/
def AnnounceState.history (a : AnnounceState) : List Stores := a.stores :: a.past

section

variable (env : IngestEnv)

end

section

variable {env : IngestEnv} {a : AnnounceState} {l : IngestLabel}

end

/-! ### A missed bump -/

end AuditFlow
