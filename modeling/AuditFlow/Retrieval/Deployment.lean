import AuditFlow.Foundation.Transition
import AuditFlow.Ingest.Processes
import AuditFlow.Ingest.Provenance
import AuditFlow.Retrieval.CacheWatcher

/-!
# Ingesting processes and a serving worker

The whole of what runs beside a question: any number of processes that construct an
`IngestionService` and call it, and a worker that imports the index files, polls the version and
reloads. They share the two index files, Postgres and the counter. **Any operation of any of them
may come next**, and any operation may fail; a process may also be started anew at any time, and
then has lost its copies and its call.

What is remembered beside the state are the contracts that have been handed to a call.
`deployment_from` is the invariant of all runs: whatever is stored, copied or served has been cut
from one of these contracts.
-/

namespace AuditFlow

open Foundation

/-! ### The identities that a worker looks up -/

/-- `list_documents`. -/
def Stores.listDocuments (s : Stores) : List DocumentRecord := s.documents.values

/-- `get_all_document_identities`; absent metadata is the empty string already. -/
def getAllDocumentIdentities (s : Stores) : Dict String Identity :=
  Dict.empty.setAll (·.documentId) (fun doc => {
    companyName := doc.companyName, counterpartyName := doc.counterpartyName
    documentTitle := doc.documentTitle }) s.listDocuments

/-! ### The system -/

/-- A process with an ingestion service. -/
structure ServiceProcess where
  /-- The copies of the service. -/
  memory : ServiceMemory := {}
  constructed : Bool := false
  /-- What is left of the constructor or of the running call. -/
  rest : Resumption PyError Stores Unit := .done (.ok ())

/-- Nothing is running. -/
def ServiceProcess.isFree (p : ServiceProcess) : Bool :=
  match p.rest with
  | .done _ => true
  | .op _ _ => false

/-- The processes, the worker, and what they share. -/
structure Deployment (ι : Type) where
  faissDisk : Option (List FaissEntry) := none
  bm25Disk : Option (Dict String ChunkRecord) := none
  documents : Dict String DocumentRecord := .empty
  chunks : Dict String ChunkRecord := .empty
  indexVersion : ℕ := 0
  services : ι → ServiceProcess := fun _ => {}
  worker : Worker := {}
  now : ℕ := 0
  /-- The contracts that have been handed to a call. -/
  contracts : List Contract := []

/-- What happens next. -/
inductive DeploymentLabel (ι : Type)
  /-- A process starts, or starts anew, and constructs a service. -/
  | construct (i : ι)
  | call (i : ι) (call : IngestCall) (faults : Faults)
  /-- The constructor or the call goes on. -/
  | proceed (i : ι)
  /-- The worker takes a step, which may raise. -/
  | worker (raises : Bool)

/-- The constructors of the two indexes: FAISS is loaded first. -/
def constructProgram : Resumption PyError Stores Unit :=
  .perform (Exc.modify fun s => { s with faiss := s.faissDisk }) fun _ =>
    .perform (Exc.modify fun s => { s with bm25 := s.bm25Disk.getD .empty }) fun _ => .done (.ok ())

namespace Deployment

variable {ι : Type} [DecidableEq ι]

/-- The stores with some copies in memory. -/
def stores (s : Deployment ι) (memory : ServiceMemory) : Stores where
  faiss := memory.faiss
  faissDisk := s.faissDisk
  bm25 := memory.bm25
  bm25Disk := s.bm25Disk
  documents := s.documents
  chunks := s.chunks
  indexVersion := s.indexVersion

/-- What the worker can see. A file has the chunks under their ids. -/
def published (s : Deployment ι) : Published where
  faissDisk := s.faissDisk
  bm25Disk := s.bm25Disk.map fun rows => .ofChunks rows.values
  identities := getAllDocumentIdentities (s.stores {})
  indexVersion := s.indexVersion

/-- A process has left the stores behind, with something left to do. -/
def leave (s : Deployment ι) (i : ι) (after : Stores)
    (rest : Resumption PyError Stores Unit) : Deployment ι :=
  { s with
    faissDisk := after.faissDisk, bm25Disk := after.bm25Disk, documents := after.documents
    chunks := after.chunks, indexVersion := after.indexVersion, now := s.now + 1
    services := Function.update s.services i
      { s.services i with memory := ⟨after.faiss, after.bm25⟩, rest } }

variable (env : IngestEnv)

/-- One step. -/
def step (s : Deployment ι) : DeploymentLabel ι → Option (Deployment ι)
  | .construct i => some { s with
      now := s.now + 1
      services := Function.update s.services i { constructed := true, rest := constructProgram } }
  | .call i call faults =>
    if (s.services i).constructed ∧ (s.services i).isFree then
      some { s with
        now := s.now + 1, contracts := call.contracts ++ s.contracts
        services := Function.update s.services i
          { s.services i with rest := call.program env faults } }
    else none
  | .proceed i =>
    match (s.services i).rest with
    | .done _ => none
    | .op effect next =>
      let before := s.stores (s.services i).memory
      some (s.leave i (effect before) (next before))
  | .worker raises => some { s with
      now := s.now + 1, worker := s.worker.step s.published s.now raises }

end Deployment

/-! ### What a worker serves -/

section

variable (env : IngestEnv) (contracts : List Contract)

/-- A text stands in the lookup under the id of such a chunk. -/
def LookupFrom (chunkLookup : Dict String String) : Prop :=
  ∀ id text, chunkLookup.get? id = some text →
    ∃ chunk, CutFrom env contracts chunk ∧ chunk.chunkId = id ∧ chunk.rawChunkText = text

/-- What the worker has read for the next swap. -/
def WorkerStage.From : WorkerStage → Prop
  | .readingBm25 _ newFaiss => EntriesFrom env contracts newFaiss.content
  | .swapping _ newFaiss newBm25 => EntriesFrom env contracts newFaiss.content ∧
      RowsFrom env contracts newBm25.content.records
  | _ => True

/-- Everything that the worker holds has been cut from the contracts. -/
structure Worker.From (w : Worker) : Prop where
  faiss : ∀ copy, w.faissIndex = some copy → EntriesFrom env contracts copy.content
  corpus : RowsFrom env contracts w.corpus.records
  chunkLookup : LookupFrom env contracts w.chunkLookup
  stage : w.stage.From env contracts

/-- Everything that is published has been cut from the contracts. -/
structure Published.From (p : Published) : Prop where
  faiss : EntriesFrom env contracts p.faissDisk
  bm25 : RowsFrom env contracts (p.bm25Disk.getD .empty).records

end

section

variable {env : IngestEnv} {contracts contracts' : List Contract} {w : Worker} {p : Published}

theorem Worker.From.mono (hsub : contracts ⊆ contracts') (h : w.From env contracts) :
    w.From env contracts' where
  faiss copy hcopy := (h.faiss copy hcopy).mono hsub
  corpus := h.corpus.mono hsub
  chunkLookup id text hget := by
    obtain ⟨chunk, hchunk, hid, htext⟩ := h.chunkLookup id text hget
    exact ⟨chunk, hchunk.mono hsub, hid, htext⟩
  stage := by
    have hstage := h.stage
    cases hw : w.stage with
    | readingBm25 current newFaiss =>
      rw [hw] at hstage
      exact EntriesFrom.mono hsub hstage
    | swapping current newFaiss newBm25 =>
      rw [hw] at hstage
      exact ⟨EntriesFrom.mono hsub hstage.1, RowsFrom.mono hsub hstage.2⟩
    | _ => exact trivial

theorem worker_from_start : ({} : Worker).From env contracts where
  faiss _ hcopy := nomatch hcopy
  corpus := rowsFrom_empty
  chunkLookup _ _ hget := nomatch hget
  stage := trivial

/-- A lookup that is built from such chunks. -/
theorem lookupFrom_buildChunkLookup {rows : Dict String ChunkRecord}
    (h : RowsFrom env contracts rows) :
    LookupFrom env contracts (buildChunkLookup rows.values) := by
  intro id text hget
  by_cases hid : id ∈ rows.values.map ChunkRecord.chunkId
  · obtain ⟨chunk, hchunk, hchunkId, hlookup⟩ : ∃ chunk ∈ rows.values, chunk.chunkId = id ∧
        (buildChunkLookup rows.values).get? id = some chunk.rawChunkText :=
      Dict.get?_setAll_of_mem hid
    obtain ⟨k, hk⟩ := Dict.mem_values_iff.mp hchunk
    exact ⟨chunk, (h k chunk hk).2, hchunkId, Option.some.inj (hlookup.symm.trans hget)⟩
  · rw [buildChunkLookup, Dict.get?_setAll_of_notMem hid] at hget
    cases hget

private theorem worker_from_rebuilt (h : w.From env contracts) {stage : WorkerStage}
    {lastSeenVersion : Option ℕ} (hstage : stage.From env contracts) :
    ({ w.rebuilt p with lastSeenVersion, stage } : Worker).From env contracts :=
  ⟨h.faiss, h.corpus, lookupFrom_buildChunkLookup h.corpus, hstage⟩

private theorem worker_from_getIndexes (h : w.From env contracts) (hp : p.From env contracts)
    (now : ℕ) (raises : Bool) (reload : Option ℕ) :
    (w.getIndexes p now raises reload).From env contracts := by
  have hstages : ∀ stage : WorkerStage, stage.From env contracts →
      ({ w with stage } : Worker).From env contracts :=
    fun stage hstage => ⟨h.faiss, h.corpus, h.chunkLookup, hstage⟩
  rw [Worker.getIndexes]
  split_ifs
  · refine hstages _ ?_
    cases reload with
    | none => exact trivial
    | some current => exact trivial
  · exact ⟨h.faiss, h.corpus, h.chunkLookup, h.stage⟩
  · refine ⟨fun copy hcopy => ?_, h.corpus, h.chunkLookup, h.stage⟩
    rw [← Option.some.inj hcopy]
    exact hp.faiss
  · exact ⟨h.faiss, hp.bm25, h.chunkLookup, h.stage⟩
  · refine hstages _ ?_
    cases reload with
    | none => exact trivial
    | some current => exact trivial

/-- **One step of a worker** goes on to hold only what has been cut from the contracts. -/
theorem Worker.From.step (h : w.From env contracts) (hp : p.From env contracts) (now : ℕ)
    (raises : Bool) : (w.step p now raises).From env contracts := by
  have hstages : ∀ stage : WorkerStage, stage.From env contracts →
      ({ w with stage } : Worker).From env contracts :=
    fun stage hstage => ⟨h.faiss, h.corpus, h.chunkLookup, hstage⟩
  have hread := h.stage
  rw [Worker.step]
  cases hstage : w.stage with
  | gettingIndexes reload => exact worker_from_getIndexes h hp now raises reload
  | constructing =>
    dsimp only
    split_ifs
    · exact hstages _ trivial
    · exact worker_from_rebuilt h trivial
  | polling =>
    dsimp only
    split_ifs
    · exact h
    · rw [Worker.poll]
      split
      · exact ⟨h.faiss, h.corpus, h.chunkLookup, h.stage⟩
      · split_ifs
        · exact hstages _ trivial
        · exact hstages _ trivial
        · exact h
  | readingFaiss current =>
    refine hstages _ ?_
    split_ifs
    · exact trivial
    · exact hp.faiss
  | readingBm25 current newFaiss =>
    rw [hstage] at hread
    refine hstages _ ?_
    split_ifs
    · exact trivial
    · exact ⟨hread, hp.bm25⟩
  | swapping current newFaiss newBm25 =>
    rw [hstage] at hread
    dsimp only
    split_ifs
    · exact hstages _ trivial
    · rw [Worker.swap]
      split_ifs
      · exact hstages _ trivial
      · refine ⟨fun copy hcopy => ?_, hread.2, h.chunkLookup, trivial⟩
        rw [← Option.some.inj hcopy]
        exact hread.1
  | reloading current =>
    dsimp only
    split_ifs
    · exact hstages _ trivial
    · exact worker_from_rebuilt h trivial
  | dead => exact h

end

/-! ### Runs -/

section

variable {ι : Type} [DecidableEq ι] {env : IngestEnv} {s s' : Deployment ι}

/-- **The invariant** of a deployment: what is shared, what each process has in memory and what the
worker holds has been cut from contracts that were handed in, and no running call is going to add
anything else. -/
structure Deployment.From (env : IngestEnv) (s : Deployment ι) : Prop where
  shared : (s.stores {}).From env s.contracts
  memory : ∀ i, (s.stores (s.services i).memory).From env s.contracts
  rest : ∀ i, (s.services i).rest.Performs (KeepsFrom env s.contracts)
  worker : s.worker.From env s.contracts

omit [DecidableEq ι] in
/-- A file whose rows stand under their ids is read as it is. -/
private theorem Deployment.From.published_bm25 (h : s.From env) :
    (s.published.bm25Disk.getD .empty).records = s.bm25Disk.getD .empty := by
  rcases hdisk : s.bm25Disk with - | rows
  · simp only [Deployment.published, hdisk, Option.map_none, Option.getD_none]
    rfl
  · simp only [Deployment.published, hdisk, Option.map_some, Option.getD_some]
    refine Dict.setAll_values fun k chunk hget => ?_
    have hrows : RowsFrom env s.contracts rows := by
      have hbm25 : RowsFrom env s.contracts (s.bm25Disk.getD .empty) := h.shared.bm25Disk
      rwa [hdisk] at hbm25
    exact (hrows k chunk hget).1

omit [DecidableEq ι] in
private theorem Deployment.From.published (h : s.From env) :
    s.published.From env s.contracts where
  faiss := h.shared.faissDisk
  bm25 := by
    rw [h.published_bm25]
    exact h.shared.bm25Disk

/-- The constructors copy what is on disk. -/
private theorem performs_constructProgram (contracts : List Contract) :
    constructProgram.Performs (KeepsFrom env contracts) := by
  refine Resumption.performs_perform (fun s contracts' _ h => ?_) fun _ _ _ _ =>
    Resumption.performs_perform (fun s contracts' _ h => ?_) fun _ _ _ _ =>
      Resumption.performs_done _
  · exact ⟨h.faissDisk, h.faissDisk, h.bm25, h.bm25Disk, h.chunks⟩
  · exact ⟨h.faiss, h.faissDisk, h.bm25Disk, h.bm25Disk, h.chunks⟩

/-- The stores with the shared part of one and the copies of another. -/
private theorem stores_from_of {a b c : Stores} {contracts : List Contract}
    (ha : a.From env contracts) (hb : b.From env contracts) (hfaiss : c.faiss = a.faiss)
    (hbm25 : c.bm25 = a.bm25) (hfaissDisk : c.faissDisk = b.faissDisk)
    (hbm25Disk : c.bm25Disk = b.bm25Disk) (hchunks : c.chunks = b.chunks) :
    c.From env contracts := by
  refine ⟨?_, ?_, ?_, ?_, ?_⟩
  · rw [hfaiss]
    exact ha.faiss
  · rw [hfaissDisk]
    exact hb.faissDisk
  · rw [hbm25]
    exact ha.bm25
  · rw [hbm25Disk]
    exact hb.bm25Disk
  · rw [hchunks]
    exact hb.chunks

private theorem empty_from {contracts : List Contract} : ({} : Stores).From env contracts where
  faiss _ hentry := nomatch hentry
  faissDisk _ hentry := nomatch hentry
  bm25 := rowsFrom_empty
  bm25Disk := rowsFrom_empty
  chunks := rowsFrom_empty

/-- A process that starts anew. -/
private theorem deployment_from_construct (h : s.From env) (i : ι) {now : ℕ} :
    ({ s with
        now
        services := Function.update s.services i
          { constructed := true, rest := constructProgram } } : Deployment ι).From env := by
  refine ⟨h.shared, fun j => ?_, fun j => ?_, h.worker⟩
  · rcases eq_or_ne j i with rfl | hne
    · dsimp only
      rw [Function.update_self]
      exact h.shared
    · dsimp only
      rw [Function.update_of_ne hne]
      exact h.memory j
  · rcases eq_or_ne j i with rfl | hne
    · dsimp only
      rw [Function.update_self]
      exact performs_constructProgram _
    · dsimp only
      rw [Function.update_of_ne hne]
      exact h.rest j

/-- A call is begun: its contract is counted from now on. -/
private theorem deployment_from_call (h : s.From env) (i : ι) {call : IngestCall} {faults : Faults}
    {now : ℕ} : ({ s with
        now, contracts := call.contracts ++ s.contracts
        services := Function.update s.services i
          { s.services i with rest := call.program env faults } } : Deployment ι).From env := by
  have hsub : s.contracts ⊆ call.contracts ++ s.contracts := List.subset_append_right _ _
  refine ⟨h.shared.mono hsub, fun j => ?_, fun j => ?_, h.worker.mono hsub⟩
  · have hmemory : ((Function.update s.services i
        { s.services i with rest := call.program env faults }) j).memory =
          (s.services j).memory := by
      rcases eq_or_ne j i with rfl | hne
      · rw [Function.update_self]
      · rw [Function.update_of_ne hne]
    dsimp only
    rw [hmemory]
    exact (h.memory j).mono hsub
  · rcases eq_or_ne j i with rfl | hne
    · dsimp only
      rw [Function.update_self]
      exact (performs_program call).mono fun _ _ hkeeps =>
        hkeeps.mono (List.subset_append_left _ _)
    · dsimp only
      rw [Function.update_of_ne hne]
      exact (h.rest j).mono fun _ _ hkeeps => hkeeps.mono hsub

/-- An operation of a process. -/
private theorem deployment_from_proceed (h : s.From env) (i : ι) {effect : Stores → Stores}
    {next : Stores → Resumption PyError Stores Unit}
    (hrest : (s.services i).rest = .op effect next) :
    (s.leave i (effect (s.stores (s.services i).memory))
      (next (s.stores (s.services i).memory))).From env := by
  have hperforms := h.rest i
  rw [hrest] at hperforms
  have hafter : (effect (s.stores (s.services i).memory)).From env s.contracts :=
    hperforms.1 _ s.contracts (List.Subset.refl _) (h.memory i)
  refine ⟨stores_from_of empty_from hafter rfl rfl rfl rfl rfl, fun j => ?_, fun j => ?_, h.worker⟩
  · rcases eq_or_ne j i with rfl | hne
    · refine stores_from_of hafter hafter ?_ ?_ rfl rfl rfl
      · simp only [Deployment.leave, Deployment.stores, Function.update_self]
      · simp only [Deployment.leave, Deployment.stores, Function.update_self]
    · refine stores_from_of (h.memory j) hafter ?_ ?_ rfl rfl rfl
      · simp only [Deployment.leave, Deployment.stores, Function.update_of_ne hne]
      · simp only [Deployment.leave, Deployment.stores, Function.update_of_ne hne]
  · rcases eq_or_ne j i with rfl | hne
    · simp only [Deployment.leave, Function.update_self]
      exact hperforms.2 _
    · simp only [Deployment.leave, Function.update_of_ne hne]
      exact h.rest j

/-- **One step** of any process or of the worker. -/
theorem Deployment.From.step (h : s.From env) {l : DeploymentLabel ι}
    (hstep : s.step env l = some s') : s'.From env := by
  cases l with
  | construct i =>
    obtain rfl := Option.some.inj hstep
    exact deployment_from_construct h i
  | call i call faults =>
    simp only [Deployment.step] at hstep
    split_ifs at hstep
    obtain rfl := Option.some.inj hstep
    exact deployment_from_call h i
  | proceed i =>
    simp only [Deployment.step] at hstep
    split at hstep
    · cases hstep
    · rename_i effect next hrest
      obtain rfl := Option.some.inj hstep
      exact deployment_from_proceed h i hrest
  | worker raises =>
    obtain rfl := Option.some.inj hstep
    exact ⟨h.shared, h.memory, h.rest, h.worker.step h.published s.now raises⟩

omit [DecidableEq ι] in
theorem deployment_from_start : ({} : Deployment ι).From env :=
  ⟨empty_from, fun _ => empty_from, fun _ => Resumption.performs_done _, worker_from_start⟩

/-- **Whatever is stored or served has been cut from a contract that was handed in**, in every run
of any number of processes and the worker. -/
theorem deployment_from (h : Reach (Deployment.step env) {} s) : s.From env :=
  h.invariant (P := fun s => s.From env) deployment_from_start fun _ _ _ hs _ hstep =>
    hs.step hstep

end

end AuditFlow
