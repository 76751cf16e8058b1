import AuditFlow.Ingest.Parts
import AuditFlow.Ingest.Provenance

/-!
# The corpus is the latest contracts

The stores agree on chunk **ids** with the ledger of the calls that have returned (`Agrees`), and
every stored **text** has been cut from some contract that was handed in (`Stores.From`). An id
names a text by a prefix of its hash only; where the pages of the ingested texts have different
prefixes, the two facts together say what is stored: `HoldsLatest`, that the rows are exactly the
pages of the contracts that were ingested last, text by text, with nothing left of what was replaced
or deleted (`corpus_is_latest`). This carries over to the file from which workers load their corpus.
-/

namespace AuditFlow

open Foundation

/-! ### The ledger of a list of calls -/

section

variable {env : IngestEnv}

/-- A call that returns, in the ledger. -/
def Ledger.follow (ledger : Ledger env) : IngestCall → Ledger env
  | .insertOrUpdate contract _ => ledger.record contract
  | .delete documentId => ledger.remove documentId

/-- The ledger after calls that have all returned. -/
def ledgerOf (env : IngestEnv) (calls : List IngestCall) : Ledger env :=
  calls.foldl Ledger.follow .empty

variable {s s' : Stores}

/-- A call that returns, as a step beside the ledger. -/
theorem ingestStep_follow (ledger : Ledger env) {call : IngestCall}
    (hcall : serve env s call = some s') :
    ingestStep env ⟨s, ledger⟩ ⟨call, none⟩ = some ⟨s', ledger.follow call⟩ := by
  cases call with
  | insertOrUpdate contract identity =>
    obtain ⟨result, hrun⟩ := serve_insert_eq_some.mp hcall
    have hfaults : IngestLabel.faults ⟨.insertOrUpdate contract identity, none⟩ = Faults.none := rfl
    rw [ingestStep]
    dsimp only
    rw [hfaults, hrun]
    rfl
  | delete documentId =>
    have hfaults : IngestLabel.faults ⟨.delete documentId, none⟩ = Faults.none := rfl
    rw [ingestStep]
    dsimp only
    rw [hfaults, serve_delete_eq_some.mp hcall]
    rfl

/-- A call that returns adds only chunks of the contract that it hands in. -/
theorem keepsFrom_serve {call : IngestCall} (hcall : serve env s call = some s') :
    KeepsFrom env call.contracts s s' := by
  have hmoves : Exc.Moves (KeepsFrom env call.contracts) (call.program env Faults.none).run :=
    (performs_program call).moves
  refine hmoves.run (r := .ok ()) ?_
  cases call with
  | insertOrUpdate contract identity =>
    obtain ⟨result, hrun⟩ := serve_insert_eq_some.mp hcall
    rw [IngestCall.program, Resumption.run_bind, run_insertProgram, Exc.bind_of_ok hrun]
    rfl
  | delete documentId =>
    rw [IngestCall.program, run_deleteProgram]
    exact serve_delete_eq_some.mp hcall

end

/-! ### Pages -/

/-- The pages of some texts. -/
def pagesOf (env : IngestEnv) (texts : List String) : List String :=
  texts.flatMap fun context =>
    ((env.splitDocuments chunkSize chunkOverlap context).map cleanTextOf).filter (· ≠ "")

/-- The rows are the pages of the latest contracts. -/
structure HoldsLatest {env : IngestEnv} (ledger : Ledger env) (rows : Dict String ChunkRecord) :
    Prop where
  /-- Every row is a page of the latest contract of its document, under the id of the page. -/
  sound : ∀ k chunk, rows.get? k = some chunk →
    chunk.chunkId = k ∧ k = chunkIdFor env chunk.documentId chunk.rawChunkText ∧
      ∃ contract, ledger.latest chunk.documentId = some contract ∧
        chunk.rawChunkText ∈ chunkTexts env contract chunkSize chunkOverlap
  /-- Every page of every latest contract has its row. -/
  complete : ∀ d contract, ledger.latest d = some contract →
    ∀ text ∈ chunkTexts env contract chunkSize chunkOverlap,
      ∃ chunk, rows.get? (chunkIdFor env d text) = some chunk ∧ chunk.documentId = d ∧
        chunk.rawChunkText = text

section

variable {env : IngestEnv} {texts : List String} {contract : Contract} {text : String}

theorem mem_pagesOf (hcontext : ∀ context ∈ truthy contract.context, context ∈ texts)
    (h : text ∈ chunkTexts env contract chunkSize chunkOverlap) : text ∈ pagesOf env texts := by
  obtain ⟨context, hmem, htext⟩ := List.mem_flatMap.mp h
  exact List.mem_flatMap.mpr ⟨context, hcontext context (Option.mem_toList.mp hmem), htext⟩

/-- A contract with a page has a record. -/
private theorem exists_recordOf (h : text ∈ chunkTexts env contract chunkSize chunkOverlap) :
    ∃ record, recordOf env contract none = some record := by
  obtain ⟨context, hmem, -⟩ := List.mem_flatMap.mp h
  rw [recordOf, buildDocumentRecord, Option.mem_toList.mp hmem]
  exact ⟨_, rfl⟩

/-- The chunk ids of a contract are those of its pages. -/
theorem mem_contractChunkIds_iff {k : String} : k ∈ contractChunkIds env contract ↔
    ∃ text ∈ chunkTexts env contract chunkSize chunkOverlap,
      k = chunkIdFor env (documentIdFor env contract.title) text := by
  constructor
  · intro hk
    rw [contractChunkIds] at hk
    rcases hrecord : recordOf env contract none with - | record
    · rw [hrecord] at hk
      exact absurd hk (Finset.notMem_empty k)
    · rw [hrecord] at hk
      obtain ⟨chunk, hchunk, rfl⟩ := List.mem_map.mp (List.mem_toFinset.mp hk)
      obtain ⟨htext, hid, -⟩ := chunk_parts hrecord hchunk
      exact ⟨_, htext, hid⟩
  · rintro ⟨text, htext, rfl⟩
    obtain ⟨record, hrecord⟩ := exists_recordOf htext
    obtain ⟨chunk, hchunk, rfl⟩ := (mem_chunkTexts_iff hrecord).mp htext
    rw [contractChunkIds_eq hrecord, List.mem_toFinset]
    exact List.mem_map.mpr ⟨chunk, hchunk, (chunk_parts hrecord hchunk).2.1⟩

variable {ledger : Ledger env} {rows : Dict String ChunkRecord} {contracts : List Contract}

/-- The text of a row, among the pages of the texts, is the one that its id was made of. -/
private theorem rawChunkText_eq
    (hinj : Set.InjOn env.sha256.hex16 {text | text ∈ pagesOf env texts})
    (hcontracts : ∀ contract ∈ contracts, ∀ context ∈ truthy contract.context, context ∈ texts)
    {chunk : ChunkRecord} (hcut : CutFrom env contracts chunk) {d : String}
    (hd : ':' ∉ d.toList) (htext : text ∈ pagesOf env texts)
    (hid : chunk.chunkId = chunkIdFor env d text) :
    chunk.documentId = d ∧ chunk.rawChunkText = text := by
  obtain ⟨contract, hcontract, hpage, hdocument, hchunkId⟩ := hcut.parts
  rw [hchunkId] at hid
  obtain ⟨hsame, hhash⟩ := (chunkIdFor_inj (documentIdFor_noColon contract.title) hd).mp hid
  have hmem := mem_pagesOf (hcontracts contract hcontract) hpage
  exact ⟨hdocument.trans hsame, hinj hmem htext hhash⟩

/-- **From ids to texts.** Rows that were cut from contracts and have the ids of the ledger are the
pages of the latest contracts. -/
theorem holdsLatest_of_ids (hinj : Set.InjOn env.sha256.hex16 {text | text ∈ pagesOf env texts})
    (hcontracts : ∀ contract ∈ contracts, ∀ context ∈ truthy contract.context, context ∈ texts)
    (hin : ledger.Within texts) (hfrom : RowsFrom env contracts rows)
    (hids : idsIn rows = ledger.chunkIds) : HoldsLatest ledger rows := by
  have hlatest : ∀ d contract, ledger.latest d = some contract →
      d = documentIdFor env contract.title ∧
        ∀ context ∈ truthy contract.context, context ∈ texts := by
    intro d contract h
    obtain ⟨context, hcontext, hmem⟩ := hin d contract h
    refine ⟨(ledger.keyed h).symm, fun context' hcontext' => ?_⟩
    obtain rfl := Option.some.inj (hcontext.symm.trans hcontext')
    exact hmem
  constructor
  · intro k chunk hrow
    obtain ⟨hchunkId, hcut⟩ := hfrom k chunk hrow
    have hk : k ∈ ledger.chunkIds chunk.documentId := by
      rw [← hids]
      exact mem_idsIn.mpr ⟨chunk, hrow, rfl⟩
    rw [Ledger.chunkIds] at hk
    rcases hcontract : ledger.latest chunk.documentId with - | contract
    · rw [hcontract] at hk
      exact absurd hk (Finset.notMem_empty k)
    · rw [hcontract] at hk
      obtain ⟨text, htext, hid⟩ := mem_contractChunkIds_iff.mp hk
      obtain ⟨hd, hcontext⟩ := hlatest _ _ hcontract
      obtain ⟨hdocument, rfl⟩ := rawChunkText_eq hinj hcontracts hcut
        (documentIdFor_noColon contract.title) (mem_pagesOf hcontext htext) (hchunkId.trans hid)
      refine ⟨hchunkId, ?_, contract, rfl, htext⟩
      rw [hdocument]
      exact hid
  · intro d contract hcontract text htext
    obtain ⟨rfl, hcontext⟩ := hlatest _ _ hcontract
    have hk : chunkIdFor env (documentIdFor env contract.title) text ∈
        idsIn rows (documentIdFor env contract.title) := by
      rw [hids, Ledger.chunkIds, hcontract]
      exact mem_contractChunkIds_iff.mpr ⟨text, htext, rfl⟩
    obtain ⟨chunk, hrow, hd⟩ := mem_idsIn.mp hk
    obtain ⟨hchunkId, hcut⟩ := hfrom _ chunk hrow
    exact ⟨chunk, hrow, hd, (rawChunkText_eq hinj hcontracts hcut
      (documentIdFor_noColon contract.title) (mem_pagesOf hcontext htext) hchunkId).2⟩

/-! ### Runs -/

variable {calls : List IngestCall} {s : Stores}

/-- What holds after calls that have returned. -/
private theorem facts_of_calls
    (hinj : ∀ a ∈ texts, ∀ b ∈ texts, contentHash env a = contentHash env b → a = b)
    (hwithin : ∀ call ∈ calls, call.Within texts) (hrun : exec (serve env) {} calls = some s) :
    IngestInvariant texts (⟨s, ledgerOf env calls⟩ : IngestState env) ∧
      s.From env (calls.flatMap IngestCall.contracts) ∧ s.Settled := by
  induction calls using List.reverseRecOn generalizing s with
  | nil =>
    obtain rfl := Option.some.inj hrun
    refine ⟨⟨agrees_empty env, fun _ _ h => nomatch h⟩, ?_, ⟨rfl, rfl, fun _ => rfl⟩⟩
    exact ⟨(fun _ h => nomatch h), (fun _ h => nomatch h), rowsFrom_empty, rowsFrom_empty,
      rowsFrom_empty⟩
  | append_singleton calls call ih =>
    rw [exec_concat] at hrun
    obtain ⟨t, ht, hcall⟩ := Option.bind_eq_some_iff.mp hrun
    obtain ⟨hinv, hfrom, hsettled⟩ :=
      ih (fun call' hmem => hwithin call' (List.mem_append_left _ hmem)) ht
    have hlast : call.Within texts := hwithin call (List.mem_append_right _ List.mem_cons_self)
    refine ⟨?_, ?_, hsettled.serve hcall⟩
    · rw [ledgerOf, List.foldl_append]
      exact hinv.step hinj hlast rfl (ingestStep_follow _ hcall)
    · have hleft : calls.flatMap IngestCall.contracts ⊆
          (calls ++ [call]).flatMap IngestCall.contracts := by
        rw [List.flatMap_append]
        exact List.subset_append_left _ _
      have hright : call.contracts ⊆ (calls ++ [call]).flatMap IngestCall.contracts := by
        rw [List.flatMap_append, List.flatMap_singleton]
        exact List.subset_append_right _ _
      exact keepsFrom_serve hcall _ hright (hfrom.mono hleft)

/-- Texts of the contracts of calls are among the texts that the calls are within. -/
private theorem truthy_of_within (hwithin : ∀ call ∈ calls, call.Within texts) :
    ∀ contract ∈ calls.flatMap IngestCall.contracts,
      ∀ context ∈ truthy contract.context, context ∈ texts := by
  intro contract hcontract
  obtain ⟨call, hcall, hmem⟩ := List.mem_flatMap.mp hcontract
  have hcallWithin := hwithin call hcall
  cases call with
  | insertOrUpdate contract' identity =>
    obtain rfl := List.mem_singleton.mp hmem
    exact hcallWithin
  | delete documentId => cases hmem

/-- The corpus in memory. -/
theorem holdsLatest_bm25
    (hinj : ∀ a ∈ texts, ∀ b ∈ texts, contentHash env a = contentHash env b → a = b)
    (hpages : Set.InjOn env.sha256.hex16 {text | text ∈ pagesOf env texts})
    (hwithin : ∀ call ∈ calls, call.Within texts) (hrun : exec (serve env) {} calls = some s) :
    HoldsLatest (ledgerOf env calls) s.bm25 := by
  obtain ⟨⟨hagrees, hin⟩, hfrom, -⟩ := facts_of_calls hinj hwithin hrun
  exact holdsLatest_of_ids hpages (truthy_of_within hwithin) hin hfrom.bm25 hagrees.bm25

/-- The corpus on disk, which is the one in memory. -/
theorem holdsLatest_disk
    (hinj : ∀ a ∈ texts, ∀ b ∈ texts, contentHash env a = contentHash env b → a = b)
    (hpages : Set.InjOn env.sha256.hex16 {text | text ∈ pagesOf env texts})
    (hwithin : ∀ call ∈ calls, call.Within texts) (hrun : exec (serve env) {} calls = some s) :
    HoldsLatest (ledgerOf env calls) (s.bm25Disk.getD .empty) := by
  obtain ⟨-, -, hsettled⟩ := facts_of_calls hinj hwithin hrun
  rw [hsettled.bm25]
  exact holdsLatest_bm25 hinj hpages hwithin hrun

/-- The table of chunks. -/
theorem holdsLatest_chunks
    (hinj : ∀ a ∈ texts, ∀ b ∈ texts, contentHash env a = contentHash env b → a = b)
    (hpages : Set.InjOn env.sha256.hex16 {text | text ∈ pagesOf env texts})
    (hwithin : ∀ call ∈ calls, call.Within texts) (hrun : exec (serve env) {} calls = some s) :
    HoldsLatest (ledgerOf env calls) s.chunks := by
  obtain ⟨⟨hagrees, hin⟩, hfrom, -⟩ := facts_of_calls hinj hwithin hrun
  exact holdsLatest_of_ids hpages (truthy_of_within hwithin) hin hfrom.chunks hagrees.chunks

/-- **The corpus is the latest contracts.** After calls that have all returned, over texts and pages
whose hashes differ, the corpus in memory, the corpus on disk and the table of chunks have exactly
the pages of the contracts that were ingested last and have not been deleted since. -/
theorem corpus_is_latest
    (hinj : ∀ a ∈ texts, ∀ b ∈ texts, contentHash env a = contentHash env b → a = b)
    (hpages : Set.InjOn env.sha256.hex16 {text | text ∈ pagesOf env texts})
    (hwithin : ∀ call ∈ calls, call.Within texts) (hrun : exec (serve env) {} calls = some s) :
    HoldsLatest (ledgerOf env calls) s.bm25 ∧
      HoldsLatest (ledgerOf env calls) (s.bm25Disk.getD .empty) ∧
      HoldsLatest (ledgerOf env calls) s.chunks :=
  ⟨holdsLatest_bm25 hinj hpages hwithin hrun, holdsLatest_disk hinj hpages hwithin hrun,
    holdsLatest_chunks hinj hpages hwithin hrun⟩

end

/-- Two contracts under one title, a deletion, and the first contract again. -/
def replacedCalls : List IngestCall :=
  [sampleInsert "one", sampleInsert "two", .delete "alpha", sampleInsert "one"]

/-- `corpus_is_latest` after an update, a deletion and another insert. -/
theorem corpus_is_latest_replaced : ∃ s, exec (serve sampleEnv) {} replacedCalls = some s ∧
    HoldsLatest (ledgerOf sampleEnv replacedCalls) (s.bm25Disk.getD .empty) := by
  have hsome : (exec (serve sampleEnv) {} replacedCalls).isSome = true := by decide +kernel
  obtain ⟨s, hs⟩ := Option.isSome_iff_exists.mp hsome
  have hwithin : ∀ call ∈ replacedCalls, call.Within ["one", "two"] := by decide +kernel
  have hpages : ∀ a ∈ pagesOf sampleEnv ["one", "two"], ∀ b ∈ pagesOf sampleEnv ["one", "two"],
      sampleEnv.sha256.hex16 a = sampleEnv.sha256.hex16 b → a = b := by
    decide +kernel
  have hinjOn : Set.InjOn sampleEnv.sha256.hex16
      {text | text ∈ pagesOf sampleEnv ["one", "two"]} := fun a ha b hb => hpages a ha b hb
  exact ⟨s, hs, (corpus_is_latest sample_injective hinjOn hwithin hs).2.1⟩

end AuditFlow
