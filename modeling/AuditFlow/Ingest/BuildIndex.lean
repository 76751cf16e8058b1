import AuditFlow.Ingest.Parts
import AuditFlow.Ingest.Preflight

/-!
# Building the index

`build` of `ingest/build_index.py` ingests a file of contracts, one `insert_or_update_document`
after the other. It loads the cached identities of all contracts, opens the indexes that are on
disk, and skips the contracts without context; whatever raises ends the build, with the stores that
it has left so far.

After a build that returns, the row of a document has the hash of **the last contract with its id**
(`hash_buildLines`). So a file that has passed the preflight check is ingested such that no contract
replaces one of another title (`ready_replaces_same_title`); of two contracts under one title the
later replaces the earlier (`ready_replaces`).
-/

namespace AuditFlow

open Foundation

/-- What a new process finds: the indexes are read from disk. -/
def Stores.opened (s : Stores) : Stores :=
  { s with faiss := s.faissDisk, bm25 := s.bm25Disk.getD .empty }

/-- What `build` prints: a line for each contract that was ingested, and the sums. -/
structure BuildReport where
  lines : List (JsonContract × IngestResult)
  added : ℕ
  deleted : ℕ
  unchanged : ℕ
  noop : ℕ

/-- The sums of the lines. -/
def BuildReport.of (lines : List (JsonContract × IngestResult)) : BuildReport where
  lines
  added := lines.foldl (fun added line => added + line.2.addedChunks) 0
  deleted := lines.foldl (fun deleted line => deleted + line.2.deletedChunks) 0
  unchanged := lines.foldl (fun unchanged line => unchanged + line.2.unchangedChunks) 0
  noop := lines.countP fun line => line.2.wasNoop

section

variable (env : IngestEnv) (faults : Faults)

/-- The loop of `build`. -/
def buildLines (identities : Dict String DocumentIdentity) :
    List JsonContract → Exc PyError Stores (List (JsonContract × IngestResult))
  | [] => pure []
  | contract :: data =>
    match truthy contract.context.get with
    | none => buildLines identities data
    | some context => do
      let identity := identities.get? (hashPreamble env (preambleOf context))
      let result ← insertOrUpdateDocument env faults contract.toContract identity
      let lines ← buildLines identities data
      pure ((contract, result) :: lines)

/-- `build`, from the cache of identities and the contracts of the file. -/
def build (cache : Dict String DocumentIdentity) (data : List JsonContract) :
    Exc PyError Stores BuildReport := do
  let identities ← Exc.ofExcept (loadCachedIdentities env cache data)
  Exc.modify Stores.opened
  let lines ← buildLines env faults identities data
  pure (BuildReport.of lines)

variable {env faults} {identities cache : Dict String DocumentIdentity} {contract : JsonContract}
  {data : List JsonContract} {lines : List (JsonContract × IngestResult)} {s s' : Stores}

/-! ### Runs of the loop -/

/-- The identity that a context comes with. -/
def identityOf (env : IngestEnv) (identities : Dict String DocumentIdentity) (context : String) :
    Option DocumentIdentity := identities.get? (hashPreamble env (preambleOf context))

theorem buildLines_nil_ok : buildLines env faults identities [] s = (.ok lines, s') ↔
    lines = [] ∧ s' = s := by
  rw [buildLines, Exc.pure_eq_ok_iff]
  exact and_congr eq_comm eq_comm

/-- A contract without context is skipped. -/
theorem buildLines_of_none (h : truthy contract.context.get = none) :
    buildLines env faults identities (contract :: data) =
      buildLines env faults identities data := by
  rw [buildLines, h]

/-- Any other contract is ingested, before the rest of the file. -/
theorem buildLines_cons_ok {context : String} (h : truthy contract.context.get = some context) :
    buildLines env faults identities (contract :: data) s = (.ok lines, s') ↔
      ∃ result t rest,
        insertOrUpdateDocument env faults contract.toContract
          (identityOf env identities context) s = (.ok result, t) ∧
        buildLines env faults identities data t = (.ok rest, s') ∧
        lines = (contract, result) :: rest := by
  rw [buildLines, h]
  simp only [Exc.bind_eq_ok_iff, Exc.pure_eq_ok_iff]
  constructor
  · rintro ⟨result, t, hinsert, rest, t', hrest, rfl, rfl⟩
    exact ⟨result, t, rest, hinsert, hrest, rfl⟩
  · rintro ⟨result, t, rest, hinsert, hrest, rfl⟩
    exact ⟨result, t, hinsert, rest, s', hrest, rfl, rfl⟩

/-- A build that returns has loaded the identities, opened the indexes and gone through the file. -/
theorem build_ok {report : BuildReport} :
    build env faults cache data s = (.ok report, s') ↔
      ∃ identities lines, loadCachedIdentities env cache data = .ok identities ∧
        buildLines env faults identities data s.opened = (.ok lines, s') ∧
        report = BuildReport.of lines := by
  rw [build]
  simp only [Exc.bind_eq_ok_iff, Exc.pure_eq_ok_iff]
  constructor
  · rintro ⟨identities, t, hload, _, t', hopen, lines, t'', hlines, rfl, rfl⟩
    rw [Exc.ofExcept_apply] at hload
    obtain ⟨hidentities, rfl⟩ := Prod.mk.inj hload
    obtain ⟨-, rfl⟩ := Prod.mk.inj hopen
    exact ⟨identities, lines, hidentities, hlines, rfl⟩
  · rintro ⟨identities, lines, hload, hlines, rfl⟩
    refine ⟨identities, s, ?_, (), s.opened, rfl, lines, s', hlines, rfl, rfl⟩
    rw [Exc.ofExcept_apply, hload]

/-! ### Rows after a build -/

/-- A context makes a record, whatever the identity. -/
theorem exists_record (env : IngestEnv) {context : String}
    (h : truthy contract.context.get = some context) (identity : Option DocumentIdentity) :
    ∃ record, recordOf env contract.toContract identity = some record ∧
      record.documentId = documentIdFor env contract.title ∧
      record.contentHash = contentHash env context ∧ record.rawTitle = contract.title := by
  have hcontext : truthy contract.toContract.context = some context := h
  have hsome : ∃ record, recordOf env contract.toContract identity = some record := by
    rw [recordOf, buildDocumentRecord, hcontext]
    exact ⟨_, rfl⟩
  obtain ⟨record, hrecord⟩ := hsome
  obtain ⟨context', hcontext', hid, hhash, -⟩ := buildDocumentRecord_eq_some hrecord
  obtain rfl := Option.some.inj (hcontext.symm.trans hcontext')
  exact ⟨record, hrecord, hid, hhash, buildDocumentRecord_rawTitle hrecord⟩

/-- What an update that returns does to the rows. -/
private theorem rows_insert {contract : Contract} {identity : Option DocumentIdentity}
    {record : DocumentRecord} {result : IngestResult}
    (hrecord : recordOf env contract identity = some record)
    (hrun : insertOrUpdateDocument env faults contract identity s = (.ok result, s')) :
    s'.hasVersion record ∧ (s'.documents = s.documents ∨
      s'.documents = s.documents.set record.documentId { record with chunks := [] }) := by
  have hexit : InsertExit env faults contract identity s _ _ :=
    insertOrUpdateDocument_exit contract identity s
  rw [hrun] at hexit
  dsimp only at hexit
  cases hexit with
  | noop hrecord' hversion =>
    obtain rfl := Option.some.inj (hrecord.symm.trans hrecord')
    exact ⟨hversion, Or.inl rfl⟩
  | written hrecord' =>
    obtain rfl := Option.some.inj (hrecord.symm.trans hrecord')
    have hdocuments : (Exc.stage (writeEffects record (s.diffFor env record)) s 9).bumped.documents
        = s.documents.set record.documentId { record with chunks := [] } :=
      stage_documents (by omega) (le_refl 9)
    refine ⟨?_, Or.inr hdocuments⟩
    rw [Stores.hasVersion, hdocuments]
    exact ⟨_, Dict.get?_set_self _ _ _, rfl⟩

/-- The context of a contract whose title is of a kind. -/
def contextOf (kind : String → Bool) (contract : JsonContract) : Option String :=
  if kind contract.title then truthy contract.context.get else none

/-- The context of the last contract that has one, among the titles of a kind. -/
def lastContext (kind : String → Bool) (data : List JsonContract) : Option String :=
  (data.filterMap (contextOf kind)).getLast?

variable {kind kind' : String → Bool}

private theorem lastContext_cons_of_none (h : contextOf kind contract = none) :
    lastContext kind (contract :: data) = lastContext kind data := by
  rw [lastContext, List.filterMap_cons_none h, lastContext]

private theorem lastContext_cons_of_some {context : String}
    (h : contextOf kind contract = some context) :
    lastContext kind (contract :: data) = (lastContext kind data).or (some context) := by
  rw [lastContext, List.filterMap_cons_some h, List.getLast?_cons, lastContext, Option.or_some]

private theorem lastContext_congr (h : ∀ contract ∈ data, contract.hasContext = true →
      kind contract.title = kind' contract.title) :
    lastContext kind data = lastContext kind' data := by
  have hmap : ∀ contract ∈ data, contextOf kind contract = contextOf kind' contract := by
    intro contract hmem
    rw [contextOf, contextOf]
    rcases hcontext : truthy contract.context.get with - | context
    · rw [ite_self, ite_self]
    · rw [h contract hmem (Option.isSome_iff_exists.mpr ⟨context, hcontext⟩)]
  rw [lastContext, lastContext, List.filterMap_congr hmap]

/-- The last context is that of a contract. -/
private theorem exists_of_lastContext {context : String}
    (h : lastContext kind data = some context) : ∃ contract ∈ data, kind contract.title = true ∧
      truthy contract.context.get = some context := by
  obtain ⟨contract, hmem, hcontract⟩ := List.mem_filterMap.mp (List.mem_of_getLast? h)
  rw [contextOf] at hcontract
  split_ifs at hcontract with hkind
  exact ⟨contract, hmem, hkind, hcontract⟩

/-- **After a build**, a row has the hash of the last contract with its id. -/
theorem hash_buildLines (h : buildLines env faults identities data s = (.ok lines, s'))
    (d : String) : (s'.documents.get? d).map (·.contentHash) =
      ((lastContext (fun title => documentIdFor env title = d) data).map (contentHash env)).or
        ((s.documents.get? d).map (·.contentHash)) := by
  induction data generalizing s lines with
  | nil =>
    obtain ⟨-, rfl⟩ := buildLines_nil_ok.mp h
    rfl
  | cons contract data ih =>
    rcases hcontext : truthy contract.context.get with - | context
    · rw [buildLines_of_none hcontext] at h
      have hnone : contextOf (fun title => documentIdFor env title = d) contract = none := by
        rw [contextOf, hcontext, ite_self]
      rw [lastContext_cons_of_none hnone]
      exact ih h
    · obtain ⟨result, t, rest, hinsert, hrest, -⟩ := (buildLines_cons_ok hcontext).mp h
      obtain ⟨record, hrecord, hid, hhash, -⟩ :=
        exists_record env hcontext (identityOf env identities context)
      obtain ⟨⟨row, hrow, hsame⟩, hdocuments⟩ := rows_insert hrecord hinsert
      rw [ih hrest]
      by_cases hd : documentIdFor env contract.title = d
      · have hsome : contextOf (fun title => documentIdFor env title = d) contract =
            some context := (if_pos (decide_eq_true hd)).trans hcontext
        have hstored : (t.documents.get? d).map (·.contentHash) =
            some (contentHash env context) := by
          rw [← hd, ← hid, hrow, Option.map_some, hsame, hhash]
        rw [lastContext_cons_of_some hsome, hstored]
        cases lastContext (fun title => documentIdFor env title = d) data with
        | none => rfl
        | some last => rfl
      · have hkeep : t.documents.get? d = s.documents.get? d := by
          rcases hdocuments with hsame | hset
          · rw [hsame]
          · rw [hset, Dict.get?_set, if_neg fun h => hd (hid.symm.trans h.symm)]
        have hnone : contextOf (fun title => documentIdFor env title = d) contract = none :=
          if_neg fun h => hd (of_decide_eq_true h)
        rw [lastContext_cons_of_none hnone, hkeep]

/-- A row after a build was there before, or has the title of a contract with its id. -/
theorem rawTitle_buildLines (h : buildLines env faults identities data s = (.ok lines, s'))
    {d : String} {row : DocumentRecord} (hrow : s'.documents.get? d = some row) :
    s.documents.get? d = some row ∨ ∃ contract ∈ data, contract.hasContext = true ∧
      documentIdFor env contract.title = d ∧ row.rawTitle = contract.title := by
  induction data generalizing s lines with
  | nil =>
    obtain ⟨-, rfl⟩ := buildLines_nil_ok.mp h
    exact Or.inl hrow
  | cons contract data ih =>
    rcases hcontext : truthy contract.context.get with - | context
    · rw [buildLines_of_none hcontext] at h
      refine (ih h).imp_right ?_
      rintro ⟨contract', hmem, hrest⟩
      exact ⟨contract', List.mem_cons_of_mem contract hmem, hrest⟩
    · obtain ⟨result, t, rest, hinsert, hrest, -⟩ := (buildLines_cons_ok hcontext).mp h
      obtain ⟨record, hrecord, hid, -, htitle⟩ :=
        exists_record env hcontext (identityOf env identities context)
      rcases ih hrest with hold | ⟨contract', hmem, hlater⟩
      · rcases (rows_insert hrecord hinsert).2 with hsame | hset
        · rw [hsame] at hold
          exact Or.inl hold
        · rw [hset, Dict.get?_set] at hold
          split_ifs at hold with hd
          · obtain rfl := Option.some.inj hold
            refine Or.inr ⟨contract, List.mem_cons_self, ?_, hid.symm.trans hd.symm, htitle⟩
            exact Option.isSome_iff_exists.mpr ⟨context, hcontext⟩
          · exact Or.inl hold
      · exact Or.inr ⟨contract', List.mem_cons_of_mem contract hmem, hlater⟩

/-- **No contract replaces one of another title** in a build of a file that has passed the preflight
check, into empty stores. Each contract with a context has a row, under its title, with the hash of
the last context under this title; this is its own unless the title is repeated. -/
theorem ready_replaces_same_title {cached : Option (Dict String DocumentIdentity)}
    (hready : preflight env cached data = true) {report : BuildReport}
    (hrun : build env faults cache data {} = (.ok report, s)) (hmem : contract ∈ data)
    {context : String} (hcontext : truthy contract.context.get = some context) :
    ∃ row, s.documents.get? (documentIdFor env contract.title) = some row ∧
      row.rawTitle = contract.title ∧
      some row.contentHash =
        (lastContext (fun title => title = contract.title) data).map (contentHash env) ∧
      ((∀ contract' ∈ data, contract'.title = contract.title → contract' = contract) →
        row.contentHash = contentHash env context) := by
  obtain ⟨identities, lines, -, hlines, -⟩ := build_ok.mp hrun
  have hclaims := preflight_iff.mp hready
  have hhas : contract.hasContext = true := Option.isSome_iff_exists.mpr ⟨context, hcontext⟩
  -- under the preflight check, the id of the contract stands for its title
  have hlast : lastContext (fun title => documentIdFor env title = documentIdFor env contract.title)
      data = lastContext (fun title => title = contract.title) data := by
    refine lastContext_congr fun contract' hmem' hhas' => decide_eq_decide.mpr ⟨fun hid => ?_, ?_⟩
    · exact hclaims contract' hmem' contract hmem hhas' hhas hid
    · intro htitle
      rw [htitle]
  have hsome : ∃ last, lastContext (fun title => title = contract.title) data = some last := by
    have hown : contextOf (fun title => title = contract.title) contract = some context :=
      (if_pos (decide_eq_true rfl)).trans hcontext
    have hlisted : context ∈ data.filterMap (contextOf fun title => title = contract.title) :=
      List.mem_filterMap.mpr ⟨contract, hmem, hown⟩
    exact ⟨_, List.getLast?_eq_some_getLast (List.ne_nil_of_mem hlisted)⟩
  obtain ⟨last, hsome⟩ := hsome
  have hhash := hash_buildLines hlines (documentIdFor env contract.title)
  rw [hlast, hsome] at hhash
  obtain ⟨row, hrow, hsame⟩ := Option.map_eq_some_iff.mp hhash
  refine ⟨row, hrow, ?_, ?_, fun honly => ?_⟩
  · rcases rawTitle_buildLines hlines hrow with hold | ⟨contract', hmem', hhas', hid, htitle⟩
    · cases hold
    · exact htitle.trans (hclaims contract' hmem' contract hmem hhas' hhas hid)
  · rw [hsome, hsame]
    rfl
  · obtain ⟨contract', hmem', htitle, hcontext'⟩ := exists_of_lastContext hsome
    obtain rfl := honly contract' hmem' (of_decide_eq_true htitle)
    obtain rfl := Option.some.inj (hcontext.symm.trans hcontext')
    exact hsame

end

/-- A build of a file into empty stores, without cached identities, if it returns. -/
def built (data : List JsonContract) : Option (BuildReport × Stores) :=
  match build registryEnv Faults.none .empty data {} with
  | (.ok report, s) => some (report, s)
  | (.error _, _) => none

theorem run_of_built {data : List JsonContract} {report : BuildReport} {s : Stores}
    (h : built data = some (report, s)) :
    build registryEnv Faults.none .empty data {} = (.ok report, s) := by
  rw [built] at h
  split at h
  · rename_i hrun
    cases h
    exact hrun
  · cases h

/-- Two contracts under two titles. -/
def distinctFile : List JsonContract := [⟨"Alpha", .text "one"⟩, ⟨"Beta", .text "two"⟩]

/-- `ready_replaces_same_title` for the first of two contracts. -/
theorem ready_replaces_same_title_first :
    ∃ report s, build registryEnv Faults.none .empty distinctFile {} = (.ok report, s) ∧
      ∃ row, s.documents.get? (documentIdFor registryEnv "Alpha") = some row ∧
        row.rawTitle = "Alpha" ∧
        some row.contentHash = (lastContext (fun title => title = "Alpha") distinctFile).map
          (contentHash registryEnv) ∧
        ((∀ contract' ∈ distinctFile, contract'.title = "Alpha" →
            contract' = ⟨"Alpha", .text "one"⟩) →
          row.contentHash = contentHash registryEnv "one") := by
  have hready : preflight registryEnv none distinctFile = true := by decide +kernel
  have hsome : (built distinctFile).isSome = true := by decide +kernel
  obtain ⟨⟨report, s⟩, hbuilt⟩ := Option.isSome_iff_exists.mp hsome
  have hcontext : truthy (ContextField.text "one").get = some "one" := by decide
  exact ⟨report, s, run_of_built hbuilt, ready_replaces_same_title hready (run_of_built hbuilt)
    (List.mem_cons_self : (⟨"Alpha", .text "one"⟩ : JsonContract) ∈ distinctFile) hcontext⟩

/-- Two contracts under one title. -/
def repeatedFile : List JsonContract := [⟨"Alpha", .text "one"⟩, ⟨"Alpha", .text "two"⟩]

/-- **A contract that is replaced**: the file has passed the preflight check, and holds two texts
under one title. -/
theorem ready_replaces :
    preflight registryEnv none repeatedFile = true ∧
      (⟨"Alpha", .text "one"⟩ : JsonContract) ∈ repeatedFile ∧
      (recordOf registryEnv ⟨"Alpha", some "one"⟩ none).any
        (fun record => decide (record.chunks ≠ [])) = true ∧
      ∃ report s, build registryEnv Faults.none .empty repeatedFile {} = (.ok report, s) ∧
        ¬∃ row, s.documents.get? (documentIdFor registryEnv "Alpha") = some row ∧
          row.contentHash = contentHash registryEnv "one" := by
  refine ⟨by decide +kernel, List.mem_cons_self, by decide +kernel, ?_⟩
  have hrun : (built repeatedFile).any (fun r =>
      decide ((r.2.documents.get? (documentIdFor registryEnv "Alpha")).map (·.contentHash) ≠
        some (contentHash registryEnv "one"))) = true := by
    decide +kernel
  obtain ⟨⟨report, s⟩, hbuilt, hother⟩ := (Option.any_eq_true _ _).mp hrun
  refine ⟨report, s, run_of_built hbuilt, ?_⟩
  rintro ⟨row, hrow, hhash⟩
  refine of_decide_eq_true hother ?_
  rw [hrow, Option.map_some, hhash]

end AuditFlow
