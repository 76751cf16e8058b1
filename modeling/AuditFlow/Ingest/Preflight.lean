import AuditFlow.Ingest.Identities
import AuditFlow.Ingest.IngestionService

/-!
# The preflight check

`ingest/pre_flight_check.py`: a dry run over a file of contracts that reports what an ingestion
would overwrite. `check_titles` remembers which title was first to claim a document id, and
`check_chunking` which document was last to use a chunk id.

Both look for two **different** claimants. So the check is passed exactly if no two titles have the
same document id (`preflight_iff`): chunk ids name their document, so that the second scan never
finds anything, and a title that is repeated claims its own id again.
-/

namespace AuditFlow

open Foundation

/-! ### Titles -/

/-- An entry of `low_confidence_titles`. -/
structure LowConfidenceTitle where
  rawTitle : String
  documentTitle : String
  companyName : String
  contractType : String
  deriving DecidableEq, Repr

/-- Two claims on one id: the id, the first claimant, and the other. -/
structure Collision where
  id : String
  first : String
  other : String
  deriving DecidableEq, Repr

/-- The report of `check_titles`. -/
structure TitleReport where
  totalContracts : ℕ
  noContext : List String
  documentIdCollisions : List Collision
  lowConfidenceTitles : List LowConfidenceTitle
  deriving DecidableEq, Repr

/-- The variables of `check_titles`. -/
structure TitleScan where
  seenIds : Dict String String := .empty
  collisions : List Collision := []
  lowConfidence : List LowConfidenceTitle := []
  noContext : List String := []

/-- A title claims a document id. -/
def TitleScan.claim (scan : TitleScan) (docId rawTitle : String) : TitleScan :=
  match scan.seenIds.get? docId with
  | some seen =>
    if seen ≠ rawTitle then
      { scan with collisions :=
          scan.collisions ++ [{ id := docId, first := seen, other := rawTitle }] }
    else { scan with seenIds := scan.seenIds.set docId rawTitle }
  | none => { scan with seenIds := scan.seenIds.set docId rawTitle }

/-- A title that was hard to parse is noted. -/
def TitleScan.note (scan : TitleScan) (parsed : ParsedTitle) : TitleScan :=
  if parsed.parseConfidence = "low" then
    { scan with lowConfidence := scan.lowConfidence ++ [{
        rawTitle := parsed.rawTitle
        documentTitle := parsed.cleanTitle
        companyName := parsed.companyName
        contractType := parsed.contractType }] }
  else scan

/-! ### Chunks -/

/-- The report of `check_chunking`. -/
structure ChunkReport where
  totalChunks : ℕ := 0
  perDocChunkCounts : List (String × ℕ) := []
  emptyDocs : List String := []
  chunkIdCollisions : List Collision := []
  deriving DecidableEq, Repr

/-- The variables of `check_chunking`. -/
structure ChunkScan where
  allChunkIds : Dict String String := .empty
  report : ChunkReport := {}

/-- A chunk claims its id for a document. -/
def ChunkScan.claim (documentId : String) (scan : ChunkScan) (chunk : ChunkRecord) : ChunkScan where
  allChunkIds := scan.allChunkIds.set chunk.chunkId documentId
  report :=
    match scan.allChunkIds.get? chunk.chunkId with
    | some owner =>
      if owner ≠ documentId then
        { scan.report with chunkIdCollisions := scan.report.chunkIdCollisions ++
            [{ id := chunk.chunkId, first := owner, other := documentId }] }
      else scan.report
    | none => scan.report

section

variable (env : IngestEnv)

/-- One contract of `check_titles`. -/
def scanTitle (scan : TitleScan) (contract : JsonContract) : TitleScan :=
  match truthy contract.context.get with
  | none => { scan with noContext := scan.noContext ++ [contract.title] }
  | some _ =>
    (scan.claim (documentIdFor env contract.title) contract.title).note
      (parseTitle env.unicode contract.title)

/-- `check_titles`. -/
def checkTitles (data : List JsonContract) : TitleReport :=
  let scan := data.foldl (scanTitle env) {}
  { totalContracts := data.length
    noContext := scan.noContext
    documentIdCollisions := scan.collisions
    lowConfidenceTitles := scan.lowConfidence }

/-- One contract of `check_chunking`; its chunk size and overlap are those of the service. -/
def scanChunks (identities : Option (Dict String DocumentIdentity)) (scan : ChunkScan)
    (contract : JsonContract) : ChunkScan :=
  let identity := identities.bind fun identities =>
    identities.get? (hashPreamble env (preambleOf (contract.context.get.getD "")))
  match recordOf env contract.toContract identity with
  | none => scan
  | some record =>
    if record.chunks = [] then
      { scan with report := { scan.report with
          emptyDocs := scan.report.emptyDocs ++ [record.documentId] } }
    else
      record.chunks.foldl (ChunkScan.claim record.documentId) { scan with
        report := { scan.report with
          perDocChunkCounts :=
            scan.report.perDocChunkCounts ++ [(record.documentId, record.chunks.length)]
          totalChunks := scan.report.totalChunks + record.chunks.length } }

/-- `check_chunking`. -/
def checkChunking (identities : Option (Dict String DocumentIdentity))
    (data : List JsonContract) : ChunkReport :=
  (data.foldl (scanChunks env identities) {}).report

/-- What `print_report` returns: the file is ready to be embedded. -/
def printReport (titles : TitleReport) (chunks : ChunkReport) : Bool :=
  titles.documentIdCollisions.isEmpty && chunks.chunkIdCollisions.isEmpty

/-- Both checks, and their report. -/
def preflight (identities : Option (Dict String DocumentIdentity))
    (data : List JsonContract) : Bool :=
  printReport (checkTitles env data) (checkChunking env identities data)

/-- `contract.get("context")` is true. -/
def JsonContract.hasContext (contract : JsonContract) : Bool :=
  (truthy contract.context.get).isSome

/-! ### What the title scan finds -/

variable {env} {data : List JsonContract} {identities : Option (Dict String DocumentIdentity)}

@[simp] theorem TitleScan.note_seenIds (scan : TitleScan) (parsed : ParsedTitle) :
    (scan.note parsed).seenIds = scan.seenIds := by
  rw [note]
  split_ifs
  · rfl
  · rfl

@[simp] theorem TitleScan.note_collisions (scan : TitleScan) (parsed : ParsedTitle) :
    (scan.note parsed).collisions = scan.collisions := by
  rw [note]
  split_ifs
  · rfl
  · rfl

/-- A claim goes through unless another title was there first. -/
private theorem TitleScan.claim_cases (scan : TitleScan) (docId rawTitle : String) :
    ((∀ seen ∈ scan.seenIds.get? docId, seen = rawTitle) ∧
        (scan.claim docId rawTitle).seenIds = scan.seenIds.set docId rawTitle ∧
        (scan.claim docId rawTitle).collisions = scan.collisions) ∨
      (¬∀ seen ∈ scan.seenIds.get? docId, seen = rawTitle) ∧
        (scan.claim docId rawTitle).collisions ≠ [] := by
  rw [claim]
  rcases hseen : scan.seenIds.get? docId with - | seen
  · exact Or.inl ⟨by rintro _ ⟨⟩, rfl, rfl⟩
  · dsimp only
    split_ifs with hne
    · refine Or.inr ⟨fun h => hne (h seen rfl), ?_⟩
      exact List.append_ne_nil_of_right_ne_nil _ (List.cons_ne_nil _ _)
    · refine Or.inl ⟨?_, rfl, rfl⟩
      rintro _ ⟨⟩
      exact not_not.mp hne

/-- A contract without context claims nothing. -/
private theorem scanTitle_of_not_hasContext {scan : TitleScan} {contract : JsonContract}
    (h : contract.hasContext = false) :
    scanTitle env scan contract =
      { scan with noContext := scan.noContext ++ [contract.title] } := by
  rw [scanTitle, Option.isSome_eq_false_iff.mp h |> Option.isNone_iff_eq_none.mp]

private theorem scanTitle_of_hasContext {scan : TitleScan} {contract : JsonContract}
    (h : contract.hasContext = true) :
    scanTitle env scan contract =
      (scan.claim (documentIdFor env contract.title) contract.title).note
        (parseTitle env.unicode contract.title) := by
  obtain ⟨text, htext⟩ := Option.isSome_iff_exists.mp h
  rw [scanTitle, htext]

private theorem collisions_foldl_ne_nil {scan : TitleScan} (h : scan.collisions ≠ []) :
    (data.foldl (scanTitle env) scan).collisions ≠ [] := by
  induction data generalizing scan with
  | nil => exact h
  | cons contract data ih =>
    refine ih ?_
    rcases hcontext : contract.hasContext with - | -
    · rw [scanTitle_of_not_hasContext hcontext]
      exact h
    · rw [scanTitle_of_hasContext hcontext, TitleScan.note_collisions]
      rcases scan.claim_cases (documentIdFor env contract.title) contract.title with
        ⟨-, -, hsame⟩ | ⟨-, hne⟩
      · rw [hsame]
        exact h
      · exact hne

/-- Two contracts claim one document id under one title. -/
def SameClaim (env : IngestEnv) (contract contract' : JsonContract) : Prop :=
  contract.hasContext = true → contract'.hasContext = true →
    documentIdFor env contract.title = documentIdFor env contract'.title →
      contract.title = contract'.title

/-- The scan finds no collision exactly if every title agrees with those that are seen, and with
those before it. -/
private theorem collisions_foldl_eq_nil_iff {scan : TitleScan} :
    (data.foldl (scanTitle env) scan).collisions = [] ↔ scan.collisions = [] ∧
      (∀ contract ∈ data, contract.hasContext = true →
        ∀ seen ∈ scan.seenIds.get? (documentIdFor env contract.title), seen = contract.title) ∧
      data.Pairwise (SameClaim env) := by
  induction data generalizing scan with
  | nil => simp
  | cons contract data ih =>
    rw [List.foldl_cons, List.forall_mem_cons, List.pairwise_cons]
    rcases hcontext : contract.hasContext with - | -
    · have hclaims : ∀ contract' ∈ data, SameClaim env contract contract' := by
        intro contract' _ h
        rw [hcontext] at h
        cases h
      rw [ih, scanTitle_of_not_hasContext hcontext]
      simp only [Bool.false_eq_true, false_implies, true_and, and_iff_right hclaims]
    · rw [scanTitle_of_hasContext hcontext]
      rcases scan.claim_cases (documentIdFor env contract.title) contract.title with
        ⟨hseen, hids, hsame⟩ | ⟨hother, hne⟩
      · rw [ih, TitleScan.note_collisions, hsame, TitleScan.note_seenIds, hids]
        refine and_congr_right fun _ => ?_
        simp only [true_implies, and_iff_right hseen]
        rw [← and_assoc]
        refine and_congr_left fun _ => ?_
        -- the title itself is now seen under its id
        constructor
        · intro h
          refine ⟨fun contract' hmem hcontext' seen hseen' => ?_,
            fun contract' hmem _ hcontext' hid => ?_⟩
          · by_cases hid : documentIdFor env contract'.title = documentIdFor env contract.title
            · have hfirst := h contract' hmem hcontext' contract.title
                (by rw [Dict.get?_set, if_pos hid]; rfl)
              rw [← hfirst]
              exact hseen seen (hid ▸ hseen')
            · exact h contract' hmem hcontext' seen (by rwa [Dict.get?_set, if_neg hid])
          · exact h contract' hmem hcontext' contract.title
              (by rw [Dict.get?_set, if_pos hid.symm]; rfl)
        · rintro ⟨hold, hclaims⟩ contract' hmem hcontext' seen hseen'
          rw [Dict.get?_set] at hseen'
          split_ifs at hseen' with hid
          · obtain rfl : contract.title = seen := Option.some.inj hseen'
            exact hclaims contract' hmem hcontext hcontext' hid.symm
          · exact hold contract' hmem hcontext' seen hseen'
      · refine iff_of_false (collisions_foldl_ne_nil ?_) fun h => hother (h.2.1.1 rfl)
        rw [TitleScan.note_collisions]
        exact hne

/-- **`check_titles` finds no collision** exactly if no two titles have one document id. -/
theorem checkTitles_eq_nil_iff : (checkTitles env data).documentIdCollisions = [] ↔
    ∀ contract ∈ data, ∀ contract' ∈ data, SameClaim env contract contract' := by
  have hscan : (checkTitles env data).documentIdCollisions = [] ↔
      data.Pairwise (SameClaim env) := by
    refine collisions_foldl_eq_nil_iff.trans ?_
    simp
  rw [hscan]
  constructor
  · intro h
    have hflip : data.Pairwise (flip (SameClaim env)) :=
      h.imp fun hclaim hc hc' hid => (hclaim hc' hc hid.symm).symm
    exact List.Pairwise.forall_of_forall_of_flip (fun _ _ _ _ _ => rfl) h hflip
  · intro h
    exact List.pairwise_of_forall_mem_list h

/-! ### What the chunk scan finds -/

/-- Every chunk id was used by the document that it names, and nothing collided. -/
structure ChunkScan.Clean (scan : ChunkScan) : Prop where
  owners : ∀ k owner, scan.allChunkIds.get? k = some owner → owner = ownerOf k
  collisions : scan.report.chunkIdCollisions = []

private theorem ChunkScan.Clean.claim {scan : ChunkScan} (h : scan.Clean) {documentId : String}
    {chunk : ChunkRecord} (hown : ownerOf chunk.chunkId = documentId) :
    (scan.claim documentId chunk).Clean := by
  constructor
  · intro k owner hget
    rw [ChunkScan.claim, Dict.get?_set] at hget
    split_ifs at hget with hk
    · obtain rfl : documentId = owner := Option.some.inj hget
      rw [hk, hown]
    · exact h.owners k owner hget
  · rw [ChunkScan.claim]
    rcases howner : scan.allChunkIds.get? chunk.chunkId with - | owner
    · exact h.collisions
    · have hsame : owner = documentId := (h.owners _ _ howner).trans hown
      simp only [hsame, ne_eq, not_true, if_false]
      exact h.collisions

private theorem ChunkScan.Clean.foldl_claim {documentId : String} {chunks : List ChunkRecord}
    (hown : ∀ chunk ∈ chunks, ownerOf chunk.chunkId = documentId) {scan : ChunkScan}
    (h : scan.Clean) : (chunks.foldl (ChunkScan.claim documentId) scan).Clean := by
  induction chunks generalizing scan with
  | nil => exact h
  | cons chunk chunks ih =>
    exact ih (fun chunk' hmem => hown chunk' (List.mem_cons_of_mem chunk hmem))
      (h.claim (hown chunk List.mem_cons_self))

private theorem ChunkScan.Clean.scanChunks {scan : ChunkScan} (h : scan.Clean)
    (contract : JsonContract) : (scanChunks env identities scan contract).Clean := by
  rw [AuditFlow.scanChunks]
  dsimp only
  split
  · exact h
  · rename_i record hrecord
    split_ifs with hchunks
    · exact ⟨h.owners, h.collisions⟩
    · exact ChunkScan.Clean.foldl_claim (fun chunk hchunk => (chunk_owned hrecord hchunk).2)
        ⟨h.owners, h.collisions⟩

/-- **`check_chunking` finds no collision**: a chunk id names its document. -/
theorem checkChunking_eq_nil : (checkChunking env identities data).chunkIdCollisions = [] := by
  have hclean : ∀ (data : List JsonContract) (scan : ChunkScan), scan.Clean →
      (data.foldl (scanChunks env identities) scan).Clean := by
    intro data
    induction data with
    | nil => exact fun _ h => h
    | cons contract data ih => exact fun scan h => ih _ (h.scanChunks contract)
  have hstart : ChunkScan.Clean {} := ⟨by rintro _ _ ⟨⟩, rfl⟩
  exact (hclean data {} hstart).collisions

/-- **The check is passed** exactly if no two titles have one document id. -/
theorem preflight_iff : preflight env identities data = true ↔
    ∀ contract ∈ data, ∀ contract' ∈ data, SameClaim env contract contract' := by
  rw [preflight, printReport, checkChunking_eq_nil, List.isEmpty_nil, Bool.and_true,
    List.isEmpty_iff, checkTitles_eq_nil_iff]

end

end AuditFlow
