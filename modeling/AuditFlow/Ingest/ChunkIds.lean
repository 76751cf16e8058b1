import AuditFlow.Ingest.Agreement
import AuditFlow.Ingest.Preflight
import Mathlib.Data.Set.Function

/-!
# What a chunk id identifies

The stores take a chunk id for a name of the text that is embedded: an id that FAISS already has is
skipped, and an unchanged chunk keeps its vector. The id is made of the **slug** of the title and a
prefix of the hash of the chunk's text (`chunkIdFor_inj`), while the embedded text begins with the
**document title**. So one id stands for one embedded text as long as the titles of one slug are
parsed alike (`same_id_same_embedding_iff`).

As the id begins with the document's own, chunks of different documents cannot collide, and those
are the only collisions for which `check_chunking` looks. It never finds any, so that collisions
within a document go unreported (`collision_reported_iff`).
-/

namespace AuditFlow

open Foundation

section

variable (env : IngestEnv)

/-- The text of a page as it is hashed and embedded. -/
def cleanTextOf (page : String) : String := String.ofList (squeezeSpaces page.toList)

/-- The texts of the chunks of a contract: its pages that are not blank. -/
def chunkTexts (contract : Contract) (chunkSize chunkOverlap : ℕ) : List String :=
  (truthy contract.context).toList.flatMap fun context =>
    ((env.splitDocuments chunkSize chunkOverlap context).map cleanTextOf).filter (· ≠ "")

variable {env} {contract contract' : Contract} {n m n' m' : ℕ}
  {identity identity' : Option DocumentIdentity} {record record' : DocumentRecord}

/-! ### Ids -/

/-- **The two parts of a chunk id** can be read back. -/
theorem chunkIdFor_inj {documentId documentId' text text' : String}
    (h : ':' ∉ documentId.toList) (h' : ':' ∉ documentId'.toList) :
    chunkIdFor env documentId text = chunkIdFor env documentId' text' ↔
      documentId = documentId' ∧ env.sha256.hex16 text = env.sha256.hex16 text' := by
  constructor
  · intro heq
    have hid : documentId = documentId' := by
      rw [← ownerOf_chunkIdFor h text, heq, ownerOf_chunkIdFor h' text']
    subst hid
    refine ⟨rfl, ?_⟩
    have hchars := congrArg String.toList heq
    simp only [chunkIdFor, String.toList_append, List.append_assoc, List.append_cancel_left_eq]
      at hchars
    exact String.toList_inj.mp hchars
  · rintro ⟨rfl, hhash⟩
    rw [chunkIdFor, chunkIdFor, hhash]

/-! ### The chunks of a record -/

/-- The parts of a record that its chunks depend on. -/
private theorem record_parts (h : buildDocumentRecord env contract n m identity = some record) :
    ∃ context, truthy contract.context = some context ∧
      record.chunks = (env.splitDocuments n m context).zipIdx.filterMap
        (chunkRecordFor env (documentIdFor env contract.title)
          (parseTitle env.unicode contract.title).cleanTitle) := by
  obtain ⟨context, hcontext, hid, -, hchunks⟩ := buildDocumentRecord_eq_some h
  refine ⟨context, hcontext, ?_⟩
  rw [hchunks, hid, buildDocumentRecord_documentTitle h]

/-- What a chunk of a record is made of: the title and one of the texts. -/
theorem chunk_parts (h : buildDocumentRecord env contract n m identity = some record)
    {chunk : ChunkRecord} (hchunk : chunk ∈ record.chunks) :
    chunk.rawChunkText ∈ chunkTexts env contract n m ∧
      chunk.chunkId =
        chunkIdFor env (documentIdFor env contract.title) chunk.rawChunkText ∧
      chunk.embeddingText =
        s!"{(parseTitle env.unicode contract.title).cleanTitle}\n\n{chunk.rawChunkText}" := by
  obtain ⟨context, hcontext, hchunks⟩ := record_parts h
  rw [hchunks] at hchunk
  obtain ⟨page, hpage, hsome⟩ := List.mem_filterMap.mp hchunk
  obtain ⟨hblank, rfl⟩ := chunkRecordFor_eq_some_iff.mp hsome
  refine ⟨?_, rfl, rfl⟩
  rw [chunkTexts, hcontext]
  simp only [Option.toList_some, List.flatMap_cons, List.flatMap_nil, List.append_nil,
    List.mem_filter, List.mem_map, decide_eq_true_eq]
  exact ⟨⟨page.1, List.fst_mem_of_mem_zipIdx hpage, rfl⟩, hblank⟩

/-- **Every text of a contract is the text of a chunk.** -/
theorem mem_chunkTexts_iff (h : buildDocumentRecord env contract n m identity = some record)
    {text : String} : text ∈ chunkTexts env contract n m ↔
      ∃ chunk ∈ record.chunks, chunk.rawChunkText = text := by
  constructor
  · intro htext
    obtain ⟨context, hcontext, hchunks⟩ := record_parts h
    rw [chunkTexts, hcontext] at htext
    simp only [Option.toList_some, List.flatMap_cons, List.flatMap_nil, List.append_nil,
      List.mem_filter, List.mem_map, decide_eq_true_eq] at htext
    obtain ⟨⟨page, hpage, rfl⟩, hblank⟩ := htext
    obtain ⟨i, hi, rfl⟩ := List.mem_iff_getElem.mp hpage
    have hzip : ((env.splitDocuments n m context)[i], i) ∈
        (env.splitDocuments n m context).zipIdx :=
      List.mk_mem_zipIdx_iff_getElem?.mpr (List.getElem?_eq_getElem hi)
    rw [hchunks]
    exact ⟨_, List.mem_filterMap.mpr
      ⟨_, hzip, chunkRecordFor_eq_some_iff.mpr ⟨hblank, rfl⟩⟩, rfl⟩
  · rintro ⟨chunk, hchunk, rfl⟩
    exact (chunk_parts h hchunk).1

/-- When the ids of two chunks are the same. -/
theorem chunkId_eq_iff (h : buildDocumentRecord env contract n m identity = some record)
    (h' : buildDocumentRecord env contract' n' m' identity' = some record')
    {chunk chunk' : ChunkRecord} (hchunk : chunk ∈ record.chunks)
    (hchunk' : chunk' ∈ record'.chunks) :
    chunk.chunkId = chunk'.chunkId ↔
      documentIdFor env contract.title = documentIdFor env contract'.title ∧
        env.sha256.hex16 chunk.rawChunkText = env.sha256.hex16 chunk'.rawChunkText := by
  rw [(chunk_parts h hchunk).2.1, (chunk_parts h' hchunk').2.1]
  exact chunkIdFor_inj (documentIdFor_noColon contract.title)
    (documentIdFor_noColon contract'.title)

/-! ### One id, one embedded text -/

private theorem embeddingText_inj {title other text : String} :
    s!"{title}\n\n{text}" = s!"{other}\n\n{text}" ↔ title = other := by
  constructor
  · intro h
    have hchars := congrArg String.toList h
    simp only [String.toList_append, List.append_cancel_right_eq] at hchars
    exact String.toList_inj.mp hchars
  · rintro rfl
    rfl

/-- **The same chunk id means the same embedded text** exactly if the two contracts have different
document ids, the same document title, or no text in common. -/
theorem same_id_same_embedding_iff
    (h : buildDocumentRecord env contract n m identity = some record)
    (h' : buildDocumentRecord env contract' n' m' identity' = some record')
    (hinj : Set.InjOn env.sha256.hex16
      {text | text ∈ chunkTexts env contract n m ++ chunkTexts env contract' n' m'}) :
    (∀ chunk ∈ record.chunks, ∀ chunk' ∈ record'.chunks,
        chunk.chunkId = chunk'.chunkId → chunk.embeddingText = chunk'.embeddingText) ↔
      documentIdFor env contract.title ≠ documentIdFor env contract'.title ∨
        (parseTitle env.unicode contract.title).cleanTitle =
          (parseTitle env.unicode contract'.title).cleanTitle ∨
        ∀ text ∈ chunkTexts env contract n m, text ∉ chunkTexts env contract' n' m' := by
  constructor
  · intro hsame
    by_contra hnot
    push Not at hnot
    obtain ⟨hid, htitle, text, htext, htext'⟩ := hnot
    obtain ⟨chunk, hchunk, rfl⟩ := (mem_chunkTexts_iff h).mp htext
    obtain ⟨chunk', hchunk', hraw⟩ := (mem_chunkTexts_iff h').mp htext'
    have hchunkId : chunk.chunkId = chunk'.chunkId :=
      (chunkId_eq_iff h h' hchunk hchunk').mpr ⟨hid, by rw [hraw]⟩
    have hembedding := hsame chunk hchunk chunk' hchunk' hchunkId
    rw [(chunk_parts h hchunk).2.2, (chunk_parts h' hchunk').2.2, hraw] at hembedding
    exact htitle (embeddingText_inj.mp hembedding)
  · intro hcases chunk hchunk chunk' hchunk' hchunkId
    obtain ⟨hid, hhash⟩ := (chunkId_eq_iff h h' hchunk hchunk').mp hchunkId
    obtain ⟨htext, -, hembedding⟩ := chunk_parts h hchunk
    obtain ⟨htext', -, hembedding'⟩ := chunk_parts h' hchunk'
    have hraw : chunk.rawChunkText = chunk'.rawChunkText :=
      hinj (List.mem_append_left _ htext) (List.mem_append_right _ htext') hhash
    rcases hcases with hother | htitle | hdisjoint
    · exact absurd hid hother
    · rw [hembedding, hembedding', htitle, hraw]
    · exact absurd (hraw ▸ htext') (hdisjoint _ htext)

/-- A contract that is chunked again. -/
theorem same_id_same_embedding_alpha :
    ∃ record, buildDocumentRecord sampleEnv ⟨"Alpha", some "one"⟩ 1000 200 none = some record ∧
      ∀ chunk ∈ record.chunks, ∀ chunk' ∈ record.chunks,
        chunk.chunkId = chunk'.chunkId → chunk.embeddingText = chunk'.embeddingText := by
  have hsome : (buildDocumentRecord sampleEnv ⟨"Alpha", some "one"⟩ 1000 200 none).isSome := rfl
  obtain ⟨record, h⟩ := Option.isSome_iff_exists.mp hsome
  have htexts : chunkTexts sampleEnv ⟨"Alpha", some "one"⟩ 1000 200 ++
      chunkTexts sampleEnv ⟨"Alpha", some "one"⟩ 1000 200 = ["one", "one"] := by
    decide +kernel
  have hinj : ∀ a ∈ ["one", "one"], ∀ b ∈ ["one", "one"],
      sampleEnv.sha256.hex16 a = sampleEnv.sha256.hex16 b → a = b := by
    decide +kernel
  refine ⟨record, h, (same_id_same_embedding_iff h h ?_).mpr (Or.inr (Or.inl rfl))⟩
  rw [htexts]
  exact fun a ha b hb hab => hinj a ha b hb hab

/-- A file whose name has an underscore. -/
def underscored : Contract := ⟨"Alpha_Supply Agreement", some "one"⟩

/-- The file under a new name. -/
def respaced : Contract := ⟨"Alpha Supply Agreement", some "one"⟩

/-- **An id may stand for two embedded texts**: the slug does not tell an underscore from a blank,
the document title does. -/
theorem respaced_keeps_ids :
    ¬∀ (env : IngestEnv) (contract contract' : Contract) (n m n' m' : ℕ)
      (identity identity' : Option DocumentIdentity) (record record' : DocumentRecord),
      buildDocumentRecord env contract n m identity = some record →
      buildDocumentRecord env contract' n' m' identity' = some record' →
      Set.InjOn env.sha256.hex16
        {text | text ∈ chunkTexts env contract n m ++ chunkTexts env contract' n' m'} →
      ∀ chunk ∈ record.chunks, ∀ chunk' ∈ record'.chunks,
        chunk.chunkId = chunk'.chunkId → chunk.embeddingText = chunk'.embeddingText := by
  intro h
  have hsome : (buildDocumentRecord sampleEnv underscored 1000 200 none).isSome := rfl
  have hsome' : (buildDocumentRecord sampleEnv respaced 1000 200 none).isSome := rfl
  obtain ⟨record, hrecord⟩ := Option.isSome_iff_exists.mp hsome
  obtain ⟨record', hrecord'⟩ := Option.isSome_iff_exists.mp hsome'
  have htexts : chunkTexts sampleEnv underscored 1000 200 = ["one"] := by decide +kernel
  have htexts' : chunkTexts sampleEnv respaced 1000 200 = ["one"] := by decide +kernel
  have hone : ∀ a ∈ chunkTexts sampleEnv underscored 1000 200 ++
      chunkTexts sampleEnv respaced 1000 200, a = "one" := by
    rw [htexts, htexts']
    decide
  obtain ⟨chunk, hchunk, hraw⟩ := (mem_chunkTexts_iff hrecord).mp
    (htexts ▸ List.mem_singleton_self "one")
  obtain ⟨chunk', hchunk', hraw'⟩ := (mem_chunkTexts_iff hrecord').mp
    (htexts' ▸ List.mem_singleton_self "one")
  have hslug : documentIdFor sampleEnv underscored.title =
      documentIdFor sampleEnv respaced.title := by decide +kernel
  have hids : chunk.chunkId = chunk'.chunkId :=
    (chunkId_eq_iff hrecord hrecord' hchunk hchunk').mpr ⟨hslug, by rw [hraw, hraw']⟩
  have hembedding := h sampleEnv underscored respaced 1000 200 1000 200 none none record record'
    hrecord hrecord' (fun a ha b hb _ => (hone a ha).trans (hone b hb).symm) chunk hchunk
    chunk' hchunk' hids
  rw [(chunk_parts hrecord hchunk).2.2, (chunk_parts hrecord' hchunk').2.2, hraw, hraw',
    embeddingText_inj] at hembedding
  have htitle : (parseTitle sampleEnv.unicode underscored.title).cleanTitle ≠
      (parseTitle sampleEnv.unicode respaced.title).cleanTitle := by decide +kernel
  exact htitle hembedding

end

/-! ### Collisions in a file -/

section

variable (env : IngestEnv) (identities : Option (Dict String DocumentIdentity))

/-- The record that `check_chunking` builds of a contract. -/
def scannedRecord (contract : JsonContract) : Option DocumentRecord :=
  recordOf env contract.toContract (identities.bind fun identities =>
    identities.get? (hashPreamble env (preambleOf (contract.context.get.getD ""))))

/-- The chunks of a file, one contract after the other. -/
def corpusChunks (data : List JsonContract) : List ChunkRecord :=
  data.flatMap fun contract =>
    (scannedRecord env identities contract).toList.flatMap (·.chunks)

variable {env} {identities} {data : List JsonContract}

private theorem totalChunks_foldl_claim (documentId : String) (chunks : List ChunkRecord)
    (scan : ChunkScan) :
    (chunks.foldl (ChunkScan.claim documentId) scan).report.totalChunks =
      scan.report.totalChunks := by
  induction chunks generalizing scan with
  | nil => rfl
  | cons chunk chunks ih =>
    have hclaim : (scan.claim documentId chunk).report.totalChunks = scan.report.totalChunks := by
      rw [ChunkScan.claim]
      dsimp only
      split
      · split_ifs
        · rfl
        · rfl
      · rfl
    rw [List.foldl_cons, ih, hclaim]

private theorem totalChunks_scanChunks (scan : ChunkScan) (contract : JsonContract) :
    (scanChunks env identities scan contract).report.totalChunks = scan.report.totalChunks +
      ((scannedRecord env identities contract).toList.flatMap (·.chunks)).length := by
  rw [scanChunks]
  dsimp only
  split
  · rename_i hnone
    have hrecord : scannedRecord env identities contract = none := hnone
    rw [hrecord]
    rfl
  · rename_i record hsome
    have hrecord : scannedRecord env identities contract = some record := hsome
    rw [hrecord]
    split_ifs with hchunks
    · simp [hchunks]
    · rw [totalChunks_foldl_claim]
      simp

/-- **`check_chunking` counts the chunks of the file.** -/
theorem totalChunks_eq : (checkChunking env identities data).totalChunks =
    (corpusChunks env identities data).length := by
  have hscan : ∀ (data : List JsonContract) (scan : ChunkScan),
      (data.foldl (scanChunks env identities) scan).report.totalChunks =
        scan.report.totalChunks + (corpusChunks env identities data).length := by
    intro data
    induction data with
    | nil => exact fun scan => rfl
    | cons contract data ih =>
      intro scan
      rw [List.foldl_cons, ih, totalChunks_scanChunks, corpusChunks, corpusChunks,
        List.flatMap_cons, List.length_append, Nat.add_assoc]
  rw [checkChunking, hscan]
  simp

private theorem mem_corpusChunks_iff {chunk : ChunkRecord} :
    chunk ∈ corpusChunks env identities data ↔
      ∃ contract ∈ data, ∃ record, scannedRecord env identities contract = some record ∧
        chunk ∈ record.chunks := by
  simp [corpusChunks, List.mem_flatMap, Option.mem_toList]

/-- Of a text there is a chunk only if there is a record. -/
private theorem exists_scannedRecord (identities : Option (Dict String DocumentIdentity))
    {contract : JsonContract} {text : String}
    (h : text ∈ chunkTexts env contract.toContract chunkSize chunkOverlap) :
    ∃ record, scannedRecord env identities contract = some record := by
  rw [chunkTexts] at h
  obtain ⟨context, hcontext, -⟩ := List.mem_flatMap.mp h
  rw [scannedRecord, recordOf, buildDocumentRecord, Option.mem_toList.mp hcontext]
  exact ⟨_, rfl⟩

/-- Two chunks of a file collide exactly if their documents have one id and the hashes of their
texts one prefix. -/
private theorem exists_collision_iff :
    (∃ chunk ∈ corpusChunks env identities data, ∃ chunk' ∈ corpusChunks env identities data,
        chunk.rawChunkText ≠ chunk'.rawChunkText ∧ chunk.chunkId = chunk'.chunkId) ↔
      ∃ contract ∈ data, ∃ contract' ∈ data,
        documentIdFor env contract.title = documentIdFor env contract'.title ∧
        ∃ text ∈ chunkTexts env contract.toContract chunkSize chunkOverlap,
        ∃ text' ∈ chunkTexts env contract'.toContract chunkSize chunkOverlap,
          text ≠ text' ∧ env.sha256.hex16 text = env.sha256.hex16 text' := by
  constructor
  · rintro ⟨chunk, hchunk, chunk', hchunk', hraw, hids⟩
    obtain ⟨contract, hcontract, record, hrecord, hmem⟩ := mem_corpusChunks_iff.mp hchunk
    obtain ⟨contract', hcontract', record', hrecord', hmem'⟩ := mem_corpusChunks_iff.mp hchunk'
    obtain ⟨hid, hhash⟩ := (chunkId_eq_iff hrecord hrecord' hmem hmem').mp hids
    exact ⟨contract, hcontract, contract', hcontract', hid, _, (chunk_parts hrecord hmem).1, _,
      (chunk_parts hrecord' hmem').1, hraw, hhash⟩
  · rintro ⟨contract, hcontract, contract', hcontract', hid, text, htext, text', htext', hne, hhash⟩
    obtain ⟨record, hrecord⟩ := exists_scannedRecord identities htext
    obtain ⟨record', hrecord'⟩ := exists_scannedRecord identities htext'
    obtain ⟨chunk, hmem, rfl⟩ := (mem_chunkTexts_iff hrecord).mp htext
    obtain ⟨chunk', hmem', rfl⟩ := (mem_chunkTexts_iff hrecord').mp htext'
    exact ⟨chunk, mem_corpusChunks_iff.mpr ⟨contract, hcontract, record, hrecord, hmem⟩, chunk',
      mem_corpusChunks_iff.mpr ⟨contract', hcontract', record', hrecord', hmem'⟩, hne,
      (chunkId_eq_iff hrecord hrecord' hmem hmem').mpr ⟨hid, hhash⟩⟩

/-- **A collision of chunk ids is reported** only where there is none: exactly if no two texts under
one document id have hashes with the same prefix. -/
theorem collision_reported_iff :
    ((∃ chunk ∈ corpusChunks env identities data, ∃ chunk' ∈ corpusChunks env identities data,
          chunk.rawChunkText ≠ chunk'.rawChunkText ∧ chunk.chunkId = chunk'.chunkId) →
        (checkChunking env identities data).chunkIdCollisions ≠ [] ∧
          printReport (checkTitles env data) (checkChunking env identities data) = false) ↔
      ∀ contract ∈ data, ∀ contract' ∈ data,
        documentIdFor env contract.title = documentIdFor env contract'.title →
        ∀ text ∈ chunkTexts env contract.toContract chunkSize chunkOverlap,
        ∀ text' ∈ chunkTexts env contract'.toContract chunkSize chunkOverlap,
          env.sha256.hex16 text = env.sha256.hex16 text' → text = text' := by
  rw [exists_collision_iff]
  constructor
  · intro hreported contract hcontract contract' hcontract' hid text htext text' htext' hhash
    by_contra hne
    -- the scan compares owners, and both chunks name the same one
    exact (hreported ⟨contract, hcontract, contract', hcontract', hid, text, htext, text', htext',
      hne, hhash⟩).1 checkChunking_eq_nil
  · rintro hinj
      ⟨contract, hcontract, contract', hcontract', hid, text, htext, text', htext', hne, hhash⟩
    exact absurd (hinj contract hcontract contract' hcontract' hid text htext text' htext' hhash)
      hne

end

/-- A hash under which all texts collide. -/
def constantSha256 : Sha256 where
  hex _ := "0123456789abcdef"
  hex_isHexDigit {s c} h := by
    have hall : "0123456789abcdef".toList.all isHexDigit = true := by decide +kernel
    exact List.all_eq_true.mp hall c h

/-- Contracts of two pages, whose texts collide. -/
def collidingEnv : IngestEnv :=
  { sampleEnv with
    sha256 := constantSha256
    splitDocuments := fun _ _ _ => ["one", "two"] }

/-- **Two pages of one contract may share an id**, and the file is declared ready. -/
theorem collision_within_document :
    ¬∀ (env : IngestEnv) (identities : Option (Dict String DocumentIdentity))
      (data : List JsonContract),
      (∃ chunk ∈ corpusChunks env identities data, ∃ chunk' ∈ corpusChunks env identities data,
        chunk.rawChunkText ≠ chunk'.rawChunkText ∧ chunk.chunkId = chunk'.chunkId) →
      (checkChunking env identities data).chunkIdCollisions ≠ [] ∧
        printReport (checkTitles env data) (checkChunking env identities data) = false := by
  intro h
  have hcollision : ∃ chunk ∈ corpusChunks collidingEnv none [⟨"Alpha", .text "one two"⟩],
      ∃ chunk' ∈ corpusChunks collidingEnv none [⟨"Alpha", .text "one two"⟩],
        chunk.rawChunkText ≠ chunk'.rawChunkText ∧ chunk.chunkId = chunk'.chunkId := by
    decide +kernel
  exact (h collidingEnv none [⟨"Alpha", .text "one two"⟩] hcollision).1 checkChunking_eq_nil

end AuditFlow
