import AuditFlow.Ingest.Models
import AuditFlow.Ingest.TitleParser
import AuditFlow.Schemas
import Mathlib.Data.Finset.Image

/-!
# Chunking

`ingest/chunker.py`: the record of a contract, with its chunks. A chunk's id is **content
addressed**: the id of the document, two colons and a prefix of the hash of the chunk's text.

`IngestEnv` collects what the ingestion takes from outside the repository: the splitter, SHA-256,
`repr`, the order in which a set is turned into a list, and the directory of the index. `ownerOf`
reads the document id back from a chunk id; document ids contain no colon
(`documentIdFor_noColon`), so chunks of different documents never share an id.
-/

namespace AuditFlow

open Foundation

/-- `c in "0123456789abcdef"`. -/
def isHexDigit (c : Char) : Bool := c.isDigit || (decide ('a' ≤ c) && decide (c ≤ 'f'))

/-- SHA-256 of the UTF-8 encoding, in hexadecimal. -/
structure Sha256 where
  hex : String → String
  hex_isHexDigit : ∀ {s : String} {c : Char}, c ∈ (hex s).toList → isHexDigit c = true

/-- `hexdigest()[:16]`. -/
def Sha256.hex16 (sha : Sha256) (s : String) : String := String.ofList ((sha.hex s).toList.take 16)

/-- The order in which `list(s)` lists a set. -/
structure SetOrder where
  list : List String → List String
  perm : ∀ s, (list s).Perm s

/-- What the ingestion takes from outside the repository. -/
structure IngestEnv where
  unicode : Text.Unicode
  /-- `repr` of an optional string. -/
  repr : Option String → String
  sha256 : Sha256
  setOrder : SetOrder
  /-- `RecursiveCharacterTextSplitter` with `REGEX_SEPARATORS`: the pages of a text, for a chunk
  size and an overlap. -/
  splitDocuments : ℕ → ℕ → String → List String
  indexDir : String

/-- A contract as it is read from JSON. -/
structure Contract where
  title : String
  context : Option String := none
  deriving DecidableEq, Repr

section

variable (env : IngestEnv)

/-- `slugify`: lower-case letters and digits, and single dashes between them. -/
def slugify (text : String) : String :=
  let dashed := Text.replaceRuns (fun c => !c.isAlphanum) ['-'] text.toList
  String.ofList (((Text.stripBy (· == '-') dashed).map Char.toLower).take 60)

/-- `document_id_for`. -/
def documentIdFor (rawTitle : String) : String :=
  let slug := slugify rawTitle
  if slug = "" then env.sha256.hex16 rawTitle else slug

/-- `content_hash`. -/
def contentHash (text : String) : String := env.sha256.hex text

/-- The id of a chunk. -/
def chunkIdFor (documentId text : String) : String := documentId ++ "::" ++ env.sha256.hex16 text

/-- The chunk of one page of the splitter, unless it is blank. -/
def chunkRecordFor (documentId documentTitle : String) (page : String × ℕ) : Option ChunkRecord :=
  let cleanText := String.ofList (squeezeSpaces page.1.toList)
  if cleanText = "" then none
  else some {
    chunkId := chunkIdFor env documentId cleanText
    documentId
    chunkIndex := page.2
    rawChunkText := cleanText
    embeddingText := s!"{documentTitle}\n\n{cleanText}"
    contentHash := contentHash env cleanText
    isPreamble := page.2 == 0 }

/-- `build_document_record`; `none` if there is no context to chunk. -/
def buildDocumentRecord (contract : Contract) (chunkSize chunkOverlap : ℕ)
    (identity : Option DocumentIdentity) : Option DocumentRecord :=
  (truthy contract.context).map fun context =>
    let parsed := parseTitle env.unicode contract.title
    let documentId := documentIdFor env contract.title
    let extracted := identity.filter fun i => i.source ≠ "failed"
    { documentId
      rawTitle := contract.title
      documentTitle := parsed.cleanTitle
      contentHash := contentHash env context
      companyName := (extracted.map (·.companyName)).getD ""
      counterpartyName := (extracted.map (·.counterpartyName)).getD ""
      contractType := (extracted.map (·.contractType)).getD parsed.contractType
      identitySource := (identity.map (·.source)).getD "regex_fallback"
      identityConfidence := (identity.map (·.confidence)).getD parsed.parseConfidence
      selfDeclaredHint := (identity.map (·.selfDeclaredHint)).getD ""
      chunks := (env.splitDocuments chunkSize chunkOverlap context).zipIdx.filterMap
        (chunkRecordFor env documentId parsed.cleanTitle) }

/-- The document that a chunk id names: what stands before the first colon. -/
def ownerOf (chunkId : String) : String := String.ofList (chunkId.toList.takeWhile (· ≠ ':'))

variable {env}

/-! ### Document ids and chunk ids -/

/-- What a document id consists of: dashes, digits and small letters. -/
def IsIdChar (c : Char) : Prop :=
  c = '-' ∨ (48 ≤ c.toNat ∧ c.toNat ≤ 57) ∨ (97 ≤ c.toNat ∧ c.toNat ≤ 122)

private theorem isIdChar_of_isHexDigit {c : Char} (h : isHexDigit c = true) : IsIdChar c := by
  simp only [isHexDigit, Char.isDigit, Bool.or_eq_true, Bool.and_eq_true, decide_eq_true_eq,
    Char.le_def, ge_iff_le, UInt32.le_iff_toNat_le] at h
  rcases h with hdigit | hletter
  · exact Or.inr (Or.inl hdigit)
  · have hfrom : 97 ≤ c.toNat := hletter.1
    have hto : c.toNat ≤ 102 := hletter.2
    exact Or.inr (Or.inr ⟨hfrom, by omega⟩)

private theorem isIdChar_toLower {c : Char} (h : c.isAlphanum = true) : IsIdChar c.toLower := by
  delta Char.isAlphanum Char.isAlpha Char.isUpper Char.isLower Char.isDigit at h
  simp only [Bool.or_eq_true, Bool.and_eq_true, decide_eq_true_eq, ge_iff_le,
    UInt32.le_iff_toNat_le] at h
  delta Char.toLower
  split_ifs with hupper
  · -- a capital comes 32 places before its small letter
    simp only [ge_iff_le, UInt32.le_iff_toNat_le] at hupper
    refine Or.inr (Or.inr ?_)
    simp only [Char.toNat, UInt32.toNat_add]
    simp at hupper ⊢
    omega
  · simp only [ge_iff_le, UInt32.le_iff_toNat_le] at hupper
    have hval : c.val.toNat = c.toNat := rfl
    refine Or.inr ?_
    simp at h hupper
    omega

/-- A small letter, a digit or a dash is its own small letter. -/
theorem IsIdChar.toLower_eq {c : Char} (h : IsIdChar c) : c.toLower = c := by
  delta Char.toLower
  split_ifs with hupper
  · simp only [ge_iff_le, UInt32.le_iff_toNat_le] at hupper
    rcases h with rfl | hrest
    · simp at hupper
    · have hval : c.val.toNat = c.toNat := rfl
      simp at hupper
      omega
  · rfl

theorem IsIdChar.toNat_lt {c : Char} (h : IsIdChar c) : c.toNat < 128 := by
  rcases h with rfl | hrest
  · decide
  · omega

theorem IsIdChar.not_isSpace {c : Char} (h : IsIdChar c) : Text.isSpace c = false := by
  rcases h with rfl | hrest
  · decide
  · rw [Bool.eq_false_iff]
    intro hspace
    simp only [Text.isSpace, Bool.or_eq_true, Bool.and_eq_true, decide_eq_true_eq,
      beq_iff_eq] at hspace
    omega

theorem IsIdChar.ne_questionMark {c : Char} (h : IsIdChar c) : c ≠ '?' := by
  rintro rfl
  revert h
  rw [IsIdChar]
  decide

/-- **What a document id consists of.** -/
theorem isIdChar_of_mem_documentIdFor {rawTitle : String} {c : Char}
    (h : c ∈ (documentIdFor env rawTitle).toList) : IsIdChar c := by
  simp only [documentIdFor] at h
  split_ifs at h with hslug
  · rw [Sha256.hex16, String.toList_ofList] at h
    exact isIdChar_of_isHexDigit (env.sha256.hex_isHexDigit (List.mem_of_mem_take h))
  · rw [slugify, String.toList_ofList] at h
    obtain ⟨c', hc', rfl⟩ := List.mem_map.mp (List.mem_of_mem_take h)
    rcases Text.mem_replaceRuns (Text.mem_of_mem_stripBy hc') with ⟨halnum, -⟩ | hdash
    · exact isIdChar_toLower (by simpa using halnum)
    · rw [List.mem_singleton.mp hdash]
      exact Or.inl rfl

/-- Document ids contain no colon. -/
theorem documentIdFor_noColon (rawTitle : String) : ':' ∉ (documentIdFor env rawTitle).toList := by
  intro hmem
  have hcolon : IsIdChar ':' := isIdChar_of_mem_documentIdFor hmem
  revert hcolon
  rw [IsIdChar]
  decide

theorem ownerOf_chunkIdFor {documentId : String} (h : ':' ∉ documentId.toList) (text : String) :
    ownerOf (chunkIdFor env documentId text) = documentId := by
  have hbefore : ∀ c ∈ documentId.toList, decide (c ≠ ':') = true := by
    intro c hc
    refine decide_eq_true ?_
    rintro rfl
    exact h hc
  have hcolon : List.takeWhile (fun c => decide (c ≠ ':'))
      ("::".toList ++ (env.sha256.hex16 text).toList) = [] := rfl
  rw [ownerOf, chunkIdFor, String.append_assoc, String.toList_append,
    List.takeWhile_append_of_pos hbefore, String.toList_append, hcolon, List.append_nil,
    String.ofList_toList]

/-! ### Records -/

/-- The ids of the chunks of a record, in the order of the text; repeated text repeats its id. -/
def DocumentRecord.chunkIds (record : DocumentRecord) : List String :=
  record.chunks.map (·.chunkId)

variable {contract contract' : Contract} {n m : ℕ} {identity identity' : Option DocumentIdentity}
  {record record' : DocumentRecord}

/-- Where the parts of a record come from. -/
theorem buildDocumentRecord_eq_some
    (h : buildDocumentRecord env contract n m identity = some record) :
    ∃ context, truthy contract.context = some context ∧
      record.documentId = documentIdFor env contract.title ∧
      record.contentHash = contentHash env context ∧
      record.chunks = (env.splitDocuments n m context).zipIdx.filterMap
        (chunkRecordFor env record.documentId record.documentTitle) := by
  obtain ⟨context, hcontext, hrecord⟩ := Option.map_eq_some_iff.mp h
  refine ⟨context, hcontext, ?_, ?_, ?_⟩
  · rw [← hrecord]
  · rw [← hrecord]
  · rw [← hrecord]

theorem buildDocumentRecord_rawTitle
    (h : buildDocumentRecord env contract n m identity = some record) :
    record.rawTitle = contract.title := by
  obtain ⟨context, -, rfl⟩ := Option.map_eq_some_iff.mp h
  rfl

theorem buildDocumentRecord_documentTitle
    (h : buildDocumentRecord env contract n m identity = some record) :
    record.documentTitle = (parseTitle env.unicode contract.title).cleanTitle := by
  obtain ⟨context, -, hrecord⟩ := Option.map_eq_some_iff.mp h
  rw [← hrecord]

/-- **The chunk of a page**, which is not blank. -/
theorem chunkRecordFor_eq_some_iff {documentId documentTitle : String} {page : String × ℕ}
    {chunk : ChunkRecord} : chunkRecordFor env documentId documentTitle page = some chunk ↔
      String.ofList (squeezeSpaces page.1.toList) ≠ "" ∧ chunk =
        { chunkId := chunkIdFor env documentId (String.ofList (squeezeSpaces page.1.toList))
          documentId
          chunkIndex := page.2
          rawChunkText := String.ofList (squeezeSpaces page.1.toList)
          embeddingText :=
            s!"{documentTitle}\n\n{String.ofList (squeezeSpaces page.1.toList)}"
          contentHash := contentHash env (String.ofList (squeezeSpaces page.1.toList))
          isPreamble := page.2 == 0 } := by
  simp only [chunkRecordFor]
  split_ifs with hblank
  · simp [hblank]
  · simp [hblank, eq_comm]

/-- The chunks of a record belong to it, and so do their ids. -/
theorem chunk_owned (h : buildDocumentRecord env contract n m identity = some record)
    {chunk : ChunkRecord} (hchunk : chunk ∈ record.chunks) :
    chunk.documentId = record.documentId ∧ ownerOf chunk.chunkId = record.documentId := by
  obtain ⟨context, -, hid, -, hchunks⟩ := buildDocumentRecord_eq_some h
  rw [hchunks] at hchunk
  obtain ⟨page, -, hpage⟩ := List.mem_filterMap.mp hchunk
  obtain ⟨-, hparts⟩ := chunkRecordFor_eq_some_iff.mp hpage
  have howner : ':' ∉ record.documentId.toList := hid ▸ documentIdFor_noColon contract.title
  rw [hparts]
  exact ⟨rfl, ownerOf_chunkIdFor howner _⟩

theorem ownerOf_of_mem_chunkIds (h : buildDocumentRecord env contract n m identity = some record)
    {chunkId : String} (hmem : chunkId ∈ record.chunkIds) :
    ownerOf chunkId = record.documentId := by
  obtain ⟨chunk, hchunk, rfl⟩ := List.mem_map.mp hmem
  exact (chunk_owned h hchunk).2

private theorem chunkId_chunkRecordFor (documentId title title' : String) (page : String × ℕ) :
    (chunkRecordFor env documentId title page).map (·.chunkId) =
      (chunkRecordFor env documentId title' page).map (·.chunkId) := by
  simp only [chunkRecordFor]
  split_ifs
  · rfl
  · rfl

/-- **Chunk ids depend on the document id and the text only**: neither the rest of the title nor
the identity changes them. -/
theorem chunkIds_eq_of_context (h : buildDocumentRecord env contract n m identity = some record)
    (h' : buildDocumentRecord env contract' n m identity' = some record')
    (hid : record.documentId = record'.documentId)
    (hcontext : truthy contract.context = truthy contract'.context) :
    record.chunkIds = record'.chunkIds := by
  obtain ⟨context, hc, -, -, hchunks⟩ := buildDocumentRecord_eq_some h
  obtain ⟨context', hc', -, -, hchunks'⟩ := buildDocumentRecord_eq_some h'
  obtain rfl := Option.some.inj (hc.symm.trans (hcontext.trans hc'))
  simp only [DocumentRecord.chunkIds, hchunks, hchunks', List.map_filterMap, hid,
    chunkId_chunkRecordFor record'.documentId record.documentTitle record'.documentTitle]

end

end AuditFlow
