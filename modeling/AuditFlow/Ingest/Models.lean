import Mathlib.Data.Nat.Notation
import Mathlib.Tactic.Common

/-!
# Ingestion records

The dataclasses of `ingest/models.py`: what the chunker produces and what the three stores keep.
-/

namespace AuditFlow

/-- Metadata that a language model extracted from a contract; never part of its title. -/
structure DocumentIdentity where
  documentHash : String
  companyName : String
  counterpartyName : String
  contractType : String
  confidence : String
  source : String
  selfDeclaredHint : String := ""
  deriving DecidableEq, Repr

structure ChunkRecord where
  /-- Content addressed: the document id, `::`, and 16 hex digits of the text's hash. -/
  chunkId : String
  documentId : String
  /-- Position within the document, not part of the id. -/
  chunkIndex : ℕ
  rawChunkText : String
  embeddingText : String
  contentHash : String
  isPreamble : Bool := false
  deriving DecidableEq, Repr

structure DocumentRecord where
  documentId : String
  rawTitle : String
  documentTitle : String
  /-- Hash of the whole context, used to detect no-op updates. -/
  contentHash : String
  companyName : String := ""
  counterpartyName : String := ""
  contractType : String := ""
  identitySource : String := ""
  identityConfidence : String := ""
  selfDeclaredHint : String := ""
  chunks : List ChunkRecord := []
  deriving DecidableEq, Repr

structure IngestResult where
  documentId : String
  addedChunks : ℕ
  deletedChunks : ℕ
  unchangedChunks : ℕ
  wasNoop : Bool := false
  deriving DecidableEq, Repr

end AuditFlow
