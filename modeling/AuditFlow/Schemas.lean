import AuditFlow.Foundation.Str
import Mathlib.Algebra.Order.Ring.Rat
import Mathlib.Algebra.Order.Monoid.Unbundled.WithTop

/-!
# Shared schemas

The records that the stages of the pipeline exchange (`schemas/*.py`), field by field and with
their defaults, and the exceptions they raise. Reranker scores and the figures derived from them
are exact rationals.

An exception is its class, its message and, for the application's own classes, the `detail`
dictionary; `cause` is the class of the exception it was raised `from`.
-/

namespace AuditFlow

open Foundation

/-! ### Exceptions -/

/-- Exception classes: the `AuditFlowError` hierarchy first, then the built-in and third-party
classes that the modelled code raises or catches by name. -/
inductive ErrorClass
  | retrievalError
  | generationError
  | verificationError
  | ingestionError
  | authenticationError
  | authorizationError
  | attributeError
  | indexError
  | keyError
  | valueError
  | runtimeError
  | recursionError
  | typeError
  | jsonDecodeError
  | validationError
  | timeoutError
  /-- `redis.exceptions.ConnectionError`, or a class derived from it. -/
  | redisConnectionError (name : String)
  /-- Any other class, raised by a client library or by the infrastructure behind it. -/
  | external (name : String)
  deriving DecidableEq, Repr

/-- A raised exception. -/
structure PyError where
  cls : ErrorClass
  message : String
  detail : List (String × String) := []
  cause : Option ErrorClass := none
  deriving DecidableEq, Repr

/-- The subclasses of `AuditFlowError`. -/
def ErrorClass.isAuditFlowError : ErrorClass → Bool
  | .retrievalError | .generationError | .verificationError | .ingestionError
  | .authenticationError | .authorizationError => true
  | _ => false

/-- An exception of another class than the application's own. -/
def PyError.Unlabelled (e : PyError) : Prop := e.cls.isAuditFlowError = false

/-! ### Generation and verification -/

/-- One atomic claim of a generated answer; `sourceChunkId` is `none` when the model could not
tie it to a chunk. -/
structure Claim where
  text : Str
  sourceChunkId : Option Str := none
  deriving DecidableEq, Repr

structure GenerationResult where
  claims : List Claim := []
  rawAnswer : Option Str := none
  deriving DecidableEq, Repr

inductive Verdict
  | supported
  | partially
  | unsupported
  | noAnswer
  deriving DecidableEq, Repr

/-- The value of the enumeration member, as JSON carries it. -/
def Verdict.value : Verdict → String
  | .supported => "SUPPORTED"
  | .partially => "PARTIAL"
  | .unsupported => "UNSUPPORTED"
  | .noAnswer => "NO_ANSWER"

structure VerifiedClaim where
  text : Str
  sourceChunkId : Option Str := none
  verdict : Verdict
  reason : Str
  deriving DecidableEq, Repr

/-- What the judge's reply is parsed into. Its verdict is the full enumeration. -/
structure JudgeVerdict where
  verdict : Verdict
  reason : Str
  deriving DecidableEq, Repr

/-! ### Ingestion -/

/-- How sure the model is of an extracted identity. -/
inductive Confidence
  | high
  | low
  deriving DecidableEq, Repr

/-- The literal that stands for it, in JSON and in the records. -/
def Confidence.value : Confidence → String
  | .high => "high"
  | .low => "low"

/-- What the reply of an identity extraction is parsed into. -/
structure ExtractedIdentity where
  companyName : Str := ""
  counterpartyName : Str := ""
  contractType : Str := ""
  confidence : Confidence := .low
  deriving DecidableEq, Repr

/-! ### Retrieval -/

/-- A retrieved chunk with its rerank score. -/
structure ChunkMatch where
  chunkId : String
  documentId : String
  rawChunkText : String
  score : ℚ
  deriving DecidableEq, Repr

structure ConsistencyReport where
  topContract : Option String := none
  concentration : ℚ
  avgTopScore : ℚ := 0
  bestScore : Option ℚ := none
  /-- `⊤` when there is no second document. -/
  margin : WithTop ℚ := 0
  isConfident : Bool
  contractBreakdown : Dict String ℕ := .empty

structure RetrievalContext where
  chunks : List ChunkMatch := []
  consistency : ConsistencyReport

/-! ### Sessions -/

inductive AskStatus
  | answered
  | needClarification
  | lowRelevance
  deriving DecidableEq, Repr

structure AskResponse where
  status : AskStatus
  claims : List VerifiedClaim := []
  topContract : Option String := none
  candidateContracts : List String := []
  deriving DecidableEq, Repr

namespace AskResponse

def answered (claims : List VerifiedClaim) (topContract : String) : AskResponse :=
  { status := .answered, claims, topContract := some topContract }

def lowRelevance (topContract : Option String) : AskResponse :=
  { status := .lowRelevance, topContract }

def needClarification (candidates : List String) : AskResponse :=
  { status := .needClarification, candidateContracts := candidates }

end AskResponse

/-- The conversation memory of one user. -/
structure SessionState where
  activeContract : Option String := none
  pendingQuestion : Option String := none
  pendingCandidates : List String := []
  deriving DecidableEq, Repr

/-- Truthiness of an optional string: `None` and `""` are false. -/
def truthy : Option String → Option String
  | some s => if s = "" then none else some s
  | none => none

theorem truthy_eq_some_iff {o : Option String} {s : String} :
    truthy o = some s ↔ o = some s ∧ s ≠ "" := by
  cases o with
  | none => simp [truthy]
  | some t =>
    by_cases ht : t = ""
    · subst ht
      simp only [truthy, if_pos, reduceCtorEq, Option.some.injEq, false_iff, not_and, not_not]
      exact Eq.symm
    · simp only [truthy, if_neg ht, Option.some.injEq]
      exact ⟨fun h => ⟨h, h ▸ ht⟩, And.left⟩

end AuditFlow
