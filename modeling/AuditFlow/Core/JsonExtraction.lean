import AuditFlow.Foundation.Json
import AuditFlow.Foundation.Text
import AuditFlow.Schemas

/-!
# JSON extraction from model replies

`core/json_extraction.py`: strip the fences and the prose around a reply, decode it, and validate
the result against a schema. A reply's content may be null, which only shows when `.strip()` is
called on it.

`Runtime` collects what the interpreter and pydantic contribute: the Unicode database, the
recursion limit, and the texts of `repr` and of a validation error (they only ever end up in
messages and reason strings).
-/

namespace AuditFlow

open Foundation

/-- The interpreter and library behaviour that the modelled code can observe. -/
structure Runtime where
  unicode : Text.Unicode
  /-- How deep `json.loads` may nest. -/
  recursionLimit : ℕ
  /-- `repr(s)`. -/
  repr : String → String
  /-- `str(ValidationError)` for a schema name and an input. -/
  validationMessage : String → Json → String

/-- An interpreter for concrete runs. -/
def Runtime.example : Runtime where
  unicode := Text.Unicode.ascii
  recursionLimit := 1000
  repr s := s!"'{s}'"
  validationMessage name _ := s!"1 validation error for {name}"

/-- `str(JSONDecodeError)` for an error found with `rest` characters of `doc` left. -/
def jsonDecodeMessage (msg : String) (doc : List Char) (rest : ℕ) : String :=
  let pos := doc.length - rest
  let before := doc.take pos
  let line := before.count '\n' + 1
  let column := (before.reverse.takeWhile (· != '\n')).length + 1
  s!"{msg}: line {line} column {column} (char {pos})"

/-- `json.loads`, with its failures as exceptions. -/
def jsonLoads (rt : Runtime) (text : List Char) : Except PyError Json :=
  match Json.loads rt.recursionLimit text with
  | .ok v => .ok v
  | .error (.decode msg rest) =>
    .error { cls := .jsonDecodeError, message := jsonDecodeMessage msg text rest }
  | .error .recursion =>
    .error { cls := .recursionError, message := "maximum recursion depth exceeded" }
  | .error .intDigits =>
    .error { cls := .valueError,
             message := "Exceeds the limit (4300 digits) for integer string conversion" }

/-- Drop a fence of back-ticks with an optional `json` tag. -/
def stripFence (rt : Runtime) (text : List Char) : List Char :=
  if "```".toList.isPrefixOf text then
    let text := Text.stripBy (· == '`') text
    if "json".toList.isPrefixOf (rt.unicode.lower text) then Text.strip (text.drop 4) else text
  else text

/-- Cut from the first `{` to the last `}` when both occur. -/
def cutBraces (text : List Char) : List Char :=
  match Text.find '{' text, Text.rfind '}' text with
  | some start, some stop => Text.slice start (stop + 1) text
  | _, _ => text

/-- `extract_json`. -/
def extractJson (rt : Runtime) (rawText : Option String) : Except PyError Json :=
  match rawText with
  | none => .error { cls := .attributeError,
                     message := "'NoneType' object has no attribute 'strip'" }
  | some raw => jsonLoads rt (cutBraces (stripFence rt (Text.strip raw.toList)))

/-- A pydantic model: its name and what `model_validate` makes of a decoded value. -/
structure Schema (α : Type) where
  name : String
  validate : Json → Option α

/-- `parse_llm_json`. -/
def parseLlmJson {α : Type} (rt : Runtime) (rawText : Option String) (schema : Schema α) :
    Except PyError α := do
  let parsed ← extractJson rt rawText
  match schema.validate parsed with
  | some a => return a
  | none => .error { cls := .validationError,
                     message := rt.validationMessage schema.name parsed }

/-- The exceptions a retry loop swallows after a reply arrived:
`except (json.JSONDecodeError, ValidationError)`. -/
def PyError.isParseFailure (e : PyError) : Bool :=
  e.cls == .jsonDecodeError || e.cls == .validationError

/-! ### The reply schemas -/

/-- A required `str` field. -/
def Schema.strField (members : List (Str × Json)) (k : String) : Option Str :=
  match Json.member members k with
  | some (.str s) => some s
  | _ => none

/-- A `str | None` field that defaults to `None`. -/
def Schema.optStrField (members : List (Str × Json)) (k : String) : Option (Option Str) :=
  match Json.member members k with
  | none | some .null => some none
  | some (.str s) => some (some s)
  | _ => none

/-- A `str` field with a default. -/
def Schema.defaultStrField (members : List (Str × Json)) (k default : String) : Option Str :=
  match Json.member members k with
  | none => some default
  | some (.str s) => some s
  | _ => none

/-- `Verdict(value)`. -/
def Verdict.ofValue? (s : Str) : Option Verdict :=
  [Verdict.supported, .partially, .unsupported, .noAnswer].find? fun v =>
    decide ((v.value : Str) = s)

def JudgeVerdict.schema : Schema JudgeVerdict where
  name := "JudgeVerdict"
  validate
    | .obj ms => do
      let verdict ← (Schema.strField ms "verdict").bind Verdict.ofValue?
      let reason ← Schema.strField ms "reason"
      return { verdict, reason }
    | _ => none

def Claim.validate : Json → Option Claim
  | .obj ms => do
    let text ← Schema.strField ms "text"
    let sourceChunkId ← Schema.optStrField ms "source_chunk_id"
    return { text, sourceChunkId }
  | _ => none

def GenerationResult.schema : Schema GenerationResult where
  name := "GenerationResult"
  validate
    | .obj ms => do
      let claims ← match Json.member ms "claims" with
        | none => some []
        | some (.arr es) => es.mapM Claim.validate
        | some _ => none
      let rawAnswer ← Schema.optStrField ms "raw_answer"
      return { claims, rawAnswer }
    | _ => none

/-- A `Literal["high", "low"]`. -/
def Confidence.ofValue? (s : Str) : Option Confidence :=
  [Confidence.high, .low].find? fun c => decide ((c.value : Str) = s)

def ExtractedIdentity.schema : Schema ExtractedIdentity where
  name := "ExtractedIdentity"
  validate
    | .obj ms => do
      let companyName ← Schema.defaultStrField ms "company_name" ""
      let counterpartyName ← Schema.defaultStrField ms "counterparty_name" ""
      let contractType ← Schema.defaultStrField ms "contract_type" ""
      let confidence ← (Schema.defaultStrField ms "confidence" "low").bind Confidence.ofValue?
      return { companyName, counterpartyName, contractType, confidence }
    | _ => none

end AuditFlow
