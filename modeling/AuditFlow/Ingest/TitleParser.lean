import AuditFlow.Foundation.Matcher

/-!
# Titles

`ingest/title_parser.py`: company and contract type of a contract from the name of its file, by
regular expressions alone. The document title is derived from them and from nothing else.
-/

namespace AuditFlow

open Foundation

/-- `MANUAL_OVERRIDES`. -/
def manualOverrides : List (String × String × String) := []

structure ParsedTitle where
  rawTitle : String
  companyName : String
  contractType : String
  /-- What gets embedded and shown to the user. -/
  cleanTitle : String
  /-- `high` or `low`. -/
  parseConfidence : String
  deriving DecidableEq, Repr

/-! ### Patterns -/

section

variable (u : Text.Unicode)

/-- A literal character under `re.IGNORECASE`: besides the two cases there are the long s and the
Kelvin sign. -/
def ignoreCase (c : Char) : Matcher := .satisfy fun d =>
  decide (d.toLower = c.toLower) || (c.toLower == 's' && d == 'ſ') ||
    (c.toLower == 'k' && d == 'K')

/-- A literal text under `re.IGNORECASE`. -/
def ignoreCaseText (s : String) : Matcher := .all (s.toList.map ignoreCase)

/-- `[A-Za-z0-9]` under `re.IGNORECASE`. -/
def alnumIgnoreCase : Matcher := .satisfy fun c =>
  c.isAlphanum || c == 'İ' || c == 'ı' || c == 'ſ' || c == 'K'

def digit : Matcher := .satisfy u.isDigit

def boundary : Matcher := .wordBoundary u.isWord

def space : Matcher := .satisfy Text.isSpace

/-- `x-?y` under `re.IGNORECASE`. -/
def dashed (x y : String) : Matcher :=
  .all [ignoreCaseText x, .opt (ignoreCase '-'), ignoreCaseText y]

/-- `EXHIBIT_RE`. -/
def exhibitRe : Matcher :=
  .all [ignoreCaseText "EX", .opt (.satisfy fun c => c == '-' || c == '–'), .many1 (digit u),
    .opt (.all [ignoreCase '.', .many1 (digit u)]),
    .many (.all [ignoreCase '(', .many1 alnumIgnoreCase, ignoreCase ')']), .opt (ignoreCase '.')]

/-- `FORM_TYPE_RE`. -/
def formTypeRe : Matcher :=
  .all [boundary u,
    .any [.all [ignoreCaseText "DRS", .many space, ignoreCaseText "(on", .many space,
        dashed "F" "1)"],
      dashed "10" "12G", dashed "10" "K", dashed "10" "Q", dashed "8" "K",
      .all [dashed "F" "1", .opt (ignoreCase 'A')], .all [dashed "S" "1", .opt (ignoreCase 'A')],
      dashed "20" "F", dashed "6" "K", .all [ignoreCaseText "424B", .opt (digit u)]],
    boundary u]

/-- `DATE_8_RE`. -/
def date8Re : Matcher := .all [boundary u, .times (digit u) 8, boundary u]

/-- `DATE_MDY_RE`. -/
def dateMdyRe : Matcher :=
  let oneOrTwo := Matcher.seq (digit u) (.opt (digit u))
  let separator := Matcher.satisfy fun c => c == '_' || c == '-'
  .all [boundary u, oneOrTwo, separator, oneOrTwo, separator, .times (digit u) 4, boundary u]

/-- `LONG_NUMERIC_ID_RE`. -/
def longNumericIdRe : Matcher :=
  let digitOrDot := fun c => u.isDigit c || c == '.'
  .all [.notBehind digitOrDot, .times (digit u) 5, .many (digit u), .notAhead digitOrDot]

/-- `TRAILING_DIGIT_RE`. -/
def trailingDigitRe : Matcher := .seq (.many1 (digit u)) .atEnd

/-- The class of `SEPARATOR_RE`. -/
def isSeparator (c : Char) : Bool := c == '_' || c == '-' || c == '–'

/-! ### Parsing -/

/-- `re.sub(r"\s+", " ", s).strip()`. -/
def squeezeSpaces (s : List Char) : List Char := Text.strip (Text.replaceRuns Text.isSpace [' '] s)

/-- Nothing is left of white space, and something of any other text. -/
theorem squeezeSpaces_eq_nil_iff {s : List Char} :
    squeezeSpaces s = [] ↔ ∀ c ∈ s, Text.isSpace c = true := by
  rw [squeezeSpaces, Text.strip, Text.stripBy_eq_nil_iff]
  constructor
  · intro h c hc
    by_contra hnot
    exact hnot (h c (Text.mem_replaceRuns_of_not (Bool.eq_false_iff.mpr hnot) hc))
  · intro h c hc
    rcases Text.mem_replaceRuns hc with ⟨hnot, hmem⟩ | hblank
    · rw [h c hmem] at hnot
      cases hnot
    · rw [List.mem_singleton.mp hblank]
      rfl

/-- A blank before every capital but a leading one. -/
def splitBeforeCapitals : List Char → List Char
  | [] => []
  | c :: s => c :: s.flatMap fun d => if d.isUpper then [' ', d] else [d]

/-- `_split_camel_and_caps`. -/
def splitCamelAndCaps (token : List Char) : List Char :=
  if u.isUpper token then token else squeezeSpaces (splitBeforeCapitals token)

/-- The parts of a title between separators, without exhibit numbers, form types, dates and ids. -/
def titleParts (rawTitle : List Char) : List (List Char) :=
  let text := (exhibitRe u).sub [' '] rawTitle
  let text := (formTypeRe u).sub [' '] text
  let text := (date8Re u).sub [' '] text
  let text := (dateMdyRe u).sub [' '] text
  let text := (longNumericIdRe u).sub [' '] text
  let text := Text.replaceRuns isSeparator " | ".toList text
  let text := Text.stripBy (fun c => c == ' ' || c == '|')
    (Text.replaceRuns Text.isSpace [' '] text)
  ((text.splitOn '|').map Text.strip).filter (· ≠ [])

/-- The contract type is the last of several parts, without trailing digits. -/
def contractTypeOf (parts : List (List Char)) : List Char :=
  let unknown := "Unknown Agreement".toList
  let contractType := if parts.length > 1 then parts.getLastD unknown else unknown
  let contractType := Text.strip ((trailingDigitRe u).sub [] contractType)
  if contractType = [] then unknown else contractType

/-- `parse_title`. -/
def parseTitle (rawTitle : String) : ParsedTitle :=
  match manualOverrides.lookup rawTitle with
  | some (company, contractType) =>
    { rawTitle, companyName := company, contractType, cleanTitle := s!"{company} — {contractType}"
      parseConfidence := "high" }
  | none =>
    match titleParts u rawTitle.toList with
    | [] =>
      { rawTitle, companyName := rawTitle, contractType := "Unknown Agreement"
        cleanTitle := rawTitle, parseConfidence := "low" }
    | companyRaw :: rest =>
      let companyName := splitCamelAndCaps u companyRaw
      let contractType := contractTypeOf u (companyRaw :: rest)
      let isLow := (u.isUpper companyName && decide (companyName.length > 15)) ||
        decide (contractType = "Unknown Agreement".toList) ||
        contractType.any fun c => c == '(' || c == ')'
      let displayCompany := if u.isUpper companyName then u.title companyName else companyName
      { rawTitle
        companyName := String.ofList companyName
        contractType := String.ofList contractType
        cleanTitle := String.ofList (displayCompany ++ " — ".toList ++ u.title contractType)
        parseConfidence := if isLow then "low" else "high" }

end

end AuditFlow
