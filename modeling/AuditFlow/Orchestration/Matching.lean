import AuditFlow.Core.JsonExtraction

/-!
# Which contract does a message mean?

The two text heuristics of `Sessions` in `orchestration/pipeline.py`: does a question name a
contract other than the active one (`mentionsDifferentContract`), and does a message look like the
choice of one of the offered contracts (`looksLikeContractSelection`). The search skips the active
contract, and so it never finds it (`mentionsDifferentContract_ne_active`).
-/

namespace AuditFlow

open Foundation

/-- The names under which a document is recognized; absent metadata is the empty string. -/
structure Identity where
  companyName : String
  counterpartyName : String
  documentTitle : String
  deriving DecidableEq, Repr

/-- The best word match so far: the document and the length of the word. -/
structure BestMatch where
  documentId : Option String := none
  length : ℕ := 0

/-- The innermost loop: a longer common word of at least four characters wins. -/
def matchWords (questionWords : List (List Char)) (docId : String) (best : BestMatch)
    (nameWords : List (List Char)) : BestMatch :=
  nameWords.foldl (fun best word =>
    if 4 ≤ word.length ∧ word ∈ questionWords ∧ best.length < word.length then
      { documentId := some docId, length := word.length }
    else best) best

/-- The loop over the two names of a document: `none` when one of them occurs in the question,
which ends the search, otherwise the best word match. -/
def matchNames (rt : Runtime) (questionLower : List Char) (questionWords : List (List Char))
    (docId : String) : List String → BestMatch → Option BestMatch
  | [], best => some best
  | name :: names, best =>
    if name = "" then matchNames rt questionLower questionWords docId names best
    else
      let nameLower := rt.unicode.lower name.toList
      if Text.occursIn nameLower questionLower then none
      else
        let nameWords := Text.words (Text.replace '.' [] (Text.replace ',' [] nameLower))
        matchNames rt questionLower questionWords docId names
          (matchWords questionWords docId best nameWords)

/-- The loop over the documents. -/
def matchDocuments (rt : Runtime) (questionLower : List Char) (questionWords : List (List Char))
    (activeContract : Option String) : List (String × Identity) → BestMatch → Option String
  | [], best => best.documentId
  | (docId, identity) :: documents, best =>
    if some docId = activeContract then
      matchDocuments rt questionLower questionWords activeContract documents best
    else
      match matchNames rt questionLower questionWords docId
          [identity.companyName, identity.counterpartyName] best with
      | none => some docId
      | some best => matchDocuments rt questionLower questionWords activeContract documents best

/-- `_mentions_different_contract`. -/
def mentionsDifferentContract (rt : Runtime) (question : String)
    (identities : Dict String Identity) (activeContract : Option String) : Option String :=
  let questionLower := rt.unicode.lower question.toList
  let questionWords :=
    Text.words (Text.replace '-' [' '] (Text.replace '_' [' '] questionLower))
  matchDocuments rt questionLower questionWords activeContract identities.entries {}

/-- The words that open a question. -/
def questionWords : List String :=
  ["what", "who", "when", "where", "why", "how", "does", "is", "are", "which", "can", "could",
   "would"]

/-- `_looks_like_contract_selection`. -/
def looksLikeContractSelection (rt : Runtime) (text : String) : Bool :=
  let stripped := Text.strip text.toList
  let textClean := rt.unicode.lower (stripped.rdropWhile (· == '?'))
  let firstWord := String.ofList ((Text.words textClean).headD [])
  !questionWords.contains firstWord && stripped.getLast? != some '?'

/-! ### The search skips the active contract -/

section

variable {rt : Runtime} {questionLower : List Char} {questionWords : List (List Char)}
  {docId d : String} {active : Option String}

/-- A word match is for the document that is searched, or is the one from before. -/
theorem matchWords_documentId {nameWords : List (List Char)} {best : BestMatch}
    (h : (matchWords questionWords docId best nameWords).documentId = some d) :
    d = docId ∨ best.documentId = some d := by
  induction nameWords generalizing best with
  | nil => exact Or.inr h
  | cons word words ih =>
    rw [matchWords, List.foldl_cons] at h
    split_ifs at h with hlonger
    · have hbest := ih h
      rcases hbest with hd | hd
      · exact Or.inl hd
      · exact Or.inl (Option.some.inj hd).symm
    · exact ih h

/-- The same for the two names of a document. -/
theorem matchNames_documentId {names : List String} {best best' : BestMatch}
    (h : matchNames rt questionLower questionWords docId names best = some best')
    (hd : best'.documentId = some d) : d = docId ∨ best.documentId = some d := by
  induction names generalizing best with
  | nil =>
    obtain rfl := Option.some.inj h
    exact Or.inr hd
  | cons name names ih =>
    simp only [matchNames] at h
    split_ifs at h with hempty hoccurs
    · exact ih h
    · have hwords := ih h
      rcases hwords with heq | hbest
      · exact Or.inl heq
      · exact matchWords_documentId hbest

theorem matchDocuments_ne_active {documents : List (String × Identity)} {best : BestMatch}
    (hbest : best.documentId ≠ active ∨ best.documentId = none)
    (h : matchDocuments rt questionLower questionWords active documents best = some d) :
    some d ≠ active := by
  induction documents generalizing best with
  | nil =>
    rw [matchDocuments] at h
    rcases hbest with hne | hnone
    · rwa [h] at hne
    · rw [hnone] at h
      cases h
  | cons document documents ih =>
    obtain ⟨docId, identity⟩ := document
    rw [matchDocuments] at h
    split_ifs at h with hactive
    · exact ih hbest h
    · split at h
      · obtain rfl := Option.some.inj h
        exact hactive
      · rename_i best' hnames
        refine ih ?_ h
        -- what the names of this document add is this document
        rcases hd : best'.documentId with - | d'
        · exact Or.inr rfl
        · refine Or.inl ?_
          rcases matchNames_documentId hnames hd with rfl | hold
          · exact hactive
          · rw [hold] at hbest
            exact hbest.resolve_right (Option.some_ne_none d')

end

/-- The document that a question is found to name is not the active one. -/
theorem mentionsDifferentContract_ne_active {rt : Runtime} {question d : String}
    {identities : Dict String Identity} {active : Option String}
    (h : mentionsDifferentContract rt question identities active = some d) : some d ≠ active :=
  matchDocuments_ne_active (Or.inr rfl) h

end AuditFlow
