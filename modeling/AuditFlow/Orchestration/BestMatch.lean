import AuditFlow.Orchestration.Naming
import Mathlib.Data.List.MinMax

/-!
# Which document is the best match

`_mentions_different_contract` searches the documents other than the active one by two rules. A
name that occurs **in full** ends the search at once, at the first document that has one; without
such a document, the longest **common word** decides, and the first one of that length.

`mentionsDifferentContract_eq` states this over all loops: the first element with a property, or
else the first maximum of a list. A first maximum does not depend on the order of the list once
elements of equal length belong to one document, and the first element with a property does unless
there is only one: `best_match_wins_iff` says that the best match is returned in every listing order
exactly if at most one document has a name in the question.
-/

namespace AuditFlow

open Foundation

/-! ### Matches -/

/-- The entries of the documents other than the active one, in listing order. -/
def others (identities : Dict String Identity) (active : Option String) :
    List (String × Identity) :=
  identities.entries.filter fun entry => some entry.1 != active

section

variable (rt : Runtime) (question : String)

/-- The name occurs in the question in full, in any letter case. -/
def occursInFull (name : String) : Bool :=
  name != "" && Text.occursIn (rt.unicode.lower name.toList) (rt.unicode.lower question.toList)

/-- One of the names of the document occurs in the question in full. -/
def Identity.namedInFull (identity : Identity) : Bool :=
  identity.names.any (occursInFull rt question)

/-- The word has at least four characters and is a token of the question. -/
def isCommonWord (word : List Char) : Bool :=
  decide (4 ≤ word.length) && (questionTokens rt question).contains word

/-- The tokens of a name that are common words. -/
def commonWords (name : String) : List (List Char) :=
  (nameTokens rt name).filter (isCommonWord rt question)

/-- The word matches of a document. -/
def Identity.wordMatches (docId : String) (identity : Identity) : List (String × List Char) :=
  identity.names.flatMap fun name => (commonWords rt question name).map (docId, ·)

/-- The word matches of all documents, in the order in which the search comes upon them. -/
def wordMatches (entries : List (String × Identity)) : List (String × List Char) :=
  entries.flatMap fun entry => entry.2.wordMatches rt question entry.1

/-- The first of the longest word matches. -/
def longestMatch (found : List (String × List Char)) : Option (String × List Char) :=
  found.argmax fun found => found.2.length

end

theorem isCommonWord_iff {rt : Runtime} {question : String} {word : List Char} :
    isCommonWord rt question word = true ↔
      4 ≤ word.length ∧ word ∈ questionTokens rt question := by
  rw [isCommonWord, Bool.and_eq_true, decide_eq_true_iff, List.contains_iff_mem]

/-! ### What the loops select -/

/-- The best word match, as the loops keep it. -/
private def bestOf : Option (String × List Char) → BestMatch
  | none => {}
  | some longest => { documentId := some longest.1, length := longest.2.length }

/-- One more match replaces the best one if it is longer. -/
private theorem bestOf_concat (found : List (String × List Char)) (docId : String)
    {word : List Char} (hlength : 4 ≤ word.length) :
    bestOf (longestMatch (found ++ [(docId, word)])) =
      if (bestOf (longestMatch found)).length < word.length then
        { documentId := some docId, length := word.length }
      else bestOf (longestMatch found) := by
  have hconcat : longestMatch (found ++ [(docId, word)]) = _ := List.argmax_concat _ _ _
  rw [hconcat, ← longestMatch]
  cases longestMatch found with
  | none =>
    have hpositive : (bestOf none).length < word.length := by
      change 0 < word.length
      omega
    rw [if_pos hpositive]
    rfl
  | some longest =>
    exact apply_ite bestOf (longest.2.length < word.length) (some (docId, word)) (some longest)

private theorem bestOf_documentId (longest : Option (String × List Char)) :
    (bestOf longest).documentId = longest.map Prod.fst := by
  cases longest <;> rfl

section

variable (rt : Runtime) (question docId : String)

private theorem matchWords_eq (nameWords : List (List Char)) (found : List (String × List Char)) :
    matchWords (questionTokens rt question) docId (bestOf (longestMatch found)) nameWords =
      bestOf (longestMatch
        (found ++ (nameWords.filter (isCommonWord rt question)).map (docId, ·))) := by
  induction nameWords generalizing found with
  | nil =>
    rw [List.filter_nil, List.map_nil, List.append_nil]
    rfl
  | cons word words ih =>
    rw [matchWords, List.foldl_cons, ← matchWords, List.filter_cons]
    by_cases hcommon : isCommonWord rt question word = true
    · obtain ⟨hlength, hquestion⟩ := isCommonWord_iff.mp hcommon
      have hstep : (if 4 ≤ word.length ∧ word ∈ questionTokens rt question ∧
          (bestOf (longestMatch found)).length < word.length then
            { documentId := some docId, length := word.length }
          else bestOf (longestMatch found)) =
            bestOf (longestMatch (found ++ [(docId, word)])) := by
        rw [bestOf_concat found docId hlength]
        simp only [hlength, hquestion, true_and]
      rw [hstep, ih, if_pos hcommon, List.map_cons, List.append_assoc, List.singleton_append]
    · rw [if_neg fun h => hcommon (isCommonWord_iff.mpr ⟨h.1, h.2.1⟩), ih, if_neg hcommon]

private theorem matchNames_eq (names : List String) (found : List (String × List Char)) :
    matchNames rt (rt.unicode.lower question.toList) (questionTokens rt question) docId names
        (bestOf (longestMatch found)) =
      if names.any (occursInFull rt question) then none
      else some (bestOf (longestMatch
        (found ++ names.flatMap fun name => (commonWords rt question name).map (docId, ·)))) := by
  induction names generalizing found with
  | nil =>
    rw [List.flatMap_nil, List.append_nil]
    rfl
  | cons name names ih =>
    rw [matchNames, List.any_cons, List.flatMap_cons]
    by_cases hempty : name = ""
    · -- an empty name has no tokens either
      have htokens : commonWords rt question name = [] := by
        have hlower : rt.unicode.lower [] = [] := rt.unicode.lower_ascii [] (by simp)
        rw [commonWords, nameTokens, hempty, String.toList_empty, hlower]
        rfl
      have hname : occursInFull rt question name = false := by
        rw [occursInFull, hempty]
        rfl
      rw [if_pos hempty, ih, htokens, hname, Bool.false_or, List.map_nil, List.nil_append]
    · rw [if_neg hempty]
      dsimp only
      have hname : occursInFull rt question name =
          Text.occursIn (rt.unicode.lower name.toList) (rt.unicode.lower question.toList) := by
        rw [occursInFull, bne_iff_ne.mpr hempty, Bool.true_and]
      rw [← hname]
      cases hfull : occursInFull rt question name with
      | true => rfl
      | false =>
        rw [Bool.false_or, if_neg Bool.false_ne_true, ← nameTokens, matchWords_eq, ih,
          List.append_assoc]
        rfl

private theorem matchDocuments_eq (active : Option String) (documents : List (String × Identity))
    (found : List (String × List Char)) :
    matchDocuments rt (rt.unicode.lower question.toList) (questionTokens rt question) active
        documents (bestOf (longestMatch found)) =
      (((documents.filter fun entry => some entry.1 != active).find? fun entry =>
          entry.2.namedInFull rt question).map Prod.fst).or
        ((longestMatch (found ++ wordMatches rt question
          (documents.filter fun entry => some entry.1 != active))).map Prod.fst) := by
  induction documents generalizing found with
  | nil =>
    rw [List.filter_nil, wordMatches, List.flatMap_nil, List.append_nil]
    exact bestOf_documentId (longestMatch found)
  | cons document documents ih =>
    obtain ⟨docId, identity⟩ := document
    rw [matchDocuments, List.filter_cons]
    by_cases hactive : some docId = active
    · rw [if_pos hactive, ih, if_neg (by simpa using hactive)]
    · rw [if_neg hactive, if_pos (by simpa using hactive), List.find?_cons]
      have hnames : matchNames rt (rt.unicode.lower question.toList) (questionTokens rt question)
          docId [identity.companyName, identity.counterpartyName] (bestOf (longestMatch found)) =
          if identity.namedInFull rt question then none
          else some (bestOf (longestMatch (found ++ identity.wordMatches rt question docId))) :=
        matchNames_eq rt question docId identity.names found
      rw [hnames]
      cases hfull : identity.namedInFull rt question with
      | true => rfl
      | false =>
        have hfound : found ++ wordMatches rt question
            ((docId, identity) :: documents.filter fun entry => some entry.1 != active) =
            found ++ identity.wordMatches rt question docId ++ wordMatches rt question
              (documents.filter fun entry => some entry.1 != active) := by
          rw [wordMatches, List.flatMap_cons, List.append_assoc]
          rfl
        rw [hfound, ← ih]
        rfl

end

/-- **What the search returns**: the first of the other documents that has a name in the question,
or else the document of the first longest word match. -/
theorem mentionsDifferentContract_eq (rt : Runtime) (question : String)
    (identities : Dict String Identity) (active : Option String) :
    mentionsDifferentContract rt question identities active =
      (((others identities active).find? fun entry =>
          entry.2.namedInFull rt question).map Prod.fst).or
        ((longestMatch (wordMatches rt question (others identities active))).map Prod.fst) :=
  matchDocuments_eq rt question active identities.entries []

/-! ### The best match -/

section

variable (rt : Runtime) (question : String)

/-- The document has a name in the question in full, and no document has a longer one. -/
def BestName (entries : List (String × Identity)) (d : String) : Prop :=
  ∃ entry ∈ entries, entry.1 = d ∧ ∃ name ∈ entry.2.names, occursInFull rt question name = true ∧
    ∀ entry' ∈ entries, ∀ name' ∈ entry'.2.names, occursInFull rt question name' = true →
      name'.length ≤ name.length

/-- The document has a word match, and no document has a longer one. -/
def BestWord (entries : List (String × Identity)) (d : String) : Prop :=
  ∃ found ∈ wordMatches rt question entries, found.1 = d ∧
    ∀ found' ∈ wordMatches rt question entries, found'.2.length ≤ found.2.length

/-- The document has the longest name in the question in full or, if there is none, the longest
word match. -/
def BestDocument (entries : List (String × Identity)) (d : String) : Prop :=
  BestName rt question entries d ∨
    (∀ entry ∈ entries, entry.2.namedInFull rt question = false) ∧ BestWord rt question entries d

/-- No two documents match with names, or with words, of equal length. -/
structure NoTies (entries : List (String × Identity)) : Prop where
  names : ∀ entry ∈ entries, ∀ entry' ∈ entries, ∀ name ∈ entry.2.names, ∀ name' ∈ entry'.2.names,
    occursInFull rt question name = true → occursInFull rt question name' = true →
    name.length = name'.length → entry.1 = entry'.1
  words : ∀ found ∈ wordMatches rt question entries, ∀ found' ∈ wordMatches rt question entries,
    found.2.length = found'.2.length → found.1 = found'.1

/-- At most one document has a name in the question in full. -/
def OneInFull (entries : List (String × Identity)) : Prop :=
  ∀ entry ∈ entries, ∀ entry' ∈ entries, entry.2.namedInFull rt question = true →
    entry'.2.namedInFull rt question = true → entry.1 = entry'.1

/-- In every listing order, the same document is returned, and it is the best match. -/
def BestMatchWins (identities : Dict String Identity) (active : Option String) : Prop :=
  ∀ identities' : Dict String Identity, identities'.entries.Perm identities.entries →
    mentionsDifferentContract rt question identities' active =
        mentionsDifferentContract rt question identities active ∧
      ∀ d, mentionsDifferentContract rt question identities' active = some d ↔
        BestDocument rt question (others identities active) d

end

section

variable {rt : Runtime} {question : String} {entries entries' : List (String × Identity)}
  {d : String}

private theorem length_le_longestMatch {all : List (String × List Char)}
    {found longest : String × List Char} (h : longestMatch all = some longest)
    (hfound : found ∈ all) : found.2.length ≤ longest.2.length :=
  List.le_of_mem_argmax (f := fun found : String × List Char => found.2.length) hfound h

/-- The first longest word match belongs to a document that no other one beats. -/
private theorem longestMatch_iff (hwords : ∀ found ∈ wordMatches rt question entries,
      ∀ found' ∈ wordMatches rt question entries,
      found.2.length = found'.2.length → found.1 = found'.1)
    (hperm : entries'.Perm entries) :
    (longestMatch (wordMatches rt question entries')).map Prod.fst = some d ↔
      BestWord rt question entries d := by
  have hmem : ∀ found, found ∈ wordMatches rt question entries' ↔
      found ∈ wordMatches rt question entries := fun found =>
    (List.Perm.flatMap_right (fun entry : String × Identity =>
      entry.2.wordMatches rt question entry.1) hperm).mem_iff
  constructor
  · intro h
    obtain ⟨longest, hlongest, rfl⟩ := Option.map_eq_some_iff.mp h
    refine ⟨longest, (hmem longest).mp (List.argmax_mem hlongest), rfl, fun found' hfound' => ?_⟩
    exact length_le_longestMatch hlongest ((hmem found').mpr hfound')
  · rintro ⟨found, hfound, rfl, hbest⟩
    cases hlongest : longestMatch (wordMatches rt question entries') with
    | none =>
      have hnil := List.argmax_eq_none.mp hlongest
      have hfound' := (hmem found).mpr hfound
      rw [hnil] at hfound'
      cases hfound'
    | some longest =>
      have hmax : found.2.length ≤ longest.2.length :=
        length_le_longestMatch hlongest ((hmem found).mpr hfound)
      have hlongest' := (hmem longest).mp (List.argmax_mem hlongest)
      have heq := hwords longest hlongest' found hfound
        (Nat.le_antisymm (hbest longest hlongest') hmax)
      rw [Option.map_some, heq]

/-- If one document at most has a name in the question, the first one that has one is the best. -/
private theorem find?_iff (hone : OneInFull rt question entries)
    (hnodup : (entries.map Prod.fst).Nodup) {entry : String × Identity}
    (hentry : entry ∈ entries) (hfull : entry.2.namedInFull rt question = true) :
    entry.1 = d ↔ BestName rt question entries d := by
  constructor
  · rintro rfl
    -- the longest of its names that occur
    set found := entry.2.names.filter (occursInFull rt question) with hfound
    obtain ⟨name₀, hsome, hoccurs⟩ := List.any_eq_true.mp hfull
    have hsome' : name₀ ∈ found := List.mem_filter.mpr ⟨hsome, hoccurs⟩
    cases hlongest : found.argmax String.length with
    | none =>
      rw [List.argmax_eq_none.mp hlongest] at hsome'
      cases hsome'
    | some name =>
      obtain ⟨hname, hfullName⟩ := List.mem_filter.mp (List.argmax_mem hlongest)
      refine ⟨entry, hentry, rfl, name, hname, hfullName, fun entry' hentry' name' hname' h => ?_⟩
      have hfull' : entry'.2.namedInFull rt question = true :=
        List.any_eq_true.mpr ⟨name', hname', h⟩
      have hid : entry'.1 = entry.1 := hone entry' hentry' entry hentry hfull' hfull
      have hsame : entry' = entry := List.inj_on_of_nodup_map hnodup hentry' hentry hid
      rw [hsame] at hname'
      exact List.le_of_mem_argmax (List.mem_filter.mpr ⟨hname', h⟩) hlongest
  · rintro ⟨entry', hentry', rfl, name, hname, hoccurs, -⟩
    exact hone entry hentry entry' hentry' hfull (List.any_eq_true.mpr ⟨name, hname, hoccurs⟩)

end

section

variable {rt : Runtime} {question : String} {identities : Dict String Identity}
  {active : Option String}

private theorem others_nodup : ((others identities active).map Prod.fst).Nodup :=
  identities.nodup.sublist (List.filter_sublist.map _)

/-- With one name in full at most, the search returns the best match in every listing order. -/
private theorem mentions_iff_best
    (hties : NoTies rt question (others identities active))
    (hone : OneInFull rt question (others identities active))
    {identities' : Dict String Identity} (hperm : identities'.entries.Perm identities.entries)
    (d : String) : mentionsDifferentContract rt question identities' active = some d ↔
      BestDocument rt question (others identities active) d := by
  have hothers : (others identities' active).Perm (others identities active) := hperm.filter _
  rw [mentionsDifferentContract_eq, BestDocument]
  cases hfind : (others identities' active).find? fun entry => entry.2.namedInFull rt question with
  | some entry =>
    have hentry := hothers.mem_iff.mp (List.mem_of_find?_eq_some hfind)
    have hfound := List.find?_some hfind
    have hfull : entry.2.namedInFull rt question = true := hfound
    rw [Option.map_some, Option.some_or, Option.some_inj,
      find?_iff hone others_nodup hentry hfull, iff_self_or]
    rintro ⟨hnone, -⟩
    rw [hnone entry hentry] at hfull
    cases hfull
  | none =>
    have hnone : ∀ entry ∈ others identities active, entry.2.namedInFull rt question = false := by
      intro entry hentry
      have hentry' := List.find?_eq_none.mp hfind entry (hothers.mem_iff.mpr hentry)
      exact Bool.eq_false_iff.mpr hentry'
    rw [Option.map_none, Option.none_or, longestMatch_iff hties.words hothers,
      and_iff_right hnone, iff_or_self]
    rintro ⟨entry, hentry, -, name, hname, hoccurs, -⟩
    have hfull : entry.2.namedInFull rt question = true :=
      List.any_eq_true.mpr ⟨name, hname, hoccurs⟩
    rw [hnone entry hentry] at hfull
    cases hfull

/-- A document that has a name in the question in full is returned if it is listed first. -/
private theorem exists_listing_first {entry : String × Identity}
    (hentry : entry ∈ others identities active)
    (hfull : entry.2.namedInFull rt question = true) :
    ∃ identities' : Dict String Identity, identities'.entries.Perm identities.entries ∧
      mentionsDifferentContract rt question identities' active = some entry.1 := by
  obtain ⟨hmem, hother⟩ := List.mem_filter.mp hentry
  have hperm : (entry :: identities.entries.erase entry).Perm identities.entries :=
    (List.perm_cons_erase hmem).symm
  refine ⟨⟨entry :: identities.entries.erase entry, (hperm.map _).nodup_iff.mpr identities.nodup⟩,
    hperm, ?_⟩
  rw [mentionsDifferentContract_eq, others, List.filter_cons, if_pos hother, List.find?_cons, hfull]
  rfl

/-- **When the best match wins.** If no two documents match with names or words of equal length,
the best match is returned in every listing order exactly if at most one document other than the
active one has a name in the question in full: the first such document ends the search, whatever
the length of its name. -/
theorem best_match_wins_iff (hties : NoTies rt question (others identities active)) :
    BestMatchWins rt question identities active ↔
      OneInFull rt question (others identities active) := by
  constructor
  · intro h entry hentry entry' hentry' hfull hfull'
    -- each of the two is returned when it is listed first
    obtain ⟨first, hfirst, hreturned⟩ := exists_listing_first hentry hfull
    obtain ⟨first', hfirst', hreturned'⟩ := exists_listing_first hentry' hfull'
    have hsame : mentionsDifferentContract rt question first active =
        mentionsDifferentContract rt question first' active :=
      (h first hfirst).1.trans (h first' hfirst').1.symm
    rw [hreturned, hreturned'] at hsame
    exact Option.some.inj hsame
  · intro hone identities' hperm
    refine ⟨Option.ext fun d => ?_, mentions_iff_best hties hone hperm⟩
    exact (mentions_iff_best hties hone hperm d).trans
      (mentions_iff_best hties hone (List.Perm.refl _) d).symm

end

/-- The identity of a document with a company name and nothing else. -/
def Identity.ofCompany (companyName : String) : Identity where
  companyName := companyName
  counterpartyName := ""
  documentTitle := ""

private def dealQuestion : String := "What does the Alphabetical Systems deal say?"

private def dealTable : Dict String Identity :=
  ⟨[("doc-a", Identity.ofCompany "Alpha Health"),
    ("doc-b", Identity.ofCompany "Alphabetical Systems")], by decide⟩

/-- A question with one name in full, and with words of different lengths. -/
theorem best_match_wins_deal : BestMatchWins Runtime.example dealQuestion dealTable none := by
  have hties : NoTies Runtime.example dealQuestion (others dealTable none) :=
    ⟨by decide +kernel, by decide +kernel⟩
  refine (best_match_wins_iff hties).mpr ?_
  have hone : ∀ entry ∈ others dealTable none, ∀ entry' ∈ others dealTable none,
      entry.2.namedInFull Runtime.example dealQuestion = true →
        entry'.2.namedInFull Runtime.example dealQuestion = true → entry.1 = entry'.1 := by
    decide +kernel
  exact hone

private def compareQuestion : String := "Compare Pfizer with Neuromed Pharmaceuticals"

private def pfizerFirst : Dict String Identity :=
  ⟨[("pfizer", Identity.ofCompany "Pfizer"),
    ("neuromed", Identity.ofCompany "Neuromed Pharmaceuticals")], by decide⟩

private def neuromedFirst : Dict String Identity :=
  ⟨[("neuromed", Identity.ofCompany "Neuromed Pharmaceuticals"),
    ("pfizer", Identity.ofCompany "Pfizer")], by decide⟩

/-- Two names of different lengths occur in full, and the one that is listed first is returned. -/
theorem shorter_name_listed_first :
    NoTies Runtime.example compareQuestion (others pfizerFirst none) ∧
      neuromedFirst.entries.Perm pfizerFirst.entries ∧
      mentionsDifferentContract Runtime.example compareQuestion pfizerFirst none = some "pfizer" ∧
      mentionsDifferentContract Runtime.example compareQuestion neuromedFirst none =
        some "neuromed" ∧
      ¬BestMatchWins Runtime.example compareQuestion pfizerFirst none := by
  have hties : NoTies Runtime.example compareQuestion (others pfizerFirst none) :=
    ⟨by decide +kernel, by decide +kernel⟩
  have hperm : neuromedFirst.entries.Perm pfizerFirst.entries := List.Perm.swap _ _ _
  have hpfizer : mentionsDifferentContract Runtime.example compareQuestion pfizerFirst none =
      some "pfizer" := by
    decide +kernel
  have hneuromed : mentionsDifferentContract Runtime.example compareQuestion neuromedFirst none =
      some "neuromed" := by
    decide +kernel
  refine ⟨hties, hperm, hpfizer, hneuromed, fun h => ?_⟩
  have hsame := (h neuromedFirst hperm).1
  rw [hpfizer, hneuromed] at hsame
  have hdifferent : some "neuromed" ≠ some "pfizer" := by decide
  exact hdifferent hsame

end AuditFlow
