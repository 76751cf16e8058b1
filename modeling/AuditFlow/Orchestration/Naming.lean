import AuditFlow.Orchestration.Matching

/-!
# Which names a question is recognized by

`_mentions_different_contract` compares the question with a name in two ways: the whole name occurs
in the question, or a word of the name is a word of the question. The words are taken apart by two
different rules: a **name** loses its commas and periods, a **question** has its underscores and
hyphens replaced by spaces, and what is left is split at white space. So a word of the question
keeps the punctuation that a reader would not count as part of it, and a hyphenated name stays in
one piece.

`mentionsDifferentContract_ne_none_iff` says what the search finds, over all of its loops
(`Recognized`); a name in the sense of a reader (`Named`) is noticed exactly if something is
recognized.
-/

namespace AuditFlow

open Foundation

/-! ### Being named and being recognized -/

section

variable (rt : Runtime)

/-- A letter or a digit. -/
def isAlnum (c : Char) : Bool := rt.unicode.isWord c && c != '_'

/-- The word stands in the text, with a character that is no letter or digit, or the end of the
text, on both sides. -/
def WholeWord (word text : List Char) : Prop :=
  (∀ c ∈ word, isAlnum rt c = true) ∧ ∃ before after, text = before ++ word ++ after ∧
    (∀ c, before.getLast? = some c → isAlnum rt c = false) ∧
    ∀ c, after.head? = some c → isAlnum rt c = false

/-- The two names of a document. -/
def Identity.names (identity : Identity) : List String :=
  [identity.companyName, identity.counterpartyName]

/-- The question has a word of the name that is at least four characters long, in any letter
case. -/
def NamedBy (question name : String) : Prop :=
  ∃ word word', WholeWord rt word name.toList ∧ 4 ≤ word.length ∧
    WholeWord rt word' question.toList ∧ rt.unicode.lower word' = rt.unicode.lower word

/-- The words of a name, as the search takes it apart. -/
def nameTokens (name : String) : List (List Char) :=
  Text.words (Text.replace '.' [] (Text.replace ',' [] (rt.unicode.lower name.toList)))

/-- The words of a question, as the search takes it apart. -/
def questionTokens (question : String) : List (List Char) :=
  Text.words (Text.replace '-' [' '] (Text.replace '_' [' '] (rt.unicode.lower question.toList)))

/-- The lowered text of the question has the whole lowered name in it, or one of its tokens is a
token of the name that is at least four characters long. -/
def RecognizedBy (question name : String) : Prop :=
  name ≠ "" ∧
    (Text.occursIn (rt.unicode.lower name.toList) (rt.unicode.lower question.toList) = true ∨
      ∃ word ∈ nameTokens rt name, 4 ≤ word.length ∧ word ∈ questionTokens rt question)

/-- A name of a document other than the active one stands in a relation to the question. -/
def SomeOther (relation : String → Prop) (identities : List (String × Identity))
    (activeContract : Option String) : Prop :=
  ∃ entry ∈ identities, some entry.1 ≠ activeContract ∧ ∃ name ∈ entry.2.names, relation name

/-- The question names a document other than the active one. -/
def Named (question : String) (identities : Dict String Identity)
    (activeContract : Option String) : Prop :=
  SomeOther (NamedBy rt question) identities.entries activeContract

/-- The question is recognized to name a document other than the active one. -/
def Recognized (question : String) (identities : Dict String Identity)
    (activeContract : Option String) : Prop :=
  SomeOther (RecognizedBy rt question) identities.entries activeContract

end

/-! ### What the loops find -/

/-- The length of the best match is positive only with a document. -/
def BestMatch.Sound (best : BestMatch) : Prop := best.documentId = none → best.length = 0

/-- The two ways in which the loops compare a name with the question. -/
private def Hits (rt : Runtime) (questionLower : List Char) (questionWords : List (List Char))
    (name : String) : Prop :=
  name ≠ "" ∧ (Text.occursIn (rt.unicode.lower name.toList) questionLower = true ∨
    ∃ word ∈ nameTokens rt name, 4 ≤ word.length ∧ word ∈ questionWords)

section

variable (rt : Runtime) (questionLower : List Char) (questionWords : List (List Char))
  (docId : String) (active : Option String)

/-- The words of a name leave no match exactly if there was none and none of them is long enough
and common. -/
private theorem matchWords_none_iff (nameWords : List (List Char)) {best : BestMatch}
    (hbest : best.Sound) :
    (matchWords questionWords docId best nameWords).Sound ∧
      ((matchWords questionWords docId best nameWords).documentId = none ↔
        best.documentId = none ∧
          ∀ word ∈ nameWords, ¬(4 ≤ word.length ∧ word ∈ questionWords)) := by
  induction nameWords generalizing best with
  | nil =>
    refine ⟨hbest, (and_iff_left ?_).symm⟩
    intro word hword
    cases hword
  | cons word words ih =>
    rw [matchWords, List.foldl_cons]
    split_ifs with hlonger
    · -- a match is never lost again
      have hmatch : BestMatch.Sound { documentId := some docId, length := word.length } := by
        intro h
        cases h
      obtain ⟨hsound, hnone⟩ := ih hmatch
      refine ⟨hsound, hnone.trans (iff_of_false ?_ fun h => ?_)⟩
      · rintro ⟨h, -⟩
        cases h
      · exact h.2 word List.mem_cons_self ⟨hlonger.1, hlonger.2.1⟩
    · obtain ⟨hsound, hnone⟩ := ih hbest
      refine ⟨hsound, hnone.trans (and_congr_right fun hdocument => ?_)⟩
      rw [List.forall_mem_cons]
      refine (and_iff_right fun hcommon => hlonger ⟨hcommon.1, hcommon.2, ?_⟩).symm
      -- without a match so far, every word is longer
      rw [hbest hdocument]
      omega

/-- The names of a document end the search with a match, or leave none exactly if there was none
and none of them hits. -/
private theorem matchNames_none_iff (names : List String) {best : BestMatch} (hbest : best.Sound) :
    (matchNames rt questionLower questionWords docId names best = none →
        ∃ name ∈ names, Hits rt questionLower questionWords name) ∧
      ∀ best', matchNames rt questionLower questionWords docId names best = some best' →
        best'.Sound ∧ (best'.documentId = none ↔
          best.documentId = none ∧ ∀ name ∈ names, ¬Hits rt questionLower questionWords name) := by
  induction names generalizing best with
  | nil =>
    constructor
    · intro h
      cases h
    · intro best' h
      obtain rfl := Option.some.inj h
      refine ⟨hbest, (and_iff_left ?_).symm⟩
      intro name hname
      cases hname
  | cons name names ih =>
    simp only [matchNames]
    split_ifs with hempty hoccurs
    · obtain ⟨hfound, hleft⟩ := ih hbest
      refine ⟨fun h => ?_, fun best' h => ?_⟩
      · obtain ⟨name', hname', hhits⟩ := hfound h
        exact ⟨name', List.mem_cons_of_mem _ hname', hhits⟩
      · obtain ⟨hsound, hnone⟩ := hleft best' h
        refine ⟨hsound, hnone.trans (and_congr_right fun _ => ?_)⟩
        rw [List.forall_mem_cons]
        exact (and_iff_right fun hhits => hhits.1 hempty).symm
    · refine ⟨fun _ => ⟨name, List.mem_cons_self, hempty, Or.inl hoccurs⟩, fun best' h => ?_⟩
      cases h
    · obtain ⟨hwords, hnone⟩ :=
        matchWords_none_iff questionWords docId (nameTokens rt name) hbest
      obtain ⟨hfound, hleft⟩ := ih hwords
      refine ⟨fun h => ?_, fun best' h => ?_⟩
      · obtain ⟨name', hname', hhits⟩ := hfound h
        exact ⟨name', List.mem_cons_of_mem _ hname', hhits⟩
      · obtain ⟨hsound, hnone'⟩ := hleft best' h
        refine ⟨hsound, hnone'.trans ?_⟩
        rw [hnone, and_assoc, List.forall_mem_cons]
        refine and_congr_right fun _ => and_congr_left fun _ => ?_
        -- the name does not occur as a whole, so it hits through its words
        rw [Hits, and_iff_right hempty, or_iff_right hoccurs]
        simp only [not_exists, not_and]

/-- **What the search finds.** -/
private theorem matchDocuments_eq_none_iff (documents : List (String × Identity))
    {best : BestMatch} (hbest : best.Sound) :
    matchDocuments rt questionLower questionWords active documents best = none ↔
      best.documentId = none ∧
        ¬SomeOther (Hits rt questionLower questionWords) documents active := by
  induction documents generalizing best with
  | nil =>
    rw [matchDocuments]
    refine (and_iff_left ?_).symm
    rintro ⟨entry, hentry, -⟩
    cases hentry
  | cons document documents ih =>
    obtain ⟨docId, identity⟩ := document
    have hsplit : SomeOther (Hits rt questionLower questionWords) ((docId, identity) :: documents)
        active ↔ (some docId ≠ active ∧
          ∃ name ∈ identity.names, Hits rt questionLower questionWords name) ∨
        SomeOther (Hits rt questionLower questionWords) documents active :=
      List.exists_mem_cons_iff _ _ _
    rw [matchDocuments, hsplit, not_or]
    split_ifs with hactive
    · rw [ih hbest, and_iff_right fun h => h.1 hactive]
    · obtain ⟨hfound, hleft⟩ :=
        matchNames_none_iff rt questionLower questionWords docId identity.names hbest
      rcases hnames : matchNames rt questionLower questionWords docId identity.names best with
        _ | best'
      · rw [Identity.names] at hnames
        rw [hnames]
        refine iff_of_false (Option.some_ne_none docId) fun h => ?_
        exact h.2.1 ⟨hactive, hfound hnames⟩
      · obtain ⟨hsound, hnone⟩ := hleft best' hnames
        rw [Identity.names] at hnames
        rw [hnames]
        dsimp only
        rw [ih hsound, hnone, and_assoc]
        refine and_congr_right fun _ => and_congr_left fun _ => ?_
        rw [and_iff_right hactive]
        simp only [not_exists, not_and]

end

/-- **The search finds a document exactly if one is recognized.** -/
theorem mentionsDifferentContract_ne_none_iff {rt : Runtime} {question : String}
    {identities : Dict String Identity} {active : Option String} :
    mentionsDifferentContract rt question identities active ≠ none ↔
      Recognized rt question identities active := by
  have hsound : BestMatch.Sound {} := fun _ => rfl
  rw [mentionsDifferentContract, Ne, matchDocuments_eq_none_iff rt _ _ _ _ hsound,
    and_iff_right rfl, not_not]
  rfl

/-- **When naming a contract is noticed.** If the question has a word of at least four letters or
digits of a name of another document, some document is returned exactly if one is recognized: a name
occurs in the question as a whole, or the tokens of the two have one of at least four characters in
common. -/
theorem naming_noticed_iff (rt : Runtime) (question : String) (identities : Dict String Identity)
    (active : Option String) :
    (Named rt question identities active →
        mentionsDifferentContract rt question identities active ≠ none) ↔
      (Named rt question identities active → Recognized rt question identities active) := by
  refine imp_congr_right fun _ => ?_
  exact mentionsDifferentContract_ne_none_iff

private def supplyIdentity : Identity where
  companyName := "Pfizer, Inc."
  counterpartyName := ""
  documentTitle := "Supply Agreement"

private def supplyIdentities : Dict String Identity := Dict.empty.set "supply" supplyIdentity

/-- A question that ends with the name of a company. -/
theorem naming_before_question_mark :
    Named Runtime.example "What about Pfizer?" supplyIdentities none ∧
      mentionsDifferentContract Runtime.example "What about Pfizer?" supplyIdentities none =
        none := by
  have halnum : ("Pfizer".toList.all (isAlnum Runtime.example)) = true := by decide +kernel
  have hletters := List.all_eq_true.mp halnum
  have hname : WholeWord Runtime.example "Pfizer".toList supplyIdentity.companyName.toList := by
    refine ⟨hletters, [], ", Inc.".toList, by decide +kernel, fun c hc => ?_, fun c hc => ?_⟩
    · cases hc
    · obtain rfl : ',' = c := Option.some.inj hc
      decide +kernel
  have hquestion : WholeWord Runtime.example "Pfizer".toList "What about Pfizer?".toList := by
    refine ⟨hletters, "What about ".toList, ['?'], by decide +kernel, fun c hc => ?_,
      fun c hc => ?_⟩
    · obtain rfl : ' ' = c := Option.some.inj hc
      decide +kernel
    · obtain rfl : '?' = c := Option.some.inj hc
      decide +kernel
  constructor
  · refine ⟨("supply", supplyIdentity), List.mem_cons_self, Option.some_ne_none _,
      supplyIdentity.companyName, List.mem_cons_self, "Pfizer".toList, "Pfizer".toList, hname, ?_,
      hquestion, rfl⟩
    decide +kernel
  · decide +kernel

end AuditFlow
