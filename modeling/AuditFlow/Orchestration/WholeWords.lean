import AuditFlow.Orchestration.BestMatch
import AuditFlow.Orchestration.Pipeline

/-!
# Matches by accident

What a match of `_mentions_different_contract` says about the question. A **word match** is a token
of the question, so it stands there apart from other letters and digits (`standsApart_of_token`). A
name that occurs **in full** may be a part of a longer word: the search looks for a substring, so a
match is no accident exactly if the document whose name ends the search is also there in words of
its own (`not_by_accident_iff`).

A question that names the active contract in full and no other one can still have a word in common
with the name of another document, and only then it is taken to name that one
(`naming_active_keeps`).
-/

namespace AuditFlow

open Foundation

/-! ### Standing apart -/

section

variable (rt : Runtime)

/-- The character goes on with a word: a letter or a digit, no hyphen and no white space. -/
def joins (c : Char) : Bool := isAlnum rt c && c != '-' && !Text.isSpace c

/-- Between two characters, or the ends of a text, a word goes on. -/
def joined (a b : Option Char) : Bool := a.any (joins rt) && b.any (joins rt)

/-- The phrase occurs in the text, and no word goes on across either of its ends. -/
def standsApart (phrase text : List Char) : Bool :=
  (List.range (text.length + 1)).any fun i =>
    phrase.isPrefixOf (text.drop i) && !joined rt (text.take i).getLast? phrase.head? &&
      !joined rt phrase.getLast? (text.drop (i + phrase.length)).head?

/-- The question has the name in words of its own, in any letter case: the whole name, or one of its
words of at least four characters. -/
def NamedApart (question name : String) : Prop :=
  name ≠ "" ∧
      standsApart rt (rt.unicode.lower name.toList) (rt.unicode.lower question.toList) = true ∨
    ∃ word ∈ nameTokens rt name, 4 ≤ word.length ∧
      standsApart rt word (rt.unicode.lower question.toList) = true

/-- One of the names of the document is in the question in words of its own. -/
def Identity.NamedApart (question : String) (identity : Identity) : Prop :=
  ∃ name ∈ identity.names, AuditFlow.NamedApart rt question name

/-- Every document that is returned is another one than the active one and is in the question in
words of its own. -/
def NotByAccident (question : String) (identities : Dict String Identity)
    (active : Option String) : Prop :=
  ∀ d, mentionsDifferentContract rt question identities active = some d →
    some d ≠ active ∧ ∃ identity, (d, identity) ∈ identities.entries ∧
      identity.NamedApart rt question

/-- The first of the other documents with a name in the question in full, if there is one, is in the
question in words of its own. -/
def FirstInFullApart (question : String) (identities : Dict String Identity)
    (active : Option String) : Prop :=
  ∀ before entry after, others identities active = before ++ entry :: after →
    (∀ earlier ∈ before, earlier.2.namedInFull rt question = false) →
    entry.2.namedInFull rt question = true → entry.2.NamedApart rt question

end

section

variable {rt : Runtime}

theorem standsApart_append {before phrase after : List Char}
    (hbefore : joined rt before.getLast? phrase.head? = false)
    (hafter : joined rt phrase.getLast? after.head? = false) :
    standsApart rt phrase (before ++ phrase ++ after) = true := by
  rw [standsApart, List.any_eq_true]
  refine ⟨before.length, List.mem_range.mpr ?_, ?_⟩
  · rw [List.length_append, List.length_append]
    omega
  have htake : (before ++ phrase ++ after).take before.length = before := by
    rw [List.append_assoc, List.take_left]
  have hdrop : (before ++ phrase ++ after).drop before.length = phrase ++ after := by
    rw [List.append_assoc, List.drop_left]
  have hrest : (before ++ phrase ++ after).drop (before.length + phrase.length) = after := by
    rw [← List.length_append, List.drop_left]
  have hprefix : phrase.isPrefixOf (phrase ++ after) = true :=
    List.isPrefixOf_iff_prefix.mpr (List.prefix_append _ _)
  rw [htake, hdrop, hrest, hbefore, hafter, hprefix]
  rfl

/-- The two replacements in a question, on one character. -/
private def spaced (c : Char) : Char := if c = '_' ∨ c = '-' then ' ' else c

private theorem questionTokens_eq (question : String) :
    questionTokens rt question =
      Text.words ((rt.unicode.lower question.toList).map spaced) := by
  rw [questionTokens, Text.replace_one, Text.replace_one, List.map_map]
  congr 2
  funext c
  by_cases hunderscore : c = '_'
  · subst hunderscore
    rfl
  · simp [spaced, hunderscore]

private theorem spaced_eq_self {c : Char} (h : Text.isSpace (spaced c) = false) :
    spaced c = c := by
  rw [spaced] at h ⊢
  split_ifs at h ⊢ with hreplaced
  · cases h
  · rfl

private theorem joins_of_spaced {c : Char} (h : Text.isSpace (spaced c) = true) :
    joins rt c = false := by
  rw [spaced] at h
  split_ifs at h with hreplaced
  · rcases hreplaced with rfl | rfl
    · simp [joins, isAlnum]
    · simp [joins]
  · simp [joins, h]

/-- **A token of a question stands in it apart.** -/
theorem standsApart_of_token {question : String} {word : List Char}
    (h : word ∈ questionTokens rt question) :
    standsApart rt word (rt.unicode.lower question.toList) = true := by
  rw [questionTokens_eq] at h
  obtain ⟨⟨-, hword⟩, before, after, hsplit, hbefore, hafter⟩ := Text.exists_of_mem_words h
  -- the replacements keep the positions, so the question splits at the same places
  obtain ⟨front, rest, htext, hfront, hrest⟩ := List.map_eq_append_iff.mp hsplit
  obtain ⟨left, middle, hleftMiddle, hleft, hmiddle⟩ := List.map_eq_append_iff.mp hfront
  have hsame : middle = word := by
    have hid : middle.map spaced = middle.map id := by
      refine List.map_congr_left fun c hc => spaced_eq_self (hword _ ?_)
      rw [← hmiddle]
      exact List.mem_map_of_mem hc
    rw [← hmiddle, hid, List.map_id]
  rw [htext, hleftMiddle, hsame]
  refine standsApart_append ?_ ?_
  · cases hlast : left.getLast? with
    | none => rfl
    | some c =>
      have hspace : Text.isSpace (spaced c) = true := by
        refine hbefore _ ?_
        rw [← hleft, List.getLast?_map, hlast]
        rfl
      simp [joined, joins_of_spaced hspace]
  · cases hhead : rest.head? with
    | none => simp [joined]
    | some c =>
      have hspace : Text.isSpace (spaced c) = true := by
        refine hafter _ ?_
        rw [← hrest, List.head?_map, hhead]
        rfl
      simp [joined, joins_of_spaced hspace]

/-- A document with a word match is in the question in words of its own. -/
private theorem namedApart_of_wordMatch {question : String} {entries : List (String × Identity)}
    {found : String × List Char} (h : found ∈ wordMatches rt question entries) :
    ∃ entry ∈ entries, entry.1 = found.1 ∧ entry.2.NamedApart rt question := by
  obtain ⟨entry, hentry, hwords⟩ := List.mem_flatMap.mp h
  obtain ⟨name, hname, hfound⟩ := List.mem_flatMap.mp hwords
  obtain ⟨word, hword, rfl⟩ := List.mem_map.mp hfound
  obtain ⟨htoken, hcommon⟩ := List.mem_filter.mp hword
  obtain ⟨hlength, hquestion⟩ := isCommonWord_iff.mp hcommon
  exact ⟨entry, hentry, rfl, name, hname,
    Or.inr ⟨word, htoken, hlength, standsApart_of_token hquestion⟩⟩

/-- **When a match is no accident.** Every document that is returned is in the question in words of
its own exactly if the first of the other documents one of whose names occurs in the question as a
substring, if there is one, is there in words of its own. -/
theorem not_by_accident_iff (rt : Runtime) (question : String)
    (identities : Dict String Identity) (active : Option String) :
    NotByAccident rt question identities active ↔
      FirstInFullApart rt question identities active := by
  have hmem : ∀ entry ∈ others identities active,
      entry ∈ identities.entries ∧ some entry.1 ≠ active := by
    intro entry hentry
    obtain ⟨hentry', hother⟩ := List.mem_filter.mp hentry
    exact ⟨hentry', bne_iff_ne.mp hother⟩
  rw [NotByAccident, mentionsDifferentContract_eq]
  constructor
  · intro h before entry after hsplit hearlier hfull
    have hfind : (others identities active).find? (fun entry =>
        entry.2.namedInFull rt question) = some entry := by
      refine List.find?_eq_some_iff_append.mpr ⟨hfull, before, after, hsplit, fun earlier he => ?_⟩
      rw [hearlier earlier he]
      rfl
    rw [hfind, Option.map_some, Option.some_or] at h
    obtain ⟨-, identity, hidentity, hapart⟩ := h entry.1 rfl
    have hentry := (hmem entry (List.mem_of_find?_eq_some hfind)).1
    have hsame : (entry.1, identity) = entry :=
      List.inj_on_of_nodup_map identities.nodup hidentity hentry rfl
    rw [← hsame]
    exact hapart
  · intro h d hd
    cases hfind : (others identities active).find? fun entry =>
        entry.2.namedInFull rt question with
    | some entry =>
      rw [hfind, Option.map_some, Option.some_or] at hd
      obtain rfl := Option.some.inj hd
      obtain ⟨hfull, before, after, hsplit, hearlier⟩ := List.find?_eq_some_iff_append.mp hfind
      obtain ⟨hentry, hother⟩ := hmem entry (List.mem_of_find?_eq_some hfind)
      refine ⟨hother, entry.2, hentry, h before entry after hsplit (fun earlier he => ?_) hfull⟩
      simpa using hearlier earlier he
    | none =>
      rw [hfind, Option.map_none, Option.none_or] at hd
      obtain ⟨longest, hlongest, rfl⟩ := Option.map_eq_some_iff.mp hd
      obtain ⟨entry, hentry, heq, hapart⟩ :=
        namedApart_of_wordMatch (List.argmax_mem hlongest)
      obtain ⟨hentry', hother⟩ := hmem entry hentry
      rw [← heq]
      exact ⟨hother, entry.2, hentry', hapart⟩

end

private def hatTable : Dict String Identity := ⟨[("hat-ltd", Identity.ofCompany "Hat")], by decide⟩

/-- A short name inside an ordinary word. -/
theorem name_inside_word :
    mentionsDifferentContract Runtime.example "What is the term?" hatTable none = some "hat-ltd" ∧
      ¬NotByAccident Runtime.example "What is the term?" hatTable none := by
  have hmentions : mentionsDifferentContract Runtime.example "What is the term?" hatTable none =
      some "hat-ltd" := by
    decide +kernel
  refine ⟨hmentions, fun h => ?_⟩
  obtain ⟨-, identity, hidentity, name, hname, hapart⟩ := h "hat-ltd" hmentions
  obtain rfl : identity = Identity.ofCompany "Hat" :=
    congrArg Prod.snd (List.mem_singleton.mp hidentity)
  have hempty : nameTokens Runtime.example "" = [] := by decide +kernel
  have hhat : nameTokens Runtime.example "Hat" = ["hat".toList] := by decide +kernel
  have hinside : standsApart Runtime.example (Runtime.example.unicode.lower "Hat".toList)
      (Runtime.example.unicode.lower "What is the term?".toList) = false := by
    decide +kernel
  rcases List.mem_cons.mp hname with rfl | hname
  · rcases hapart with ⟨-, hfull⟩ | ⟨word, hword, hlength, -⟩
    · have hfull' := hinside.symm.trans hfull
      cases hfull'
    · rw [show (Identity.ofCompany "Hat").companyName = "Hat" from rfl, hhat] at hword
      obtain rfl := List.mem_singleton.mp hword
      revert hlength
      decide
  · obtain rfl := List.mem_singleton.mp hname
    rcases hapart with ⟨hne, -⟩ | ⟨word, hword, -⟩
    · exact hne rfl
    · rw [show (Identity.ofCompany "Hat").counterpartyName = "" from rfl, hempty] at hword
      cases hword

/-! ### Naming the active contract -/

section

variable (rt : Runtime) (question : String) (identities : Dict String Identity)
  (activeContract : String)

/-- The question has a name of the active contract in full, and no name of another document. -/
structure NamesActiveOnly : Prop where
  active : ∃ identity, (activeContract, identity) ∈ identities.entries ∧
    identity.namedInFull rt question = true
  others : ∀ entry ∈ others identities (some activeContract),
    entry.2.namedInFull rt question = false

/-- A word of at least four characters of the name of another document is a word of the
question. -/
def SharesWord : Prop :=
  ∃ entry ∈ others identities (some activeContract), ∃ name ∈ entry.2.names,
    ∃ word ∈ nameTokens rt name, 4 ≤ word.length ∧ word ∈ questionTokens rt question

end

section

variable {rt : Runtime} {question : String} {identities : Dict String Identity}
  {activeContract : String}

private theorem sharesWord_iff :
    SharesWord rt question identities activeContract ↔
      wordMatches rt question (others identities (some activeContract)) ≠ [] := by
  rw [Ne, List.eq_nil_iff_forall_not_mem, not_forall_not]
  constructor
  · rintro ⟨entry, hentry, name, hname, word, hword, hlength, hquestion⟩
    refine ⟨(entry.1, word), List.mem_flatMap.mpr ⟨entry, hentry,
      List.mem_flatMap.mpr ⟨name, hname, List.mem_map.mpr ⟨word, ?_, rfl⟩⟩⟩⟩
    exact List.mem_filter.mpr ⟨hword, isCommonWord_iff.mpr ⟨hlength, hquestion⟩⟩
  · rintro ⟨found, hfound⟩
    obtain ⟨entry, hentry, hwords⟩ := List.mem_flatMap.mp hfound
    obtain ⟨name, hname, hcommon⟩ := List.mem_flatMap.mp hwords
    obtain ⟨word, hword, -⟩ := List.mem_map.mp hcommon
    obtain ⟨htoken, hboth⟩ := List.mem_filter.mp hword
    obtain ⟨hlength, hquestion⟩ := isCommonWord_iff.mp hboth
    exact ⟨entry, hentry, name, hname, word, htoken, hlength, hquestion⟩

/-- Without a match, the active contract is not dropped before it is tried. -/
private theorem answerMentioned_of_none {w : World} {c : Ctx}
    (h : mentionsDifferentContract w.rt question (w.identities c.trace.length)
      c.session.activeContract = none) :
    answerMentioned w question c = (.ok none, c) := by
  rw [answerMentioned, look_bind, getState_bind, h]
  rfl

/-- **When naming the active contract keeps it.** If the question has a name of the active contract
in full and no name of another document, no other contract is found exactly if no word of at least
four characters of another document's name is a word of the question; and then a low-confidence
question leaves the session as it is and goes on to the active contract. -/
theorem naming_active_keeps (h : NamesActiveOnly rt question identities activeContract) :
    (mentionsDifferentContract rt question identities (some activeContract) = none ↔
        ¬SharesWord rt question identities activeContract) ∧
      (¬SharesWord rt question identities activeContract → ∀ (w : World) (c : Ctx), w.rt = rt →
        w.identities c.trace.length = identities → c.session.activeContract = some activeContract →
        answerMentioned w question c = (.ok none, c)) := by
  have hnone : mentionsDifferentContract rt question identities (some activeContract) = none ↔
      ¬SharesWord rt question identities activeContract := by
    have hfind : (others identities (some activeContract)).find? (fun entry =>
        entry.2.namedInFull rt question) = none := by
      refine List.find?_eq_none.mpr fun entry hentry => ?_
      rw [h.others entry hentry]
      exact Bool.false_ne_true
    rw [mentionsDifferentContract_eq, hfind, Option.map_none, Option.none_or,
      Option.map_eq_none_iff, longestMatch, List.argmax_eq_none, sharesWord_iff, not_not]
  refine ⟨hnone, fun hshares w c hrt hidentities hactive => ?_⟩
  refine answerMentioned_of_none ?_
  rw [hrt, hidentities, hactive]
  exact hnone.mpr hshares

end

private def partnersTable : Dict String Identity :=
  ⟨[("pfizer", Identity.ofCompany "Pfizer Inc."),
    ("companion", Identity.ofCompany "Companion Healthcare")], by decide⟩

private theorem namesActiveOnly_pfizer (question : String)
    (hpfizer : occursInFull Runtime.example question "Pfizer Inc." = true)
    (hother : (Identity.ofCompany "Companion Healthcare").namedInFull Runtime.example question =
      false) :
    NamesActiveOnly Runtime.example question partnersTable "pfizer" where
  active := ⟨Identity.ofCompany "Pfizer Inc.", List.mem_cons_self,
    List.any_eq_true.mpr ⟨"Pfizer Inc.", List.mem_cons_self, hpfizer⟩⟩
  others := by
    intro entry hentry
    obtain rfl : entry = ("companion", Identity.ofCompany "Companion Healthcare") :=
      List.mem_singleton.mp hentry
    exact hother

/-- A question with the name of the active contract and no word of another name. -/
theorem naming_active_keeps_pfizer :
    mentionsDifferentContract Runtime.example "When does the Pfizer Inc. contract end?"
      partnersTable (some "pfizer") = none := by
  have hnames := namesActiveOnly_pfizer "When does the Pfizer Inc. contract end?"
    (by decide +kernel) (by decide +kernel)
  refine (naming_active_keeps hnames).1.mpr ?_
  rw [sharesWord_iff, not_not]
  decide +kernel

/-- A question with the name of the active contract that has an ordinary word in common with the
name of another party. -/
theorem ordinary_word_of_other_name :
    NamesActiveOnly Runtime.example "What does Pfizer Inc. owe its healthcare partners?"
        partnersTable "pfizer" ∧
      mentionsDifferentContract Runtime.example
        "What does Pfizer Inc. owe its healthcare partners?" partnersTable (some "pfizer") =
        some "companion" := by
  constructor
  · exact namesActiveOnly_pfizer _ (by decide +kernel) (by decide +kernel)
  · decide +kernel

end AuditFlow
