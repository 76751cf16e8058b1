import AuditFlow.Foundation.Listing
import AuditFlow.Ingest.BuildIndex

/-!
# Contracts without text

Four things can stand for "no text" in a file of contracts: no context, `null`, the empty string,
and white space. The preflight check lets all of them pass, but the code that a build runs through
treats them in three ways. The cache of identities cannot be loaded with the first two. The loop
skips the first three. And white space is ingested, as a document without chunks: before there is a
FAISS store this raises, and later it replaces what was stored under the title.

`textless_skipped_iff` says **exactly when none of this matters**, that is, when a build gives the
same results and leaves the same documents as without the contracts that have no text. As documents
are independent, the two builds are compared document by document: they go on alike
(`Tracks`) until white space replaces a document, and then never become alike again
(`not_alike_of_replaced`).
-/

namespace AuditFlow

open Foundation

/-! ### Text and white space -/

/-- Nothing but white space. -/
def Blank (text : String) : Prop := ∀ c ∈ text.toList, Text.isSpace c = true

instance (text : String) : Decidable (Blank text) :=
  List.decidableBAll (fun c => Text.isSpace c = true) text.toList

/-- What the splitter does with text and white space: it neither adds text nor drops all of it. -/
structure IngestEnv.SplitsText (env : IngestEnv) : Prop where
  blank : ∀ text, Blank text →
    ∀ page ∈ env.splitDocuments chunkSize chunkOverlap text, Blank page
  text : ∀ text, ¬Blank text →
    ∃ page ∈ env.splitDocuments chunkSize chunkOverlap text, ¬Blank page

namespace JsonContract

/-- There is text to ingest. -/
def hasText (contract : JsonContract) : Bool :=
  (truthy contract.context.get).any fun context => decide ¬Blank context

/-- The context is not empty, but has white space only. -/
def isBlank (contract : JsonContract) : Bool :=
  (truthy contract.context.get).any fun context => decide (Blank context)

/-- A contract is skipped, or it is white space, or it has text. -/
theorem text_cases (contract : JsonContract) :
    (truthy contract.context.get = none ∧ contract.isBlank = false ∧ contract.hasText = false) ∨
      (∃ context, truthy contract.context.get = some context ∧ Blank context ∧
        contract.isBlank = true ∧ contract.hasText = false) ∨
      ∃ context, truthy contract.context.get = some context ∧ ¬Blank context ∧
        contract.isBlank = false ∧ contract.hasText = true := by
  rw [isBlank, hasText]
  rcases truthy contract.context.get with - | context
  · exact Or.inl ⟨rfl, rfl, rfl⟩
  · by_cases hblank : Blank context
    · exact Or.inr (Or.inl ⟨context, rfl, hblank, decide_eq_true hblank,
        decide_eq_false (not_not.mpr hblank)⟩)
    · exact Or.inr (Or.inr ⟨context, rfl, hblank, decide_eq_false hblank, decide_eq_true hblank⟩)

end JsonContract

section

variable {env : IngestEnv} {contract : Contract} {identity : Option DocumentIdentity}
  {record : DocumentRecord} {context : String}

private theorem chunkRecordFor_eq_none_iff {documentId title : String} {page : String × ℕ} :
    chunkRecordFor env documentId title page = none ↔ Blank page.1 := by
  have hempty : String.ofList (squeezeSpaces page.1.toList) = "" ↔ Blank page.1 := by
    rw [Blank, ← squeezeSpaces_eq_nil_iff, ← String.toList_inj, String.toList_ofList]
    rfl
  rw [← hempty, chunkRecordFor]
  split_ifs with hclean
  · exact iff_of_true rfl hclean
  · exact iff_of_false (by simp) hclean

/-- **White space has no chunks**, and text has some. -/
theorem chunkIds_eq_nil_iff (hsplit : env.SplitsText)
    (hrecord : recordOf env contract identity = some record)
    (hcontext : truthy contract.context = some context) :
    record.chunkIds = [] ↔ Blank context := by
  obtain ⟨context', hcontext', -, -, hchunks⟩ := buildDocumentRecord_eq_some hrecord
  obtain rfl := Option.some.inj (hcontext.symm.trans hcontext')
  rw [DocumentRecord.chunkIds, List.map_eq_nil_iff, hchunks, List.filterMap_eq_nil_iff]
  simp only [chunkRecordFor_eq_none_iff]
  constructor
  · intro h
    by_contra htext
    obtain ⟨page, hpage, hnot⟩ := hsplit.text context htext
    obtain ⟨i, hi⟩ := List.mem_iff_getElem?.mp hpage
    exact hnot (h (page, i) (List.mk_mem_zipIdx_iff_getElem?.mpr hi))
  · intro hblank page hpage
    exact hsplit.blank context hblank page.1 (List.fst_mem_of_mem_zipIdx hpage)

end

/-! ### When a build returns -/

/-- All contexts of a file are among the given texts. -/
def FileWithin (texts : List String) (data : List JsonContract) : Prop :=
  ∀ contract ∈ data, ∀ context ∈ truthy contract.context.get, context ∈ texts

/-- No context is missing or `null`. -/
def Loadable (data : List JsonContract) : Prop :=
  ∀ contract ∈ data, ∃ context, contract.context = .text context

/-- There is a FAISS store on disk, or white space comes after text only. -/
def NoBlankFirst (s : Stores) (data : List JsonContract) : Prop :=
  s.faissDisk = none → ∀ before contract after, data = before ++ contract :: after →
    contract.isBlank = true → ∃ earlier ∈ before, earlier.hasText = true

section

variable {env : IngestEnv} {texts : List String} {s s' : Stores} {contract : JsonContract}
  {identity : Option DocumentIdentity} {context : String} {data : List JsonContract}
  {identities : Dict String DocumentIdentity} {lines : List (JsonContract × IngestResult)}

/-- An update goes through unless it is white space and there is no FAISS store. -/
private theorem insert_returns_iff (hsplit : env.SplitsText) (hs : s.Sound env texts)
    (hcontext : truthy contract.context.get = some context) :
    (∃ result s', insertOrUpdateDocument env Faults.none contract.toContract identity s =
      (.ok result, s')) ↔ (Blank context → s.faiss ≠ none) := by
  obtain ⟨record, hrecord, -⟩ := exists_record env hcontext identity
  have hraises := insert_raises_iff_of_consistent hs.consistent hrecord
  have hchunks : record.chunkIds = [] ↔ Blank context :=
    chunkIds_eq_nil_iff hsplit hrecord hcontext
  rw [hchunks] at hraises
  have hfresh : s.faiss = none → ¬s.hasVersion record := by
    rintro hnone ⟨row, hrow, -⟩
    rw [hs.settled.fresh hnone] at hrow
    cases hrow
  rcases hrun : insertOrUpdateDocument env Faults.none contract.toContract identity s with
    ⟨e | result, t⟩
  · obtain ⟨-, hnone, hblank⟩ := hraises.mp ⟨t, e, hrun⟩
    refine iff_of_false (by rintro ⟨_, _, ⟨⟩⟩) fun h => h hblank hnone
  · refine iff_of_true ⟨result, t, rfl⟩ fun hblank hnone => ?_
    obtain ⟨t', e, hraise⟩ := hraises.mpr ⟨hfresh hnone, hnone, hblank⟩
    cases hrun.symm.trans hraise

variable (hinj : ∀ a ∈ texts, ∀ b ∈ texts, contentHash env a = contentHash env b → a = b)

include hinj in
theorem Stores.Sound.insert (hs : s.Sound env texts)
    (hwithin : ∀ context ∈ truthy contract.context.get, context ∈ texts) {result : IngestResult}
    (hrun : insertOrUpdateDocument env Faults.none contract.toContract identity s =
      (.ok result, s')) : s'.Sound env texts := by
  have hcall : (IngestCall.insertOrUpdate contract.toContract identity).Within texts := hwithin
  exact hs.serve hinj hcall (serve_insert_eq_some.mpr ⟨result, hrun⟩)

include hinj in
theorem Stores.Sound.buildLines (hs : s.Sound env texts) (hfile : FileWithin texts data)
    (hrun : buildLines env Faults.none identities data s = (.ok lines, s')) :
    s'.Sound env texts := by
  induction data generalizing s lines with
  | nil =>
    obtain ⟨-, rfl⟩ := buildLines_nil_ok.mp hrun
    exact hs
  | cons contract data ih =>
    obtain ⟨hwithin, hfile'⟩ := List.forall_mem_cons.mp hfile
    rcases hcontext : truthy contract.context.get with - | context
    · rw [buildLines_of_none hcontext] at hrun
      exact ih hs hfile' hrun
    · obtain ⟨result, t, rest, hinsert, hrest, -⟩ := (buildLines_cons_ok hcontext).mp hrun
      exact ih (hs.insert hinj hwithin hinsert) hfile' hrest

include hinj in
/-- **The loop returns** exactly if it does not start with white space before there is a FAISS
store. -/
theorem buildLines_returns_iff (hsplit : env.SplitsText) (hs : s.Sound env texts)
    (hfile : FileWithin texts data) :
    (∃ lines s', buildLines env Faults.none identities data s = (.ok lines, s')) ↔
      NoBlankFirst s data := by
  induction data generalizing s with
  | nil => exact iff_of_true ⟨[], s, rfl⟩ fun _ => forall_split_nil
  | cons contract data ih =>
    obtain ⟨hwithin, hfile'⟩ := List.forall_mem_cons.mp hfile
    rw [NoBlankFirst, forall_split_cons]
    rcases contract.text_cases with ⟨hnone, hblank, htext⟩ |
      ⟨context, hcontext, hspace, hblank, htext⟩ | ⟨context, hcontext, hspace, hblank, htext⟩
    · -- a contract that is skipped is neither white space nor text
      rw [buildLines_of_none hnone, ih hs hfile', NoBlankFirst]
      simp only [hblank, List.mem_cons, exists_eq_or_imp, htext, Bool.false_eq_true, false_or,
        false_implies, true_and]
    · have hreturns : (∃ result t, insertOrUpdateDocument env Faults.none contract.toContract
          (identityOf env identities context) s = (.ok result, t)) ↔ s.faiss ≠ none :=
        (insert_returns_iff hsplit hs hcontext).trans ⟨fun h => h hspace, fun h _ => h⟩
      constructor
      · rintro ⟨lines, s', hrun⟩ hdisk
        obtain ⟨result, t, rest, hinsert, -⟩ := (buildLines_cons_ok hcontext).mp hrun
        exact absurd (hs.settled.faiss.symm.trans hdisk) (hreturns.mp ⟨result, t, hinsert⟩)
      · intro hfirst
        have hstore : s.faiss ≠ none := by
          intro hnone
          obtain ⟨_, hmem, -⟩ := (hfirst (hs.settled.faiss.trans hnone)).1 hblank
          cases hmem
        obtain ⟨result, t, hinsert⟩ := hreturns.mpr hstore
        have ht := hs.insert hinj hwithin hinsert
        have hdisk : t.faissDisk ≠ none := by
          rw [ht.settled.faiss]
          exact hs.settled.faiss_ne_none hinsert
        obtain ⟨rest, s', hrest⟩ := (ih ht hfile').mpr fun h => absurd h hdisk
        exact ⟨_, s', (buildLines_cons_ok hcontext).mpr ⟨result, t, rest, hinsert, hrest, rfl⟩⟩
    · -- text is always ingested, and then there is a FAISS store
      have hreturns : ∃ result t, insertOrUpdateDocument env Faults.none contract.toContract
          (identityOf env identities context) s = (.ok result, t) :=
        (insert_returns_iff hsplit hs hcontext).mpr fun h => absurd h hspace
      obtain ⟨result, t, hinsert⟩ := hreturns
      have ht := hs.insert hinj hwithin hinsert
      have hdisk : t.faissDisk ≠ none := by
        rw [ht.settled.faiss]
        exact hs.settled.faiss_ne_none hinsert
      obtain ⟨rest, s', hrest⟩ := (ih ht hfile').mpr fun h => absurd h hdisk
      refine iff_of_true
        ⟨_, s', (buildLines_cons_ok hcontext).mpr ⟨result, t, rest, hinsert, hrest, rfl⟩⟩
        fun _ => ⟨fun h => ?_, fun before later after _ _ => ⟨contract, List.mem_cons_self, htext⟩⟩
      rw [hblank] at h
      cases h

/-! ### One update in two builds -/

theorem chunkRowIds_eq_of_part {t : Stores} {d : String} (h : s.part d = t.part d) :
    s.chunkRowIds d = t.chunkRowIds d :=
  congrArg (fun part : DocumentPart => part.chunkRows.keys.toFinset) h

include hinj in
/-- An update leaves the other documents alone, and its own without chunks if it is white space. -/
private theorem insert_onDocument (hsplit : env.SplitsText) (hs : s.Sound env texts)
    (hwithin : ∀ context ∈ truthy contract.context.get, context ∈ texts)
    (hcontext : truthy contract.context.get = some context) {result : IngestResult}
    (hrun : insertOrUpdateDocument env Faults.none contract.toContract identity s =
      (.ok result, s')) :
    (∀ d, d ≠ documentIdFor env contract.title → s'.part d = s.part d) ∧
      (s'.chunkRowIds (documentIdFor env contract.title) = ∅ ↔ Blank context) := by
  obtain ⟨record, hrecord, hid, -⟩ := exists_record env hcontext identity
  have hcall : (IngestCall.insertOrUpdate contract.toContract identity).Within texts := hwithin
  have hchunks : record.chunkIds = [] ↔ Blank context :=
    chunkIds_eq_nil_iff hsplit hrecord hcontext
  rw [← hid, hs.chunkRowIds_insert hinj hcall hrecord hrun, List.toFinset_eq_empty_iff]
  exact ⟨(part_of_insert hs.consistent hrecord hrun).2, hchunks⟩

variable {t t' : Stores} {result result' : IngestResult}

include hinj in
/-- A text that is not stored is a new version of its document. -/
private theorem bare_of_chunkRowIds (hsplit : env.SplitsText) (hs : s.Sound env texts)
    (hwithin : ∀ context ∈ truthy contract.context.get, context ∈ texts)
    (hcontext : truthy contract.context.get = some context) (htext : ¬Blank context)
    {record : DocumentRecord} (hrecord : recordOf env contract.toContract identity = some record)
    (hnone : s.chunkRowIds record.documentId = ∅) :
    (s.part record.documentId).Bare ∧ ¬(s.part record.documentId).HasVersion record := by
  refine ⟨(bare_part_iff hs.consistent.inStep).mpr hnone, fun hversion => htext ?_⟩
  have hcall : (IngestCall.insertOrUpdate contract.toContract identity).Within texts := hwithin
  have hids := hs.chunkRowIds_of_hasVersion hinj hcall hrecord hversion
  rw [hnone, eq_comm, List.toFinset_eq_empty_iff] at hids
  exact (chunkIds_eq_nil_iff hsplit hrecord hcontext).mp hids

include hinj in
/-- **A text is ingested alike** into two builds that agree on its document, or have no chunk of
it. -/
private theorem insert_alike (hsplit : env.SplitsText) (hs : s.Sound env texts)
    (ht : t.Sound env texts)
    (hwithin : ∀ context ∈ truthy contract.context.get, context ∈ texts)
    (hcontext : truthy contract.context.get = some context) (htext : ¬Blank context)
    (hrun : insertOrUpdateDocument env Faults.none contract.toContract identity s =
      (.ok result, s'))
    (hrun' : insertOrUpdateDocument env Faults.none contract.toContract identity t =
      (.ok result', t'))
    (halike : s.part (documentIdFor env contract.title) =
        t.part (documentIdFor env contract.title) ∨
      s.chunkRowIds (documentIdFor env contract.title) = ∅ ∧
        t.chunkRowIds (documentIdFor env contract.title) = ∅) :
    result = result' ∧ s'.part (documentIdFor env contract.title) =
      t'.part (documentIdFor env contract.title) := by
  obtain ⟨record, hrecord, hid, -⟩ := exists_record env hcontext identity
  rw [← hid] at halike ⊢
  have hupdate := (part_of_insert hs.consistent hrecord hrun).1
  have hupdate' := (part_of_insert ht.consistent hrecord hrun').1
  have hsame : (s.part record.documentId).ingest env record =
      (t.part record.documentId).ingest env record := by
    rcases halike with hparts | ⟨hnone, hnone'⟩
    · rw [hparts]
    · obtain ⟨hbare, hnew⟩ :=
        bare_of_chunkRowIds hinj hsplit hs hwithin hcontext htext hrecord hnone
      obtain ⟨hbare', hnew'⟩ :=
        bare_of_chunkRowIds hinj hsplit ht hwithin hcontext htext hrecord hnone'
      exact DocumentPart.ingest_congr hbare hbare' hnew hnew'
  rw [hupdate, hupdate'] at hsame
  exact Prod.mk.inj hsame

include hinj in
/-- A text has another result where its document was replaced by white space. -/
private theorem insert_differs (hsplit : env.SplitsText) (hs : s.Sound env texts)
    (ht : t.Sound env texts)
    (hwithin : ∀ context ∈ truthy contract.context.get, context ∈ texts)
    (hcontext : truthy contract.context.get = some context) (htext : ¬Blank context)
    (hrun : insertOrUpdateDocument env Faults.none contract.toContract identity s =
      (.ok result, s'))
    (hrun' : insertOrUpdateDocument env Faults.none contract.toContract identity t =
      (.ok result', t'))
    (hnone : s.chunkRowIds (documentIdFor env contract.title) = ∅)
    (hsome : t.chunkRowIds (documentIdFor env contract.title) ≠ ∅) : result ≠ result' := by
  obtain ⟨record, hrecord, hid, -⟩ := exists_record env hcontext identity
  rw [← hid] at hnone hsome
  obtain ⟨hbare, hnew⟩ := bare_of_chunkRowIds hinj hsplit hs hwithin hcontext htext hrecord hnone
  have hkeys : (t.part record.documentId).chunkRows.keys ≠ [] :=
    fun h => hsome ((List.toFinset_eq_empty_iff _).mpr h)
  have hne := DocumentPart.result_ne env hbare hnew hkeys
  rw [(part_of_insert hs.consistent hrecord hrun).1,
    (part_of_insert ht.consistent hrecord hrun').1] at hne
  exact hne

end

/-! ### Two builds -/

section

variable (env : IngestEnv) (wanted : String → Prop)

/-- The documents of the contracts with text. -/
def textDocuments (data : List JsonContract) (d : String) : Prop :=
  ∃ contract ∈ data, contract.hasText = true ∧ documentIdFor env contract.title = d

/-- White space replaces none of the given documents: no text of the document comes before it, and
no chunk is stored. -/
def NoBlankOver (s : Stores) (data : List JsonContract) : Prop :=
  ∀ before contract after, data = before ++ contract :: after → contract.isBlank = true →
    wanted (documentIdFor env contract.title) →
      (∀ earlier ∈ before, earlier.hasText = true →
        documentIdFor env earlier.title ≠ documentIdFor env contract.title) ∧
      s.chunkRowIds (documentIdFor env contract.title) = ∅

/-- Two builds agree on the given documents so far: on each of them they hold the same chunks, or
there are none yet, and its text is still to come. -/
def Tracks (s t : Stores) (data : List JsonContract) : Prop :=
  ∀ d, wanted d → (s.part d = t.part d ∧ s.chunkRowIds d ≠ ∅) ∨
    (s.chunkRowIds d = ∅ ∧ t.chunkRowIds d = ∅ ∧ textDocuments env data d)

/-- Two builds have the same results for the contracts with text, and hold the given documents
alike. -/
def Alike (lines lines' : List (JsonContract × IngestResult)) (s t : Stores) : Prop :=
  lines.filter (fun line => line.1.hasText) = lines' ∧ ∀ d, wanted d → s.part d = t.part d

/-- The contracts with text have the same identities. -/
def SameIdentities (identities identities' : Dict String DocumentIdentity)
    (data : List JsonContract) : Prop :=
  ∀ contract ∈ data, ∀ context ∈ truthy contract.context.get, contract.hasText = true →
    identityOf env identities context = identityOf env identities' context

end

section

variable {env : IngestEnv} {texts : List String} {wanted : String → Prop} {s s' t t' : Stores}
  {data : List JsonContract} {identities identities' : Dict String DocumentIdentity}
  {lines lines' : List (JsonContract × IngestResult)}

/-- A text that is to come comes now, or after the next contract. -/
private theorem textDocuments_of_cons {contract : JsonContract} {d : String}
    (h : textDocuments env (contract :: data) d)
    (hother : contract.hasText = true → documentIdFor env contract.title ≠ d) :
    textDocuments env data d := by
  obtain ⟨later, hmem, htext, hid⟩ := h
  rcases List.mem_cons.mp hmem with rfl | hmem'
  · exact absurd hid (hother htext)
  · exact ⟨later, hmem', htext, hid⟩

/-- What is skipped leaves the builds as they are. -/
private theorem Tracks.skip {contract : JsonContract}
    (h : Tracks env wanted s t (contract :: data)) (htext : contract.hasText = false) :
    Tracks env wanted s t data := by
  intro d hd
  refine (h d hd).imp_right (And.imp_right (And.imp_right fun hlater => ?_))
  exact textDocuments_of_cons hlater fun h => absurd (htext.symm.trans h) Bool.false_ne_true

/-- The one build takes in white space, and no document loses a chunk. -/
private theorem Tracks.blank {contract : JsonContract}
    (h : Tracks env wanted s t (contract :: data)) (htext : contract.hasText = false)
    (hothers : ∀ d, d ≠ documentIdFor env contract.title → s'.part d = s.part d)
    (hown : wanted (documentIdFor env contract.title) →
      s.chunkRowIds (documentIdFor env contract.title) = ∅)
    (hchunks : ∀ d, wanted d → (s'.chunkRowIds d = ∅ ↔ s.chunkRowIds d = ∅)) :
    Tracks env wanted s' t data := by
  intro d hd
  rw [Ne, hchunks d hd]
  rcases h.skip htext d hd with ⟨hparts, hsome⟩ | hnone
  · have hne : d ≠ documentIdFor env contract.title := by
      intro hsame
      obtain rfl := hsame.symm
      exact hsome (hown hd)
    exact Or.inl ⟨(hothers d hne).trans hparts, hsome⟩
  · exact Or.inr hnone

/-- Both builds take in a text, with the same effect. -/
private theorem Tracks.text {contract : JsonContract}
    (h : Tracks env wanted s t (contract :: data))
    (hothers : ∀ d, d ≠ documentIdFor env contract.title → s'.part d = s.part d)
    (hothers' : ∀ d, d ≠ documentIdFor env contract.title → t'.part d = t.part d)
    (hparts : s'.part (documentIdFor env contract.title) =
      t'.part (documentIdFor env contract.title))
    (hsome : s'.chunkRowIds (documentIdFor env contract.title) ≠ ∅) :
    Tracks env wanted s' t' data := by
  intro d hd
  rcases eq_or_ne d (documentIdFor env contract.title) with hsame | hne
  · obtain rfl := hsame.symm
    exact Or.inl ⟨hparts, hsome⟩
  · rw [chunkRowIds_eq_of_part (hothers d hne), chunkRowIds_eq_of_part (hothers' d hne),
      hothers d hne, hothers' d hne]
    refine (h d hd).imp_right (And.imp_right (And.imp_right fun hlater => ?_))
    exact textDocuments_of_cons hlater fun _ => hne.symm

private theorem noBlankOver_congr
    (h : ∀ d, wanted d → (s.chunkRowIds d = ∅ ↔ t.chunkRowIds d = ∅)) :
    NoBlankOver env wanted s data ↔ NoBlankOver env wanted t data := by
  rw [NoBlankOver, NoBlankOver]
  refine forall₃_congr fun before contract after => forall₃_congr fun _ _ hwanted => ?_
  rw [h _ hwanted]

private theorem noBlankOver_skip {contract : JsonContract} (hblank : contract.isBlank = false)
    (htext : contract.hasText = false) :
    NoBlankOver env wanted s (contract :: data) ↔ NoBlankOver env wanted s data := by
  rw [NoBlankOver, NoBlankOver, forall_split_cons]
  simp only [List.forall_mem_cons, hblank, htext, Bool.false_eq_true, false_implies, true_and]

private theorem noBlankOver_blank {contract : JsonContract} (hblank : contract.isBlank = true)
    (htext : contract.hasText = false) :
    NoBlankOver env wanted s (contract :: data) ↔
      (wanted (documentIdFor env contract.title) →
        s.chunkRowIds (documentIdFor env contract.title) = ∅) ∧
      NoBlankOver env wanted s data := by
  rw [NoBlankOver, NoBlankOver, forall_split_cons]
  simp only [List.forall_mem_cons, hblank, htext, Bool.false_eq_true, false_implies, true_and,
    true_implies, List.not_mem_nil, imp_true_iff]

/-- A text that is taken in counts as stored from then on. -/
private theorem noBlankOver_text {contract : JsonContract} (hblank : contract.isBlank = false)
    (htext : contract.hasText = true)
    (hothers : ∀ d, d ≠ documentIdFor env contract.title → s'.part d = s.part d)
    (hsome : s'.chunkRowIds (documentIdFor env contract.title) ≠ ∅) :
    NoBlankOver env wanted s (contract :: data) ↔ NoBlankOver env wanted s' data := by
  rw [NoBlankOver, NoBlankOver, forall_split_cons]
  simp only [List.forall_mem_cons, hblank, Bool.false_eq_true, false_implies, true_and]
  refine forall₃_congr fun before later after => forall₃_congr fun _ _ _ => ?_
  by_cases hid : documentIdFor env later.title = documentIdFor env contract.title
  · -- for its own document, both sides are false
    refine iff_of_false (fun h => h.1.1 htext hid.symm) fun h => ?_
    rw [hid] at h
    exact hsome h.2
  · rw [chunkRowIds_eq_of_part (hothers _ hid)]
    exact and_congr_left fun _ => and_iff_right fun _ h => hid h.symm

private theorem alike_cons_of_text {contract : JsonContract} {result result' : IngestResult}
    (htext : contract.hasText = true) :
    Alike wanted ((contract, result) :: lines) ((contract, result') :: lines') s t ↔
      result = result' ∧ Alike wanted lines lines' s t := by
  have hkeep : ((contract, result) :: lines).filter (fun line => line.1.hasText) =
      (contract, result) :: lines.filter fun line => line.1.hasText :=
    List.filter_cons_of_pos htext
  rw [Alike, Alike, hkeep, List.cons.injEq, Prod.mk.injEq, and_assoc, and_iff_right rfl]

private theorem alike_cons_of_not {contract : JsonContract} {result : IngestResult}
    (htext : contract.hasText = false) :
    Alike wanted ((contract, result) :: lines) lines' s t ↔ Alike wanted lines lines' s t := by
  have hdrop : ((contract, result) :: lines).filter (fun line => line.1.hasText) =
      lines.filter fun line => line.1.hasText :=
    List.filter_cons_of_neg fun h => Bool.false_ne_true (htext.symm.trans h)
  rw [Alike, Alike, hdrop]

variable (hinj : ∀ a ∈ texts, ∀ b ∈ texts, contentHash env a = contentHash env b → a = b)

include hinj in
/-- **What white space has replaced** is not made good by the rest of the build: either the next
text of the document has another result, or the document ends without chunks. -/
theorem not_alike_of_replaced (hsplit : env.SplitsText) (hs : s.Sound env texts)
    (ht : t.Sound env texts) (hfile : FileWithin texts data)
    (hsame : SameIdentities env identities identities' data)
    (hrun : buildLines env Faults.none identities data s = (.ok lines, s'))
    (hrun' : buildLines env Faults.none identities' (data.filter (·.hasText)) t =
      (.ok lines', t'))
    {d : String} (hwanted : wanted d) (hnone : s.chunkRowIds d = ∅)
    (hsome : t.chunkRowIds d ≠ ∅) : ¬Alike wanted lines lines' s' t' := by
  induction data generalizing s t lines lines' with
  | nil =>
    obtain ⟨-, rfl⟩ := buildLines_nil_ok.mp hrun
    obtain ⟨-, rfl⟩ := buildLines_nil_ok.mp hrun'
    rintro ⟨-, hparts⟩
    rw [chunkRowIds_eq_of_part (hparts d hwanted)] at hnone
    exact hsome hnone
  | cons contract data ih =>
    obtain ⟨hwithin, hfile'⟩ := List.forall_mem_cons.mp hfile
    obtain ⟨hidentity, hsame'⟩ := List.forall_mem_cons.mp hsame
    rcases contract.text_cases with ⟨hskip, -, htext⟩ |
      ⟨context, hcontext, hspace, -, htext⟩ | ⟨context, hcontext, hspace, -, htext⟩
    · rw [buildLines_of_none hskip] at hrun
      rw [List.filter_cons_of_neg (by simp [htext])] at hrun'
      exact ih hs ht hfile' hsame' hrun hrun' hnone hsome
    · obtain ⟨result, s₁, rest, hinsert, hrest, rfl⟩ := (buildLines_cons_ok hcontext).mp hrun
      rw [List.filter_cons_of_neg (by simp [htext])] at hrun'
      obtain ⟨hothers, hown⟩ := insert_onDocument hinj hsplit hs hwithin hcontext hinsert
      have hnone' : s₁.chunkRowIds d = ∅ := by
        rcases eq_or_ne d (documentIdFor env contract.title) with hsame | hne
        · obtain rfl := hsame.symm
          exact hown.mpr hspace
        · rw [chunkRowIds_eq_of_part (hothers d hne)]
          exact hnone
      rw [alike_cons_of_not htext]
      exact ih (hs.insert hinj hwithin hinsert) ht hfile' hsame' hrest hrun' hnone' hsome
    · rw [List.filter_cons_of_pos htext] at hrun'
      obtain ⟨result, s₁, rest, hinsert, hrest, rfl⟩ := (buildLines_cons_ok hcontext).mp hrun
      obtain ⟨result', t₁, rest', hinsert', hrest', rfl⟩ := (buildLines_cons_ok hcontext).mp hrun'
      rw [← hidentity context hcontext htext] at hinsert'
      rw [alike_cons_of_text htext]
      rintro ⟨hresult, halike⟩
      rcases eq_or_ne d (documentIdFor env contract.title) with hsame | hne
      · obtain rfl := hsame.symm
        exact insert_differs hinj hsplit hs ht hwithin hcontext hspace hinsert hinsert' hnone hsome
          hresult
      · have hkeep := (insert_onDocument hinj hsplit hs hwithin hcontext hinsert).1 d hne
        have hkeep' := (insert_onDocument hinj hsplit ht hwithin hcontext hinsert').1 d hne
        rw [← chunkRowIds_eq_of_part hkeep] at hnone
        rw [← chunkRowIds_eq_of_part hkeep'] at hsome
        exact ih (hs.insert hinj hwithin hinsert) (ht.insert hinj hwithin hinsert') hfile' hsame'
          hrest hrest' hnone hsome halike

include hinj in
/-- **Two builds stay alike** exactly if white space replaces none of the documents. -/
theorem alike_iff (hsplit : env.SplitsText) (hs : s.Sound env texts) (ht : t.Sound env texts)
    (hfile : FileWithin texts data) (hsame : SameIdentities env identities identities' data)
    (hrun : buildLines env Faults.none identities data s = (.ok lines, s'))
    (hrun' : buildLines env Faults.none identities' (data.filter (·.hasText)) t =
      (.ok lines', t'))
    (hwanted : ∀ contract ∈ data, contract.hasText = true →
      wanted (documentIdFor env contract.title))
    (htracks : Tracks env wanted s t data) :
    Alike wanted lines lines' s' t' ↔ NoBlankOver env wanted s data := by
  induction data generalizing s t lines lines' with
  | nil =>
    obtain ⟨rfl, rfl⟩ := buildLines_nil_ok.mp hrun
    obtain ⟨rfl, rfl⟩ := buildLines_nil_ok.mp hrun'
    refine iff_of_true ⟨rfl, fun d hd => ?_⟩ forall_split_nil
    rcases htracks d hd with ⟨hparts, -⟩ | ⟨-, -, contract, hmem, -⟩
    · exact hparts
    · cases hmem
  | cons contract data ih =>
    obtain ⟨hwithin, hfile'⟩ := List.forall_mem_cons.mp hfile
    obtain ⟨hidentity, hsame'⟩ := List.forall_mem_cons.mp hsame
    obtain ⟨hfirst, hwanted'⟩ := List.forall_mem_cons.mp hwanted
    rcases contract.text_cases with ⟨hskip, hblank, htext⟩ |
      ⟨context, hcontext, hspace, hblank, htext⟩ | ⟨context, hcontext, hspace, hblank, htext⟩
    · -- nothing happens
      rw [buildLines_of_none hskip] at hrun
      rw [List.filter_cons_of_neg (by simp [htext])] at hrun'
      rw [noBlankOver_skip hblank htext]
      exact ih hs ht hfile' hsame' hrun hrun' hwanted' (htracks.skip htext)
    · -- white space takes the chunks of its document away, if it has any
      obtain ⟨result, s₁, rest, hinsert, hrest, rfl⟩ := (buildLines_cons_ok hcontext).mp hrun
      rw [List.filter_cons_of_neg (by simp [htext])] at hrun'
      have hs₁ := hs.insert hinj hwithin hinsert
      obtain ⟨hothers, hown⟩ := insert_onDocument hinj hsplit hs hwithin hcontext hinsert
      rw [alike_cons_of_not htext, noBlankOver_blank hblank htext]
      by_cases hnone : wanted (documentIdFor env contract.title) →
          s.chunkRowIds (documentIdFor env contract.title) = ∅
      · have hchunks : ∀ d, wanted d → (s₁.chunkRowIds d = ∅ ↔ s.chunkRowIds d = ∅) := by
          intro d hd
          rcases eq_or_ne d (documentIdFor env contract.title) with hsame | hne
          · obtain rfl := hsame.symm
            exact iff_of_true (hown.mpr hspace) (hnone hd)
          · rw [chunkRowIds_eq_of_part (hothers d hne)]
        have htracks' := htracks.blank htext hothers hnone hchunks
        rw [and_iff_right hnone, ← noBlankOver_congr hchunks]
        exact ih hs₁ ht hfile' hsame' hrest hrun' hwanted' htracks'
      · obtain ⟨hd, hsome⟩ := Classical.not_imp.mp hnone
        refine iff_of_false ?_ fun h => hnone h.1
        refine not_alike_of_replaced hinj hsplit hs₁ ht hfile' hsame' hrest hrun' hd
          (hown.mpr hspace) ?_
        rcases htracks _ hd with ⟨hparts, -⟩ | ⟨hempty, -⟩
        · rw [← chunkRowIds_eq_of_part hparts]
          exact hsome
        · exact absurd hempty hsome
    · -- text is ingested into both builds
      rw [List.filter_cons_of_pos htext] at hrun'
      obtain ⟨result, s₁, rest, hinsert, hrest, rfl⟩ := (buildLines_cons_ok hcontext).mp hrun
      obtain ⟨result', t₁, rest', hinsert', hrest', rfl⟩ := (buildLines_cons_ok hcontext).mp hrun'
      rw [← hidentity context hcontext htext] at hinsert'
      have hs₁ := hs.insert hinj hwithin hinsert
      have ht₁ := ht.insert hinj hwithin hinsert'
      obtain ⟨hothers, hown⟩ := insert_onDocument hinj hsplit hs hwithin hcontext hinsert
      have hothers' := (insert_onDocument hinj hsplit ht hwithin hcontext hinsert').1
      have hsome : s₁.chunkRowIds (documentIdFor env contract.title) ≠ ∅ :=
        fun h => hspace (hown.mp h)
      obtain ⟨hresult, hparts⟩ := insert_alike hinj hsplit hs ht hwithin hcontext hspace hinsert
        hinsert' ((htracks _ (hfirst htext)).imp And.left fun h => ⟨h.1, h.2.1⟩)
      have htracks' := htracks.text hothers hothers' hparts hsome
      rw [alike_cons_of_text htext, and_iff_right hresult,
        noBlankOver_text hblank htext hothers hsome]
      exact ih hs₁ ht₁ hfile' hsame' hrest hrest' hwanted' htracks'

end

/-! ### Builds with and without textless contracts -/

/-- The build returns, and ingests every contract with text as if the others were absent: with the
same results, and such that the next process finds the same of its document. -/
def SkipsTextless (env : IngestEnv) (cache : Dict String DocumentIdentity)
    (data : List JsonContract) (s : Stores) : Prop :=
  ∃ report s', build env Faults.none cache data s = (.ok report, s') ∧
    ∃ report' t, build env Faults.none cache (data.filter (·.hasText)) s = (.ok report', t) ∧
      Alike (textDocuments env data) report.lines report'.lines s'.opened t.opened

section

variable {env : IngestEnv} {texts : List String} {s : Stores} {data : List JsonContract}
  {cache identities identities' : Dict String DocumentIdentity}

theorem Stores.Settled.opened_eq (h : s.Settled) : s.opened = s := by
  obtain ⟨faiss, faissDisk, bm25, bm25Disk, documents, chunks, indexVersion⟩ := s
  obtain rfl : faissDisk = faiss := h.faiss
  obtain rfl : bm25Disk.getD .empty = bm25 := h.bm25
  rfl

private theorem context_of_truthy {contract : JsonContract} {context : String}
    (h : truthy contract.context.get = some context) : contract.context = .text context := by
  obtain ⟨hget, -⟩ := truthy_eq_some_iff.mp h
  rcases hcontext : contract.context with - | - | text
  · rw [hcontext] at hget
    cases hget
  · rw [hcontext] at hget
    cases hget
  · rw [hcontext] at hget
    exact congrArg ContextField.text (Option.some.inj hget)

private theorem sameIdentities_of_load (h : loadCachedIdentities env cache data = .ok identities)
    (h' : loadCachedIdentities env cache (data.filter (·.hasText)) = .ok identities') :
    SameIdentities env identities identities' data := by
  intro contract hmem context hcontext htext
  have hfield := context_of_truthy hcontext
  have hmem' : contract ∈ data.filter (·.hasText) := List.mem_filter.mpr ⟨hmem, htext⟩
  exact (get?_loadCachedIdentities h hmem hfield).trans
    (get?_loadCachedIdentities h' hmem' hfield).symm

/-- Without textless contracts, a build returns. -/
private theorem filter_returns (hsplit : env.SplitsText)
    (hinj : ∀ a ∈ texts, ∀ b ∈ texts, contentHash env a = contentHash env b → a = b)
    (hs : s.Sound env texts) (hfile : FileWithin texts data)
    (cache : Dict String DocumentIdentity) :
    (∃ identities', loadCachedIdentities env cache (data.filter (·.hasText)) = .ok identities') ∧
      ∀ identities', ∃ lines' t, buildLines env Faults.none identities'
        (data.filter (·.hasText)) s = (.ok lines', t) := by
  constructor
  · refine exists_loadCachedIdentities_iff.mpr fun contract hmem => ?_
    obtain ⟨context, hcontext, -⟩ := (Option.any_eq_true _ _).mp (List.mem_filter.mp hmem).2
    exact ⟨context, context_of_truthy hcontext⟩
  · intro identities'
    have hfile' : FileWithin texts (data.filter (·.hasText)) :=
      fun contract hmem => hfile contract (List.mem_filter.mp hmem).1
    refine (buildLines_returns_iff hinj hsplit hs hfile').mpr ?_
    intro _ before contract after hsplit' hblank
    have hmem : contract ∈ data.filter (·.hasText) := by
      rw [hsplit']
      exact List.mem_append_right before List.mem_cons_self
    -- nothing in the file is both text and white space
    rcases contract.text_cases with ⟨-, hnot, -⟩ | ⟨-, -, -, -, hnot⟩ | ⟨-, -, -, hnot, -⟩
    · cases hnot.symm.trans hblank
    · cases hnot.symm.trans (List.mem_filter.mp hmem).2
    · cases hnot.symm.trans hblank

private theorem tracks_self : Tracks env (textDocuments env data) s s data := by
  intro d hd
  by_cases hnone : s.chunkRowIds d = ∅
  · exact Or.inr ⟨hnone, hnone, hd⟩
  · exact Or.inl ⟨rfl, hnone⟩

/-- **Contracts without text are skipped** exactly if no context is missing or `null`, white space
does not come first where there is no FAISS store yet, and it does not come after a text of its
document. -/
theorem textless_skipped_iff (hsplit : env.SplitsText)
    (hinj : ∀ a ∈ texts, ∀ b ∈ texts, contentHash env a = contentHash env b → a = b)
    (hreach : ReachWhere (serve env) (fun _ call => call.Within texts) {} s)
    (hfile : FileWithin texts data) (cache : Dict String DocumentIdentity) :
    SkipsTextless env cache data s ↔ Loadable data ∧ NoBlankFirst s data ∧
      NoBlankOver env (textDocuments env data) s data := by
  have hs := sound_of_reach hinj hreach
  have hopened := hs.settled.opened_eq
  have hwanted : ∀ contract ∈ data, contract.hasText = true →
      textDocuments env data (documentIdFor env contract.title) :=
    fun contract hmem htext => ⟨contract, hmem, htext, rfl⟩
  have hfile' : FileWithin texts (data.filter (·.hasText)) :=
    fun contract hmem => hfile contract (List.mem_filter.mp hmem).1
  constructor
  · rintro ⟨report, s', hbuild, report', t, hbuild', halike⟩
    obtain ⟨identities, lines, hload, hlines, rfl⟩ := build_ok.mp hbuild
    obtain ⟨identities', lines', hload', hlines', rfl⟩ := build_ok.mp hbuild'
    rw [hopened] at hlines hlines'
    rw [(hs.buildLines hinj hfile hlines).settled.opened_eq,
      (hs.buildLines hinj hfile' hlines').settled.opened_eq] at halike
    refine ⟨exists_loadCachedIdentities_iff.mp ⟨identities, hload⟩,
      (buildLines_returns_iff hinj hsplit hs hfile).mp ⟨lines, s', hlines⟩, ?_⟩
    exact (alike_iff hinj hsplit hs hs hfile (sameIdentities_of_load hload hload') hlines hlines'
      hwanted tracks_self).mp halike
  · rintro ⟨hloadable, hfirst, hover⟩
    have hloads : ∃ identities, loadCachedIdentities env cache data = .ok identities :=
      exists_loadCachedIdentities_iff.mpr hloadable
    obtain ⟨identities, hload⟩ := hloads
    obtain ⟨lines, s', hlines⟩ := (buildLines_returns_iff hinj hsplit hs hfile).mpr hfirst
    obtain ⟨⟨identities', hload'⟩, hreturns⟩ := filter_returns hsplit hinj hs hfile cache
    obtain ⟨lines', t, hlines'⟩ := hreturns identities'
    have halike := (alike_iff hinj hsplit hs hs hfile (sameIdentities_of_load hload hload') hlines
      hlines' hwanted tracks_self).mpr hover
    refine ⟨BuildReport.of lines, s', build_ok.mpr ⟨identities, lines, hload, ?_, rfl⟩,
      BuildReport.of lines', t, build_ok.mpr ⟨identities', lines', hload', ?_, rfl⟩, ?_⟩
    · rw [hopened]
      exact hlines
    · rw [hopened]
      exact hlines'
    · rw [(hs.buildLines hinj hfile hlines).settled.opened_eq,
        (hs.buildLines hinj hfile' hlines').settled.opened_eq]
      exact halike

end

theorem splitsText_registryEnv : registryEnv.SplitsText := by
  constructor
  · intro text hblank page hpage
    have hnone : registryEnv.splitDocuments chunkSize chunkOverlap text = [] :=
      if_pos (List.all_eq_true.mpr hblank)
    rw [hnone] at hpage
    cases hpage
  · intro text htext
    have hsome : registryEnv.splitDocuments chunkSize chunkOverlap text = [text] :=
      if_neg fun hall => htext (List.all_eq_true.mp hall)
    rw [hsome]
    exact ⟨text, List.mem_singleton_self text, htext⟩

/-- A contract with text, and white space under another title. -/
def blankFile : List JsonContract := [⟨"Alpha", .text "one"⟩, ⟨"Beta", .text " "⟩]

/-- `textless_skipped_iff` for white space that is skipped. -/
theorem textless_skipped_iff_blank : SkipsTextless registryEnv .empty blankFile {} := by
  have hinj : ∀ a ∈ [" ", "one", "two"], ∀ b ∈ [" ", "one", "two"],
      contentHash registryEnv a = contentHash registryEnv b → a = b := by
    decide +kernel
  have hfile : FileWithin [" ", "one", "two"] blankFile := by
    intro contract hmem
    revert contract
    decide
  have hother : ¬textDocuments registryEnv blankFile (documentIdFor registryEnv "Beta") := by
    rintro ⟨contract, hmem, htext, hid⟩
    revert contract
    decide +kernel
  refine (textless_skipped_iff splitsText_registryEnv hinj ReachWhere.start hfile .empty).mpr
    ⟨?_, fun _ => ?_, ?_⟩
  · intro contract hmem
    rcases List.mem_pair.mp hmem with rfl | rfl
    · exact ⟨_, rfl⟩
    · exact ⟨_, rfl⟩
  · rw [blankFile, forall_split_cons, forall_split_cons]
    refine ⟨by decide, fun _ => ⟨_, List.mem_cons_self, by decide⟩, forall_split_nil⟩
  · rw [NoBlankOver, blankFile, forall_split_cons, forall_split_cons]
    refine ⟨fun h => absurd h (by decide), fun _ hwanted => absurd hwanted hother, ?_⟩
    exact forall_split_nil

/-- A contract with text, and one without context. -/
def missingFile : List JsonContract := [⟨"Alpha", .text "one"⟩, ⟨"Beta", .missing⟩]

/-- **A contract that is not skipped**: its context is missing, which the preflight check lets pass,
and the build raises. -/
theorem textless_not_skipped : preflight registryEnv none missingFile = true ∧
    (build registryEnv Faults.none .empty missingFile {}).1.isOk = false ∧
      ¬SkipsTextless registryEnv .empty missingFile {} := by
  have hraises : (build registryEnv Faults.none .empty missingFile {}).1.isOk = false := by
    decide +kernel
  refine ⟨by decide +kernel, hraises, ?_⟩
  rintro ⟨report, s', hbuild, -⟩
  rw [hbuild] at hraises
  cases hraises

end AuditFlow
