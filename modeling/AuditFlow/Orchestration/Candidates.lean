import AuditFlow.Ingest.Agreement
import AuditFlow.Orchestration.Selections
import Mathlib.Tactic.NormNum

/-!
# The candidates of a clarification

A user who is asked back is offered the documents of a reranked list that no document dominates.
Such a list has **at least two documents** (`offersChoice_of_spread`), and what is offered later is
what was offered when the question was first asked back (`askedBack_of_pending`): so every
clarification of every run offers a choice, `clarification_offers_choice`.

Can each offer be taken? The ids are slugs of titles, without white space and question marks, but a
slug may be one of the words that open a question. `Turn.Chooses` says that the message of a turn is
handled as the choice of a document, `candidate_chosen_iff` when sending an offered id is.
-/

namespace AuditFlow

open Foundation

/-! ### A choice -/

/-- The candidates are at least two different ones of the documents. -/
structure OffersChoice (candidates documents : List String) : Prop where
  two : 2 ≤ candidates.length
  distinct : candidates.Nodup
  offered : ∀ d ∈ candidates, d ∈ documents

/-- **A ranking that no document dominates has two documents.** With a single one, all of the chunks
would be its own. -/
theorem offersChoice_of_spread {results : List (ChunkRecord × ℚ)} {report : ConsistencyReport}
    (h : checkDocementConsistency results = .ok report) (hspread : report.concentration < 3 / 5) :
    OffersChoice report.contractBreakdown.keys (results.map fun r => r.1.documentId) := by
  have hkeys := checkDocementConsistency_keys h
  obtain ⟨top, htop, -, hshare⟩ := checkDocementConsistency_share h
  refine ⟨?_, report.contractBreakdown.keys_nodup, fun d hd => ?_⟩
  · by_contra hfew
    have hsingle : ∀ d ∈ report.contractBreakdown.keys, d = top := by
      have hlength : report.contractBreakdown.keys.length = 1 := by
        have hpos := List.length_pos_of_mem htop
        omega
      obtain ⟨only, honly⟩ := List.length_eq_one_iff.mp hlength
      intro d hd
      rw [honly, List.mem_singleton] at hd htop
      rw [hd, htop]
    have hall : (results.countP fun r => r.1.documentId = top) = results.length := by
      refine List.countP_eq_length.mpr fun r hr => decide_eq_true ?_
      exact hsingle _ ((hkeys _).mpr ⟨r, hr, rfl⟩)
    obtain ⟨r, hr, -⟩ := (hkeys top).mp htop
    have hpos : (results.length : ℚ) ≠ 0 := by
      exact_mod_cast (List.length_pos_of_mem hr).ne'
    rw [hshare, hall, div_self hpos] at hspread
    norm_num at hspread
  · obtain ⟨r, hr, hrd⟩ := (hkeys d).mp hd
    exact List.mem_map.mpr ⟨r, hr, hrd⟩

/-! ### Who asked back first -/

/-- The turn is a message of its own that is asked back, after its retrieval gave `context`. -/
structure Turn.AsksBack (t : Turn) (s : SessionState) (context : RetrievalContext) : Prop where
  fresh : t.selects s = false
  retrieves : ∃ c₁, Retrieves t.world t.question { session := s } context c₁
  spread : context.consistency.concentration < 3 / 5
  answer : (t.call s).1 = .ok (.needClarification context.consistency.contractBreakdown.keys)

/-- In the run, `pending` was asked back with the candidates, and every clarification since then was
the answer to a selection and repeats them. -/
def AskedBack (turns : List Turn) (pending : String) (candidates : List String) : Prop :=
  ∃ before asker after context, turns = before ++ asker :: after ∧ asker.question = pending ∧
    asker.AsksBack (sessionAfter {} before) context ∧
    candidates = context.consistency.contractBreakdown.keys ∧
    ∀ e ∈ clarifications (transcript (asker.next (sessionAfter {} before)) after),
      e.selects = true ∧ e.response = .needClarification candidates

section

variable {turns : List Turn} {t : Turn} {pending : String} {candidates : List String}

theorem sessionAfter_split (s : SessionState) (before : List Turn) (asker : Turn)
    (after : List Turn) : sessionAfter s (before ++ asker :: after) =
      sessionAfter (asker.next (sessionAfter s before)) after := by
  rw [sessionAfter, List.foldl_append]
  rfl

/-- A turn that asks nothing new back leaves the first asker as it was. -/
private theorem AskedBack.next (h : AskedBack turns pending candidates)
    (hsaid : ∀ e ∈ clarifications (t.said (sessionAfter {} turns)),
      e.selects = true ∧ e.response = .needClarification candidates) :
    AskedBack (turns ++ [t]) pending candidates := by
  obtain ⟨before, asker, after, context, rfl, hquestion, hasks, hcandidates, hrepeats⟩ := h
  refine ⟨before, asker, after ++ [t], context, ?_, hquestion, hasks, hcandidates, ?_⟩
  · rw [List.append_assoc, List.cons_append]
  · rw [transcript_append, clarifications_append, ← sessionAfter_split]
    intro e he
    rcases List.mem_append.mp he with he | he
    · exact hrepeats e he
    · exact hsaid e he

/-- What a turn says that asks nothing back. -/
private theorem clarifications_said_eq_nil {s : SessionState}
    (h : ∀ response, (t.call s).1 = .ok response → response.status ≠ .needClarification) :
    clarifications (t.said s) = [] := by
  rw [Turn.said]
  rcases hr : (t.call s).1 with e | response
  · rfl
  · have hstatus := h response hr
    simp [clarifications, Exchange.clarifies, hstatus]

private theorem askedBack_of_dropsOrKeeps {c' : Ctx}
    (ih : ∀ pending, (sessionAfter {} turns).pendingQuestion = some pending →
      AskedBack turns pending (sessionAfter {} turns).pendingCandidates)
    (hquiet : ∀ response, (t.call (sessionAfter {} turns)).1 = .ok response →
      response.status ≠ .needClarification)
    (h : DropsOrKeeps { session := sessionAfter {} turns } c')
    (hpending : c'.session.pendingQuestion = some pending) :
    AskedBack (turns ++ [t]) pending c'.session.pendingCandidates := by
  rcases h with hnone | ⟨hquestion, hcandidates⟩
  · rw [hnone] at hpending
    cases hpending
  · rw [hquestion] at hpending
    rw [hcandidates]
    refine (ih pending hpending).next fun e he => ?_
    rw [clarifications_said_eq_nil hquiet] at he
    cases he

/-- The response and the session of a turn that returned. -/
private theorem next_of_ok {s : SessionState} {response : AskResponse} {c' : Ctx}
    (h : t.call s = (.ok response, c')) : t.next s = c'.session := by
  rw [Turn.next, h]

/-- **Who asked first.** In every run, what is pending was asked back by one of the turns, with the
candidates that are pending, and since then it has only been repeated. -/
theorem askedBack_of_pending (turns : List Turn) :
    ∀ pending, (sessionAfter {} turns).pendingQuestion = some pending →
      AskedBack turns pending (sessionAfter {} turns).pendingCandidates := by
  induction turns using List.reverseRecOn with
  | nil =>
    intro pending hpending
    cases hpending
  | append_singleton turns t ih =>
    intro pending hpending
    rw [sessionAfter_append] at hpending ⊢
    rcases hcall : t.call (sessionAfter {} turns) with ⟨e | response, c'⟩
    · have hquiet : ∀ response, (t.call (sessionAfter {} turns)).1 = .ok response →
          response.status ≠ .needClarification := by
        intro response hok
        rw [hcall] at hok
        cases hok
      rw [Turn.next, hcall] at hpending ⊢
      dsimp only at hpending ⊢
      split_ifs at hpending ⊢
      · exact askedBack_of_dropsOrKeeps ih hquiet (ask_error_pending hcall) hpending
      · exact askedBack_of_dropsOrKeeps ih hquiet (Std.Refl.refl _) hpending
    · rw [next_of_ok hcall] at hpending ⊢
      have hsaid : t.said (sessionAfter {} turns) =
          [⟨t.question, t.selects (sessionAfter {} turns), response⟩] := by
        rw [Turn.said, hcall]
      cases clarify_exit hcall with
      | repeats hselects =>
        refine (ih pending hpending).next fun e he => ?_
        have he' : e ∈ t.said (sessionAfter {} turns) := (List.mem_filter.mp he).1
        rw [hsaid, List.mem_singleton] at he'
        rw [he', selects_iff.mpr ⟨_, hselects⟩]
        exact ⟨rfl, rfl⟩
      | @asks context c₃ hfalls hspread =>
        obtain ⟨c₁, c₂, hretrieves, -⟩ := hfalls.retrieves
        obtain rfl : t.question = pending := Option.some.inj hpending
        refine ⟨turns, t, [], context, rfl, rfl, ?_, rfl, ?_⟩
        · exact ⟨hfalls.selects_eq_false, ⟨c₁, hretrieves⟩, hspread, by rw [hcall]⟩
        · intro e he
          cases he
      | quiet hstatus hdrops =>
        refine askedBack_of_dropsOrKeeps ih (fun response' hok => ?_) hdrops hpending
        rw [hcall] at hok
        obtain rfl := Except.ok.inj hok
        exact hstatus

/-- A clarification leaves the question pending with the candidates that it offers. -/
theorem pending_of_clarification {w : World} {question : String} {c c' : Ctx}
    {response : AskResponse} (h : ask w question c = (.ok response, c'))
    (hstatus : response.status = .needClarification) :
    response = .needClarification c'.session.pendingCandidates ∧
      ∃ pending, c'.session.pendingQuestion = some pending := by
  cases clarify_exit h with
  | repeats hselects => exact ⟨rfl, _, (truthy_eq_some_iff.mp hselects.1).1⟩
  | asks => exact ⟨rfl, _, rfl⟩
  | quiet hquiet => exact absurd hstatus hquiet

end

/-- What was asked back offers a choice among the documents that its turn retrieved. -/
theorem Turn.AsksBack.offersChoice {t : Turn} {s : SessionState} {context : RetrievalContext}
    (h : t.AsksBack s context) : OffersChoice context.consistency.contractBreakdown.keys
      (context.chunks.map (·.documentId)) := by
  obtain ⟨c₁, hretrieves⟩ := h.retrieves
  obtain ⟨hcontext, -⟩ := call_eq_ok_iff.mp hretrieves.2
  obtain ⟨reranked, hreport, hchunks⟩ := getVerificationContext_eq_ok hcontext
  have hchoice := offersChoice_of_spread hreport h.spread
  have hdocuments : context.chunks.map (·.documentId) =
      reranked.map fun r => r.1.documentId := by
    rw [hchunks, List.map_map]
    rfl
  rwa [hdocuments]

/-- **A clarification always offers a choice.** Every report on a ranking that no document dominates
lists two of its documents; and in every run, whatever a call asks back was first asked back by one
of the turns up to it, and offers a choice among the documents that this turn retrieved. -/
theorem clarification_offers_choice :
    (∀ (results : List (ChunkRecord × ℚ)) (report : ConsistencyReport),
      checkDocementConsistency results = .ok report → report.concentration < 3 / 5 →
        OffersChoice report.contractBreakdown.keys (results.map fun r => r.1.documentId)) ∧
    ∀ (turns : List Turn) (t : Turn) (response : AskResponse) (c' : Ctx),
      t.call (sessionAfter {} turns) = (.ok response, c') →
      response.status = .needClarification →
      ∃ before asker after context, turns ++ [t] = before ++ asker :: after ∧
        asker.AsksBack (sessionAfter {} before) context ∧
        (∀ e ∈ clarifications (transcript (asker.next (sessionAfter {} before)) after),
          e.selects = true ∧ e.response = response) ∧
        OffersChoice response.candidateContracts (context.chunks.map (·.documentId)) := by
  refine ⟨fun _ _ => offersChoice_of_spread, fun turns t response c' hcall hstatus => ?_⟩
  obtain ⟨hresponse, pending, hpending⟩ := pending_of_clarification hcall hstatus
  have hsession : sessionAfter {} (turns ++ [t]) = c'.session := by
    rw [sessionAfter_append, next_of_ok hcall]
  have hasked : AskedBack (turns ++ [t]) pending c'.session.pendingCandidates := by
    rw [← hsession] at hpending ⊢
    exact askedBack_of_pending (turns ++ [t]) pending hpending
  obtain ⟨before, asker, after, context, hsplit, -, hasks, hcandidates, hrepeats⟩ := hasked
  rw [← hresponse] at hrepeats
  refine ⟨before, asker, after, context, hsplit, hasks, hrepeats, ?_⟩
  have hchoice := hasks.offersChoice
  rw [← hcandidates] at hchoice
  rw [hresponse]
  exact hchoice

/-- `clarification_offers_choice` after a turn that asks back. -/
theorem clarification_offers_choice_repeated :
    ∃ before asker after context, [spreadTurn] ++ [sampleTurn [] "neither"] =
        before ++ asker :: after ∧ asker.AsksBack (sessionAfter {} before) context ∧
      (∀ e ∈ clarifications (transcript (asker.next (sessionAfter {} before)) after),
        e.selects = true ∧ e.response = .needClarification ["B", "A"]) ∧
      OffersChoice ["B", "A"] (context.chunks.map (·.documentId)) := by
  have hcall : ((sampleTurn [] "neither").call (sessionAfter {} [spreadTurn])).1 =
      .ok (.needClarification ["B", "A"]) := by decide +kernel
  exact clarification_offers_choice.2 [spreadTurn] (sampleTurn [] "neither") _ _
    (Exc.eq_of_fst hcall) rfl

/-! ### Taking an offer -/

/-- The message of the turn is handled as the choice of the document. -/
structure Turn.Chooses (t : Turn) (s : SessionState) (d : String) : Prop where
  selects : t.selects s = true
  chosen : chosenDocumentId t.question = d
  offered : d ∈ s.pendingCandidates

/-- What `_resolve_pending_selection` does for a document that was offered. -/
def answerChosen (w : World) (resolvedQuestion chosenDocumentId : String) : Ask AskResponse := do
  setState fun state => { state with pendingQuestion := none, pendingCandidates := [] }
  match ← answerWithRetry w resolvedQuestion chosenDocumentId with
  | none => return .lowRelevance (some chosenDocumentId)
  | some result =>
    setState fun state => { state with activeContract := some chosenDocumentId }
    verifyAnswer w result chosenDocumentId

/-- A choice is answered for the pending question. -/
theorem Turn.Chooses.call {t : Turn} {s : SessionState} {d : String} (h : t.Chooses s d) :
    ∃ pending, s.pendingQuestion = some pending ∧
      t.call s = answerChosen t.world pending d { session := s } := by
  obtain ⟨pending, hpending, hlooks⟩ := selects_iff.mp h.selects
  refine ⟨pending, (truthy_eq_some_iff.mp hpending).1, ?_⟩
  have hoffered : String.ofList (Text.strip t.question.toList) ∈ s.pendingCandidates := by
    have hchosen := h.chosen
    rw [chosenDocumentId] at hchosen
    rw [hchosen]
    exact h.offered
  rw [Turn.call, ask, getState_bind]
  dsimp only at hpending ⊢
  rw [hpending]
  dsimp only
  rw [if_pos hlooks, resolvePendingSelection, getState_bind]
  dsimp only
  rw [if_pos hoffered, answerChosen, ← h.chosen]
  rfl

/-- The documents of every index snapshot are named after titles. -/
def World.NamesDocuments (env : IngestEnv) (w : World) : Prop :=
  ∀ n index, w.indexes n = .ok index → ∀ chunk ∈ index.corpus.values,
    ∃ title, chunk.documentId = documentIdFor env title

section

variable {d : String}

private theorem strip_documentId (hd : ∀ c ∈ d.toList, IsIdChar c) :
    Text.strip d.toList = d.toList :=
  Text.stripBy_eq_self fun c hc => (hd c hc).not_isSpace

/-- A document id names itself. -/
theorem chosenDocumentId_documentId (hd : ∀ c ∈ d.toList, IsIdChar c) :
    chosenDocumentId d = d := by
  rw [chosenDocumentId, strip_documentId hd, String.ofList_toList]

/-- The first word of a document id is the id. -/
private theorem firstWord_documentId (hd : ∀ c ∈ d.toList, IsIdChar c) :
    String.ofList ((Text.words d.toList).headD []) = d := by
  rcases eq_or_ne d.toList [] with hnil | hne
  · rw [hnil]
    exact String.toList_inj.mp hnil.symm
  · rw [Text.words_of_noSpace (fun c hc => (hd c hc).not_isSpace) hne, List.headD_cons,
      String.ofList_toList]

/-- **A document id looks like a selection** unless it is a question word. -/
theorem looksLikeContractSelection_documentId (rt : Runtime) (hd : ∀ c ∈ d.toList, IsIdChar c) :
    looksLikeContractSelection rt d = true ↔ d ∉ questionWords := by
  have hlast : d.toList.getLast? ≠ some '?' := by
    intro h
    exact (hd '?' (List.mem_of_getLast? h)).ne_questionMark rfl
  have hmark : d.toList.rdropWhile (· == '?') = d.toList := by
    rw [List.rdropWhile_eq_self_iff]
    intro hne h
    refine (hd _ (List.getLast_mem hne)).ne_questionMark ?_
    simpa using h
  have hlower : rt.unicode.lower d.toList = d.toList := by
    have hsmall : d.toList.map Char.toLower = d.toList.map id :=
      List.map_congr_left fun c hc => (hd c hc).toLower_eq
    rw [rt.unicode.lower_ascii _ fun c hc => (hd c hc).toNat_lt, hsmall, List.map_id]
  rw [looksLikeContractSelection, strip_documentId hd, hmark, hlower, firstWord_documentId hd]
  simp [hlast]

/-- What is asked back comes from the titles of its corpus. -/
private theorem title_of_asksBack {env : IngestEnv} {t : Turn} {s : SessionState}
    {context : RetrievalContext} (h : t.AsksBack s context) (hnames : t.world.NamesDocuments env)
    (hd : d ∈ context.consistency.contractBreakdown.keys) :
    ∃ title, d = documentIdFor env title := by
  obtain ⟨m, hm, hmd⟩ := List.mem_map.mp (h.offersChoice.offered d hd)
  obtain ⟨c₁, hretrieves⟩ := h.retrieves
  obtain ⟨hcontext, -⟩ := call_eq_ok_iff.mp hretrieves.2
  obtain ⟨index, hindex, hcorpus⟩ := mem_corpus_of_getVerificationContext hcontext
  obtain ⟨chunk, hchunk, hmatch⟩ := hcorpus m hm
  obtain ⟨title, htitle⟩ := hnames _ index hindex chunk hchunk
  refine ⟨title, ?_⟩
  rw [← hmd, hmatch, ← htitle]
  rfl

/-- The question that a clarification leaves pending is empty only if the empty message was asked
back. -/
private theorem truthy_pending_iff {t : Turn} {s : SessionState} {response : AskResponse} {c' : Ctx}
    (h : t.call s = (.ok response, c')) (hstatus : response.status = .needClarification) :
    (truthy c'.session.pendingQuestion).isSome = true ↔ t.question ≠ "" ∨ t.selects s = true := by
  cases clarify_exit h with
  | repeats hselects =>
    refine iff_of_true ?_ (Or.inr (selects_iff.mpr ⟨_, hselects⟩))
    rw [hselects.1]
    rfl
  | asks hfalls =>
    rw [hfalls.selects_eq_false, Option.isSome_iff_exists]
    simp only [Bool.false_eq_true, or_false, truthy_eq_some_iff, Ctx.withSession,
      Option.some.injEq]
    constructor
    · rintro ⟨pending, rfl, hne⟩
      exact hne
    · exact fun hne => ⟨t.question, rfl, hne⟩
  | quiet hquiet => exact absurd hstatus hquiet

/-- **An offer can be taken** exactly if it is not a question word and what was asked back is not
the empty message. -/
theorem candidate_chosen_iff {env : IngestEnv} {turns : List Turn} {t t' : Turn}
    {response : AskResponse} {c' : Ctx}
    (hnames : ∀ u ∈ turns ++ [t], u.world.NamesDocuments env)
    (hcall : t.call (sessionAfter {} turns) = (.ok response, c'))
    (hstatus : response.status = .needClarification) (hd : d ∈ response.candidateContracts)
    (hsends : t'.question = d) :
    t'.Chooses (sessionAfter {} (turns ++ [t])) d ↔
      d ∉ questionWords ∧ (t.question ≠ "" ∨ t.selects (sessionAfter {} turns) = true) := by
  have hsession : sessionAfter {} (turns ++ [t]) = c'.session := by
    rw [sessionAfter_append, next_of_ok hcall]
  obtain ⟨hresponse, pending, hpending⟩ := pending_of_clarification hcall hstatus
  rw [hresponse] at hd
  have hid : ∀ c ∈ d.toList, IsIdChar c := by
    rw [← hsession] at hd hpending
    obtain ⟨before, asker, after, context, hsplit, -, hasks, hcandidates, -⟩ :=
      askedBack_of_pending (turns ++ [t]) pending hpending
    have hasker : asker ∈ turns ++ [t] := by
      rw [hsplit]
      exact List.mem_append_right _ List.mem_cons_self
    obtain ⟨title, rfl⟩ := title_of_asksBack hasks (hnames asker hasker) (hcandidates ▸ hd)
    exact fun c hc => isIdChar_of_mem_documentIdFor hc
  have hselects : t'.selects c'.session = true ↔
      (truthy c'.session.pendingQuestion).isSome = true ∧ d ∉ questionWords := by
    rw [Turn.selects, hsends, Bool.and_eq_true, looksLikeContractSelection_documentId _ hid]
  rw [hsession, ← truthy_pending_iff hcall hstatus, and_comm, ← hselects]
  constructor
  · exact fun h => h.selects
  · intro h
    exact ⟨h, hsends ▸ chosenDocumentId_documentId (hsends ▸ hid), hd⟩

end

/-! ### Concrete runs -/

/-- Two chunks of each document, and a ranking that none of them dominates. -/
def titledTurn (titles : List String) (question : String) : Turn :=
  let documents := titles.map (documentIdFor sampleEnv)
  let chunks := documents.flatMap fun d =>
    [sampleChunk (d ++ "::1") d "Governed by the laws of Israel.",
     sampleChunk (d ++ "::2") d "The notice period is 30 days."]
  { world := { sampleWorld (chunks.map fun _ => 0) "" with
      indexes := fun _ => .ok {
        similaritySearch := fun _ => .ok (chunks.map ChunkRecord.chunkId)
        bm25Ids := chunks.map ChunkRecord.chunkId
        bm25Scores := fun _ => .ok (chunks.map fun _ => 0)
        corpus := Dict.empty.setAll ChunkRecord.chunkId id chunks } }
    question
    keepsOnRaise := false }

/-- Two contracts, one of them with a title that becomes a question word. -/
def wordTurn (question : String) : Turn := titledTurn ["Alpha", "What?"] question

private theorem wordTurn_call : ((wordTurn "The notice period").call {}).1 =
    .ok (.needClarification ["alpha", "what"]) := by
  decide +kernel

private theorem wordTurn_names (question : String) :
    (wordTurn question).world.NamesDocuments sampleEnv := by
  intro n index hindex chunk hchunk
  obtain rfl := Except.ok.inj hindex
  have htitles : ∀ chunk ∈ (Dict.empty.setAll ChunkRecord.chunkId id
      ((["Alpha", "What?"].map (documentIdFor sampleEnv)).flatMap fun d =>
        [sampleChunk (d ++ "::1") d "Governed by the laws of Israel.",
         sampleChunk (d ++ "::2") d "The notice period is 30 days."])).values,
      chunk.documentId = documentIdFor sampleEnv "Alpha" ∨
        chunk.documentId = documentIdFor sampleEnv "What?" := by
    decide +kernel
  rcases htitles chunk hchunk with htitle | htitle
  · exact ⟨_, htitle⟩
  · exact ⟨_, htitle⟩

/-- `candidate_chosen_iff` for the offer of `alpha`. -/
theorem candidate_chosen_iff_alpha : (wordTurn "alpha").Chooses
    (sessionAfter {} ([] ++ [wordTurn "The notice period"])) "alpha" := by
  have hnames : ∀ u ∈ [] ++ [wordTurn "The notice period"], u.world.NamesDocuments sampleEnv := by
    intro u hu
    rw [List.nil_append, List.mem_singleton] at hu
    rw [hu]
    exact wordTurn_names _
  refine (candidate_chosen_iff hnames (Exc.eq_of_fst wordTurn_call) rfl (by decide) rfl).mpr ?_
  exact ⟨by decide, Or.inl (by decide)⟩

/-- **An offer that cannot be taken**: the user is offered `what`, sends it, and asks a fresh
question. -/
theorem candidate_not_chosen :
    ∃ (env : IngestEnv) (t t' : Turn) (response : AskResponse),
      t.world.NamesDocuments env ∧ (t.call {}).1 = .ok response ∧
      response.status = .needClarification ∧ t'.question ∈ response.candidateContracts ∧
      t'.selects (t.next {}) = false := by
  refine ⟨sampleEnv, wordTurn "The notice period", wordTurn "what", _, wordTurn_names _,
    wordTurn_call, rfl, by decide, ?_⟩
  decide +kernel

end AuditFlow
