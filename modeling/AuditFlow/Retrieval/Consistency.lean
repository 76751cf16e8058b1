import AuditFlow.Retrieval.Retrieve
import Mathlib.Algebra.BigOperators.Group.List.Lemmas
import Mathlib.Algebra.Order.BigOperators.Group.List
import Mathlib.Tactic.Linarith

/-!
# Which document the scores choose

`check_docement_consistency` adds up scores and counts per document and sorts the documents by their
**total**. `document_scoring_sound` says that what it reports depends on the totals and counts
alone: the counts add up to the number of chunks, the top document has the highest total, a
confident report means a majority of the chunks, and the order of the chunks does not matter when
one document alone has the highest total.

A total grows with good chunks and shrinks with bad ones, so a document with better chunks than
another one can lose to it through its further chunks; `dominating_not_outranked` bounds these.
-/

namespace AuditFlow

open Foundation

/-! ### Totals and counts -/

section

variable (results : List (ChunkRecord × ℚ)) (d : String)

/-- The scores of the chunks of a document. -/
def scoresOf : List ℚ := (results.filter fun r => r.1.documentId = d).map Prod.snd

/-- The total score of a document. -/
def totalOf : ℚ := (scoresOf results d).sum

/-- The number of chunks of a document. -/
def countOf : ℕ := (scoresOf results d).length

/-- The document has a chunk. -/
def Scored : Prop := ∃ r ∈ results, r.1.documentId = d

/-- What the table says about a document. -/
def statsOf : DocumentStats where
  totalScore := totalOf results d
  chunkCount := countOf results d

end

/-- The table, sorted by total score. -/
def rankedDocs (results : List (ChunkRecord × ℚ)) : List (String × DocumentStats) :=
  sortedDesc (fun kv => kv.2.totalScore) (scoresByDoc results).entries

/-- The difference between the best total and the next one. -/
def marginFrom (best : ℚ) : List ℚ → WithTop ℚ
  | [] => ⊤
  | second :: _ => (best - second : ℚ)

section

variable {results results' : List (ChunkRecord × ℚ)} {d : String}

theorem mem_entries_scoresByDoc {stats : DocumentStats} :
    (d, stats) ∈ (scoresByDoc results).entries ↔
      Scored results d ∧ stats = statsOf results d := by
  have hstats : (results.filter fun r => r.1.documentId = d).foldl DocumentStats.add {} =
      statsOf results d := by
    rw [foldl_add_eq, statsOf, totalOf, countOf, scoresOf, List.length_map, zero_add, Nat.zero_add]
  rw [Dict.mem_entries_iff]
  constructor
  · intro h
    have hscored : Scored results d :=
      mem_keys_scoresByDoc.mp (Dict.mem_keys_iff.mpr ⟨stats, h⟩)
    rw [get?_scoresByDoc hscored, hstats] at h
    exact ⟨hscored, (Option.some.inj h).symm⟩
  · rintro ⟨hscored, rfl⟩
    rw [get?_scoresByDoc hscored, hstats]

theorem mem_rankedDocs {kv : String × DocumentStats} :
    kv ∈ rankedDocs results ↔ Scored results kv.1 ∧ kv.2 = statsOf results kv.1 := by
  rw [rankedDocs, sortedDesc, List.mem_insertionSort]
  exact mem_entries_scoresByDoc

/-- **What a report says**, in terms of the sorted table. -/
structure ReportOf (results : List (ChunkRecord × ℚ)) (report : ConsistencyReport) (top : String)
    (rest : List (String × DocumentStats)) : Prop where
  ranked : rankedDocs results = (top, statsOf results top) :: rest
  scored : Scored results top
  topContract : report.topContract = some top
  concentration : report.concentration = countOf results top / results.length
  avgTopScore : report.avgTopScore = totalOf results top / countOf results top
  margin : report.margin =
    marginFrom (totalOf results top) (rest.map fun kv => kv.2.totalScore)
  isConfident : report.isConfident =
    (decide (3 / 5 ≤ report.concentration) && decide (71 / 200 ≤ report.avgTopScore))
  contractBreakdown : report.contractBreakdown.entries =
    (scoresByDoc results).entries.map fun kv => (kv.1, kv.2.chunkCount)

/-- Scoring a ranking that is not empty gives a report. -/
theorem exists_reportOf (hne : results ≠ []) :
    ∃ report top rest, checkDocementConsistency results = .ok report ∧
      ReportOf results report top rest := by
  cases hreport : checkDocementConsistency results with
  | error e => exact absurd (checkDocementConsistency_eq_error_iff.mp hreport).1 hne
  | ok report =>
    rw [checkDocementConsistency] at hreport
    split at hreport
    · cases hreport
    · rename_i top stats rest hsorted
      have hmem : (top, stats) ∈ rankedDocs results := by
        rw [rankedDocs, hsorted]
        exact List.mem_cons_self
      obtain ⟨hscored, hstats⟩ := mem_rankedDocs.mp hmem
      dsimp only at hscored hstats
      subst hstats
      cases hreport
      refine ⟨_, top, rest, rfl, hsorted, hscored, rfl, rfl, rfl, ?_, rfl, rfl⟩
      cases rest <;> rfl

/-- The highest total comes first. -/
theorem ReportOf.totalOf_le {report : ConsistencyReport} {top : String}
    {rest : List (String × DocumentStats)} (h : ReportOf results report top rest)
    (hd : Scored results d) : totalOf results d ≤ totalOf results top := by
  have hentry : (d, statsOf results d) ∈ (scoresByDoc results).entries :=
    mem_entries_scoresByDoc.mpr ⟨hd, rfl⟩
  have hranked : rank (fun kv : String × DocumentStats => kv.2.totalScore)
      (scoresByDoc results).entries = (top, statsOf results top) :: rest := h.ranked
  have hle := key_le_of_rank_eq_cons hranked hentry
  exact hle

/-! ### Counts -/

private theorem countOf_eq_count : countOf results d =
    (results.map fun r => r.1.documentId).count d := by
  rw [countOf, scoresOf, List.length_map, ← List.countP_eq_length_filter, List.count,
    List.countP_map]
  exact List.countP_congr fun r _ => by simp

/-- The counts of the breakdown add up. -/
private theorem sum_breakdown {report : ConsistencyReport} {top : String}
    {rest : List (String × DocumentStats)} (h : ReportOf results report top rest) :
    report.contractBreakdown.values.sum = results.length := by
  have hkeys : (scoresByDoc results).keys.Perm (results.map fun r => r.1.documentId).dedup := by
    rw [List.perm_ext_iff_of_nodup (Dict.keys_nodup _) (List.nodup_dedup _)]
    intro d
    rw [mem_keys_scoresByDoc, List.mem_dedup, List.mem_map]
  have hvalues : report.contractBreakdown.values = (scoresByDoc results).keys.map fun d =>
      (results.map fun r => r.1.documentId).count d := by
    rw [Dict.values, h.contractBreakdown, List.map_map, Dict.keys, List.map_map]
    refine List.map_congr_left fun kv hkv => ?_
    obtain ⟨-, hstats⟩ := mem_entries_scoresByDoc.mp hkv
    simp only [Function.comp_apply]
    rw [hstats, ← countOf_eq_count]
    rfl
  rw [hvalues, (hkeys.map _).sum_eq, List.sum_map_count_dedup_eq_length, List.length_map]

/-- Two documents share the chunks. -/
private theorem countOf_add_le {d d' : String} (hne : d ≠ d') :
    countOf results d + countOf results d' ≤ results.length := by
  have hcount (d : String) : countOf results d = results.countP fun r => r.1.documentId = d := by
    rw [countOf, scoresOf, List.length_map, List.countP_eq_length_filter]
  have hother : (results.countP fun r => r.1.documentId = d') ≤
      results.countP fun r => ¬decide (r.1.documentId = d) = true := by
    refine List.countP_mono_left fun r _ hr => ?_
    have hd' : r.1.documentId = d' := of_decide_eq_true hr
    have hd : r.1.documentId ≠ d := fun h => hne (h.symm.trans hd')
    simpa using hd
  have hsum := List.length_eq_countP_add_countP (fun r : ChunkRecord × ℚ =>
    decide (r.1.documentId = d)) (l := results)
  rw [hcount, hcount]
  omega

/-! ### Order -/

theorem totalOf_of_perm (h : results'.Perm results) : totalOf results' d = totalOf results d :=
  ((h.filter _).map _).sum_eq

theorem countOf_of_perm (h : results'.Perm results) : countOf results' d = countOf results d :=
  ((h.filter _).map _).length_eq

theorem statsOf_of_perm (h : results'.Perm results) : statsOf results' d = statsOf results d := by
  rw [statsOf, statsOf, totalOf_of_perm h, countOf_of_perm h]

theorem scored_of_perm (h : results'.Perm results) : Scored results' d ↔ Scored results d := by
  refine exists_congr fun r => ?_
  rw [h.mem_iff]

/-- The table has the same entries for every order of the chunks. -/
private theorem entries_perm (h : results'.Perm results) :
    (scoresByDoc results').entries.Perm (scoresByDoc results).entries := by
  rw [List.perm_ext_iff_of_nodup (List.Nodup.of_map _ (scoresByDoc results').nodup)
    (List.Nodup.of_map _ (scoresByDoc results).nodup)]
  rintro ⟨d, stats⟩
  rw [mem_entries_scoresByDoc, mem_entries_scoresByDoc, scored_of_perm h, statsOf_of_perm h]

end

/-! ### What is reported -/

/-- The counts add up, the top document has the highest total, and a confident report means a
majority. -/
structure ScoringSound (results : List (ChunkRecord × ℚ)) (report : ConsistencyReport) : Prop where
  counts : report.contractBreakdown.values.sum = results.length
  highest : ∃ top, report.topContract = some top ∧ Scored results top ∧
    ∀ d, Scored results d → totalOf results d ≤ totalOf results top
  majority : report.isConfident = true → ∃ top, report.topContract = some top ∧
    (3 / 5 : ℚ) * results.length ≤ countOf results top ∧
    ∀ d, d ≠ top → countOf results d < countOf results top

/-- One document has a higher total than every other one. -/
def OneHighest (results : List (ChunkRecord × ℚ)) : Prop :=
  ∃ d, Scored results d ∧ ∀ d', Scored results d' → d' ≠ d → totalOf results d' < totalOf results d

/-- The reports agree on everything but the breakdown's order. -/
structure SameVerdict (report report' : ConsistencyReport) : Prop where
  topContract : report'.topContract = report.topContract
  concentration : report'.concentration = report.concentration
  avgTopScore : report'.avgTopScore = report.avgTopScore
  margin : report'.margin = report.margin
  isConfident : report'.isConfident = report.isConfident

section

variable {results results' : List (ChunkRecord × ℚ)} {report report' : ConsistencyReport}
  {top : String} {rest : List (String × DocumentStats)}

private theorem ReportOf.sound (h : ReportOf results report top rest) :
    ScoringSound results report where
  counts := sum_breakdown h
  highest := ⟨top, h.topContract, h.scored, fun d hd => h.totalOf_le hd⟩
  majority := by
    intro hconfident
    rw [h.isConfident] at hconfident
    have hshare : (3 / 5 : ℚ) ≤ report.concentration :=
      of_decide_eq_true (Bool.and_eq_true_iff.mp hconfident).1
    rw [h.concentration] at hshare
    have hpositive : (0 : ℚ) < results.length := by
      obtain ⟨r, hr, -⟩ := h.scored
      exact_mod_cast List.length_pos_of_mem hr
    have hmajority : (3 / 5 : ℚ) * results.length ≤ countOf results top :=
      (le_div_iff₀ hpositive).mp hshare
    refine ⟨top, h.topContract, hmajority, fun d hd => ?_⟩
    have hsum : (countOf results d : ℚ) + countOf results top ≤ results.length := by
      exact_mod_cast countOf_add_le hd
    have hless : (countOf results d : ℚ) < countOf results top := by linarith
    exact_mod_cast hless

private theorem ReportOf.sameVerdict (h : ReportOf results report top rest)
    (hone : OneHighest results) (hperm : results'.Perm results)
    (hreport : ∃ top' rest', ReportOf results' report' top' rest') :
    SameVerdict report report' := by
  obtain ⟨best, hbest, hhigher⟩ := hone
  obtain ⟨top', rest', h'⟩ := hreport
  have htop : best = top := by
    by_contra hne
    exact absurd (h.totalOf_le hbest) (not_le.mpr (hhigher top h.scored (Ne.symm hne)))
  have hranked : rank (fun kv : String × DocumentStats => kv.2.totalScore)
      (scoresByDoc results).entries = (top, statsOf results top) :: rest := h.ranked
  have hranked' : rank (fun kv : String × DocumentStats => kv.2.totalScore)
      (scoresByDoc results').entries = (top', statsOf results' top') :: rest' := h'.ranked
  -- no other entry has the total of the top one, so it is the first in every order
  have hunique : ∀ kv ∈ (scoresByDoc results).entries,
      kv.2.totalScore = (statsOf results top).totalScore → kv = (top, statsOf results top) := by
    rintro ⟨d, stats⟩ hkv htotal
    obtain ⟨hscored, rfl⟩ := mem_entries_scoresByDoc.mp hkv
    by_cases hd : d = top
    · rw [hd]
    · rw [← htop] at hd htotal
      exact absurd htotal (hhigher d hscored hd).ne
  obtain ⟨rest'', hfirst⟩ := rank_eq_cons_of_perm (entries_perm hperm).symm hranked hunique
  rw [hranked', List.cons.injEq, Prod.mk.injEq] at hfirst
  obtain rfl : top' = top := hfirst.1.1
  have hkeys := map_rank_of_perm (fun kv : String × DocumentStats => kv.2.totalScore)
    (entries_perm hperm)
  rw [hranked, hranked', List.map_cons, List.map_cons, List.cons.injEq] at hkeys
  have hconcentration : report'.concentration = report.concentration := by
    rw [h'.concentration, h.concentration, countOf_of_perm hperm, hperm.length_eq]
  have havg : report'.avgTopScore = report.avgTopScore := by
    rw [h'.avgTopScore, h.avgTopScore, totalOf_of_perm hperm, countOf_of_perm hperm]
  refine ⟨?_, hconcentration, havg, ?_, ?_⟩
  · rw [h'.topContract, h.topContract]
  · rw [h'.margin, h.margin, totalOf_of_perm hperm, hkeys.2]
  · rw [h'.isConfident, h.isConfident, hconcentration, havg]

end

/-- **Scoring is sound and does not depend on the order.** A ranking that is not empty gives a
report that is sound; if one document alone has the highest total, every order of the chunks gives
the same verdict. -/
theorem document_scoring_sound {results : List (ChunkRecord × ℚ)} (hne : results ≠ []) :
    ∃ report, checkDocementConsistency results = .ok report ∧ ScoringSound results report ∧
      (OneHighest results → ∀ results', results'.Perm results →
        ∃ report', checkDocementConsistency results' = .ok report' ∧
          SameVerdict report report') := by
  obtain ⟨report, top, rest, hreport, h⟩ := exists_reportOf hne
  refine ⟨report, hreport, h.sound, fun hone results' hperm => ?_⟩
  have hne' : results' ≠ [] := by
    rintro rfl
    exact hne hperm.symm.eq_nil
  obtain ⟨report', top', rest', hreport', h'⟩ := exists_reportOf hne'
  exact ⟨report', hreport', h.sameVerdict hone hperm ⟨top', rest', h'⟩⟩

private def chunkOf (documentId chunkId : String) : ChunkRecord :=
  { chunkId, documentId, chunkIndex := 0, rawChunkText := "", embeddingText := "",
    contentHash := "" }

/-- Two chunks of one document and one of another. -/
private def rankingWith (further : ℚ) : List (ChunkRecord × ℚ) :=
  [(chunkOf "a" "a_1", 1), (chunkOf "b" "b_1", 1 / 2), (chunkOf "a" "a_2", further)]

/-- Scoring three chunks of two documents. -/
theorem document_scoring_sound_three :
    ∃ report, checkDocementConsistency (rankingWith (-2)) = .ok report ∧
      ScoringSound (rankingWith (-2)) report := by
  have hne : rankingWith (-2) ≠ [] := List.cons_ne_nil _ _
  obtain ⟨report, hreport, hsound, -⟩ := document_scoring_sound hne
  exact ⟨report, hreport, hsound⟩

/-! ### Dominating documents -/

/-- The scores of a document, highest first. -/
def rankedScores (results : List (ChunkRecord × ℚ)) (d : String) : List ℚ :=
  sortedDesc id (scoresOf results d)

/-- Document `a` has at least as many chunks as `b`, and its chunks are better one by one. -/
structure Dominates (results : List (ChunkRecord × ℚ)) (a b : String) : Prop where
  count : countOf results b ≤ countOf results a
  higher : ∀ (i : ℕ) (x y : ℚ), (rankedScores results a)[i]? = some x →
    (rankedScores results b)[i]? = some y → y < x

/-- Lists that are dominated place by place have the lower sum, up to what the other one has beyond
their length. -/
private theorem sum_le_of_dominated {xs ys : List ℚ} (hlength : ys.length ≤ xs.length)
    (hle : ∀ (i : ℕ) (x y : ℚ), xs[i]? = some x → ys[i]? = some y → y ≤ x) :
    ys.sum + (xs.drop ys.length).sum ≤ xs.sum := by
  induction ys generalizing xs with
  | nil => simp
  | cons y ys ih =>
    cases xs with
    | nil => simp at hlength
    | cons x xs =>
      have hhead : y ≤ x := hle 0 x y rfl rfl
      have htail := ih (Nat.le_of_succ_le_succ hlength) fun i => hle (i + 1)
      rw [List.sum_cons, List.sum_cons, List.length_cons, List.drop_succ_cons]
      linarith

private theorem sum_lt_of_dominated {xs ys : List ℚ} (hne : ys ≠ [])
    (hlength : ys.length ≤ xs.length)
    (hlt : ∀ (i : ℕ) (x y : ℚ), xs[i]? = some x → ys[i]? = some y → y < x) :
    ys.sum + (xs.drop ys.length).sum < xs.sum := by
  cases ys with
  | nil => exact absurd rfl hne
  | cons y ys =>
    cases xs with
    | nil => simp at hlength
    | cons x xs =>
      have hhead : y < x := hlt 0 x y rfl rfl
      have htail := sum_le_of_dominated (Nat.le_of_succ_le_succ hlength)
        fun i x y hx hy => (hlt (i + 1) x y hx hy).le
      rw [List.sum_cons, List.sum_cons, List.length_cons, List.drop_succ_cons]
      linarith

section

variable {results : List (ChunkRecord × ℚ)} {report : ConsistencyReport} {a b d : String}

private theorem rankedScores_perm : (rankedScores results d).Perm (scoresOf results d) :=
  List.perm_insertionSort _ _

private theorem scored_of_countOf_pos (h : 0 < countOf results d) : Scored results d := by
  rw [countOf, scoresOf, List.length_map] at h
  obtain ⟨r, hr⟩ := List.exists_mem_of_length_pos h
  obtain ⟨hmem, hd⟩ := List.mem_filter.mp hr
  exact ⟨r, hmem, of_decide_eq_true hd⟩

private theorem countOf_pos_of_scored (h : Scored results d) : 0 < countOf results d := by
  obtain ⟨r, hr, hd⟩ := h
  rw [countOf, scoresOf, List.length_map]
  exact List.length_pos_of_mem (List.mem_filter.mpr ⟨hr, decide_eq_true hd⟩)

/-- **A dominating document is not outranked** if its chunks beyond the number of the other one's do
not pull its total down. -/
theorem dominating_not_outranked (hreport : checkDocementConsistency results = .ok report)
    (hdominates : Dominates results a b)
    (hfurther : 0 ≤ ((rankedScores results a).drop (countOf results b)).sum) :
    report.topContract ≠ some b := by
  intro htop
  have hne : results ≠ [] := by
    rintro rfl
    cases hreport
  obtain ⟨report', top, rest, hreport', h⟩ := exists_reportOf hne
  rw [hreport] at hreport'
  obtain rfl := Except.ok.inj hreport'
  obtain rfl : top = b := Option.some.inj (h.topContract.symm.trans htop)
  have hcount : 0 < countOf results top := countOf_pos_of_scored h.scored
  have hscored : Scored results a := scored_of_countOf_pos (hcount.trans_le hdominates.count)
  have hlength (d : String) : (rankedScores results d).length = countOf results d :=
    rankedScores_perm.length_eq
  have hsum (d : String) : (rankedScores results d).sum = totalOf results d :=
    rankedScores_perm.sum_eq
  have hnonempty : rankedScores results top ≠ [] := by
    rw [Ne, ← List.length_eq_zero_iff, hlength]
    omega
  have hlower := sum_lt_of_dominated hnonempty
    (by rw [hlength, hlength]; exact hdominates.count) hdominates.higher
  rw [hlength, hsum, hsum] at hlower
  have hhighest := h.totalOf_le hscored
  linarith

end

private theorem dominates_rankingWith {further : ℚ}
    (ha : rankedScores (rankingWith further) "a" = [1, further])
    (hb : rankedScores (rankingWith further) "b" = [1 / 2]) :
    Dominates (rankingWith further) "a" "b" where
  count := Nat.le_succ 1
  higher := by
    intro i x y hx hy
    rw [ha] at hx
    rw [hb] at hy
    rcases i with - | i
    · obtain rfl := Option.some.inj hx
      obtain rfl := Option.some.inj hy
      norm_num
    · cases hy

/-- A further chunk with a positive score. -/
theorem dominating_not_outranked_positive :
    ∃ report, checkDocementConsistency (rankingWith (1 / 4)) = .ok report ∧
      report.topContract ≠ some "b" := by
  have ha : rankedScores (rankingWith (1 / 4)) "a" = [1, 1 / 4] := by decide +kernel
  have hb : rankedScores (rankingWith (1 / 4)) "b" = [1 / 2] := by decide +kernel
  have hfurther : 0 ≤ ((rankedScores (rankingWith (1 / 4)) "a").drop
      (countOf (rankingWith (1 / 4)) "b")).sum := by
    rw [ha]
    decide +kernel
  have hne : rankingWith (1 / 4) ≠ [] := List.cons_ne_nil _ _
  obtain ⟨report, -, -, hreport, -⟩ := exists_reportOf hne
  exact ⟨report, hreport, dominating_not_outranked hreport (dominates_rankingWith ha hb) hfurther⟩

/-- A further chunk with a low score costs a dominating document its first place. -/
theorem dominating_outranked :
    Dominates (rankingWith (-5)) "a" "b" ∧
      ∃ report, checkDocementConsistency (rankingWith (-5)) = .ok report ∧
        report.topContract = some "b" := by
  constructor
  · exact dominates_rankingWith (by decide +kernel) (by decide +kernel)
  · have hne : rankingWith (-5) ≠ [] := List.cons_ne_nil _ _
    obtain ⟨report, -, -, hreport, -⟩ := exists_reportOf hne
    have htop : (checkDocementConsistency (rankingWith (-5))).toOption.bind
        (fun report => report.topContract) = some "b" := by
      decide +kernel
    rw [hreport] at htop
    exact ⟨report, hreport, htop⟩

end AuditFlow
