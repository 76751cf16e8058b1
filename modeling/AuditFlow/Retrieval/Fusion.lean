import AuditFlow.Retrieval.Retrieve
import Mathlib.Algebra.Order.BigOperators.Group.List
import Mathlib.Tactic.Linarith
import Mathlib.Tactic.Positivity

/-!
# What fusion keeps

`_reciprocal_rank_fusion` adds up the reciprocal of 61 plus the rank over all lists that have an id.
So every id of a list is in the result once, and **agreement is respected**: an id that stands
before another one wherever that one occurs gets a higher sum (`fusion_keeps_and_agrees`).

`hybrid_retrieve` looks the fused ids up in a corpus that need not be the one the rankings were
computed from. Whatever it is, the chunks that are found are lookups of distinct fused ids, in fused
order.
-/

namespace AuditFlow

open Foundation

/-! ### Fused scores -/

/-- What a list adds to the score of an id. -/
def contribution (rankedIds : List String) (d : String) : ℚ :=
  ((rankedIds.zipIdx.filter fun ranked => ranked.1 = d).map fun ranked =>
    1 / (60 + (ranked.2 : ℚ) + 1)).sum

/-- The fused score of an id. -/
def fusionScore (rankedIdLists : List (List String)) (d : String) : ℚ :=
  (rankedIdLists.map fun rankedIds => contribution rankedIds d).sum

/-- The id occurs in one of the lists. -/
def InUnion (rankedIdLists : List (List String)) (d : String) : Prop :=
  ∃ rankedIds ∈ rankedIdLists, d ∈ rankedIds

/-- The table of scores, before it is sorted. -/
def fusionScores (rankedIdLists : List (List String)) : Dict String ℚ :=
  Dict.tally Prod.fst 0 (fun score (ranked : String × ℕ) => score + 1 / (60 + (ranked.2 : ℚ) + 1))
    .empty (rankedIdLists.flatMap List.zipIdx)

theorem reciprocalRankFusion_eq (rankedIdLists : List (List String)) :
    reciprocalRankFusion rankedIdLists =
      (rank Prod.snd (fusionScores rankedIdLists).entries).map Prod.fst := by
  rw [fusionScores, Dict.tally, List.foldl_flatMap]
  rfl

section

variable {rankedIdLists : List (List String)} {rankedIds : List String} {a b d : String}

private theorem mem_flatMap_zipIdx :
    (∃ ranked ∈ rankedIdLists.flatMap List.zipIdx, Prod.fst ranked = d) ↔
      InUnion rankedIdLists d := by
  constructor
  · rintro ⟨⟨id, rank⟩, hranked, rfl⟩
    obtain ⟨ids, hids, hmem⟩ := List.mem_flatMap.mp hranked
    exact ⟨ids, hids, List.fst_mem_of_mem_zipIdx hmem⟩
  · rintro ⟨ids, hids, hd⟩
    obtain ⟨i, hi⟩ := List.mem_iff_getElem?.mp hd
    exact ⟨(d, i), List.mem_flatMap.mpr ⟨ids, hids, List.mk_mem_zipIdx_iff_getElem?.mpr hi⟩, rfl⟩

theorem mem_reciprocalRankFusion :
    d ∈ reciprocalRankFusion rankedIdLists ↔ InUnion rankedIdLists d := by
  rw [reciprocalRankFusion_eq, ((rank_perm _ _).map _).mem_iff, ← mem_flatMap_zipIdx]
  exact (Dict.mem_keys_tally _ _ _ _ _ _).trans (or_iff_right List.not_mem_nil)

theorem reciprocalRankFusion_nodup : (reciprocalRankFusion rankedIdLists).Nodup := by
  rw [reciprocalRankFusion_eq, ((rank_perm _ _).map _).nodup_iff]
  exact Dict.keys_nodup (fusionScores rankedIdLists)

private theorem foldl_contribution (ranked : List (String × ℕ)) (score : ℚ) :
    ranked.foldl (fun score ranked => score + 1 / (60 + (ranked.2 : ℚ) + 1)) score =
      score + (ranked.map fun ranked => 1 / (60 + (ranked.2 : ℚ) + 1)).sum := by
  induction ranked generalizing score with
  | nil => rw [List.foldl_nil, List.map_nil, List.sum_nil, add_zero]
  | cons r ranked ih => rw [List.foldl_cons, ih, List.map_cons, List.sum_cons, add_assoc]

private theorem sum_contributions (lists : List (List String)) (d : String) :
    (((lists.flatMap List.zipIdx).filter fun ranked => ranked.1 = d).map fun ranked =>
      1 / (60 + (ranked.2 : ℚ) + 1)).sum = fusionScore lists d := by
  induction lists with
  | nil => rfl
  | cons ids lists ih =>
    rw [List.flatMap_cons, List.filter_append, List.map_append, List.sum_append, ih, fusionScore,
      fusionScore, List.map_cons, List.sum_cons, contribution]

/-- The entry of an id in the table. -/
private theorem mem_fusionScores (h : InUnion rankedIdLists d) :
    (d, fusionScore rankedIdLists d) ∈ (fusionScores rankedIdLists).entries := by
  rw [Dict.mem_entries_iff, fusionScores, Dict.get?_tally_empty _ _ _ (mem_flatMap_zipIdx.mpr h),
    foldl_contribution, zero_add, sum_contributions]

/-! ### Agreement -/

private theorem zipIdx_filter_of_notMem (h : d ∉ rankedIds) (n : ℕ) :
    (rankedIds.zipIdx n).filter (fun ranked => ranked.1 = d) = [] := by
  refine List.filter_eq_nil_iff.mpr fun ranked hranked heq => h ?_
  rw [← of_decide_eq_true heq]
  exact List.fst_mem_of_mem_zipIdx hranked

private theorem contribution_of_notMem (h : d ∉ rankedIds) : contribution rankedIds d = 0 := by
  rw [contribution, zipIdx_filter_of_notMem h]
  rfl

/-- An id that occurs once contributes by its position. -/
private theorem contribution_of_split {before after : List String} (hbefore : d ∉ before)
    (hafter : d ∉ after) :
    contribution (before ++ d :: after) d = 1 / (60 + (before.length : ℚ) + 1) := by
  rw [contribution, List.zipIdx_append, List.filter_append, zipIdx_filter_of_notMem hbefore,
    List.nil_append, List.zipIdx_cons, List.filter_cons, zipIdx_filter_of_notMem hafter,
    if_pos (decide_eq_true rfl), List.map_cons, List.map_nil, List.sum_cons, List.sum_nil, add_zero,
    Nat.zero_add]

private theorem contribution_nonneg : 0 ≤ contribution rankedIds d := by
  refine List.sum_nonneg fun x hx => ?_
  obtain ⟨ranked, -, rfl⟩ := List.mem_map.mp hx
  positivity

/-- In one list, an earlier id contributes more. -/
private theorem contribution_lt (hnodup : rankedIds.Nodup) (h : [a, b].Sublist rankedIds) :
    contribution rankedIds b < contribution rankedIds a := by
  obtain ⟨front, rest, rfl, ha, hb⟩ := List.cons_sublist_iff.mp h
  obtain ⟨before, middle, rfl⟩ := List.append_of_mem ha
  obtain ⟨middle', after, rfl⟩ := List.append_of_mem (List.singleton_sublist.mp hb)
  have hsplitA : before ++ a :: middle ++ (middle' ++ b :: after) =
      before ++ a :: (middle ++ (middle' ++ b :: after)) := by
    rw [List.append_assoc, List.cons_append]
  have hsplitB : before ++ a :: middle ++ (middle' ++ b :: after) =
      before ++ a :: middle ++ middle' ++ b :: after := by
    rw [List.append_assoc, List.append_assoc, List.append_assoc]
  have honce {d : String} {front rest : List String} (hd : (front ++ d :: rest).Nodup) :
      d ∉ front ∧ d ∉ rest := by
    rw [List.nodup_middle, List.nodup_cons, List.mem_append, not_or] at hd
    exact hd.1
  have hvalueA : contribution (before ++ a :: middle ++ (middle' ++ b :: after)) a =
      1 / (60 + (before.length : ℚ) + 1) := by
    obtain ⟨hbefore, hafter⟩ := honce (hsplitA ▸ hnodup)
    rw [hsplitA, contribution_of_split hbefore hafter]
  have hvalueB : contribution (before ++ a :: middle ++ (middle' ++ b :: after)) b =
      1 / (60 + ((before ++ a :: middle ++ middle').length : ℚ) + 1) := by
    obtain ⟨hbefore, hafter⟩ := honce (hsplitB ▸ hnodup)
    rw [hsplitB, contribution_of_split hbefore hafter]
  have hlength : (before.length : ℚ) < (before ++ a :: middle ++ middle').length := by
    rw [List.append_assoc, List.length_append, List.cons_append, List.length_cons]
    push_cast
    have hnonneg : (0 : ℚ) ≤ (middle ++ middle').length := Nat.cast_nonneg _
    linarith
  rw [hvalueA, hvalueB]
  refine one_div_lt_one_div_of_lt ?_ ?_
  · positivity
  · linarith

/-- **Agreement raises the score.** -/
private theorem fusionScore_lt (hnodup : ∀ rankedIds ∈ rankedIdLists, rankedIds.Nodup)
    (hb : InUnion rankedIdLists b)
    (hagree : ∀ rankedIds ∈ rankedIdLists, b ∈ rankedIds → [a, b].Sublist rankedIds) :
    fusionScore rankedIdLists b < fusionScore rankedIdLists a := by
  refine List.sum_lt_sum _ _ (fun rankedIds hids => ?_) ?_
  · by_cases hmem : b ∈ rankedIds
    · exact (contribution_lt (hnodup rankedIds hids) (hagree rankedIds hids hmem)).le
    · rw [contribution_of_notMem hmem]
      exact contribution_nonneg
  · obtain ⟨rankedIds, hids, hmem⟩ := hb
    exact ⟨rankedIds, hids, contribution_lt (hnodup rankedIds hids) (hagree rankedIds hids hmem)⟩

/-- An id that stands before another one wherever that one occurs comes before it. -/
theorem pair_sublist_reciprocalRankFusion
    (hnodup : ∀ rankedIds ∈ rankedIdLists, rankedIds.Nodup) (hb : InUnion rankedIdLists b)
    (hagree : ∀ rankedIds ∈ rankedIdLists, b ∈ rankedIds → [a, b].Sublist rankedIds) :
    [a, b].Sublist (reciprocalRankFusion rankedIdLists) := by
  have ha : InUnion rankedIdLists a := by
    obtain ⟨rankedIds, hids, hmem⟩ := hb
    exact ⟨rankedIds, hids, (hagree rankedIds hids hmem).subset List.mem_cons_self⟩
  rw [reciprocalRankFusion_eq]
  exact (pair_sublist_rank Prod.snd (mem_fusionScores ha) (mem_fusionScores hb)
    (fusionScore_lt hnodup hb hagree)).map Prod.fst

end

/-! ### Lookups -/

/-- The ids that the BM25 scores rank first. -/
def bm25RankedIds (index : IndexSnapshot) (tokens : List String) :
    Except PyError (List String) := do
  let bm25Scores ← index.bm25Scores tokens
  ((sortedDesc Prod.fst bm25Scores.zipIdx).take 20).mapM fun (_, i) =>
    match index.bm25Ids[i]? with
    | some chunkId => .ok chunkId
    | none => .error { cls := .indexError, message := "list index out of range" }

/-- The fused result has every id of the lists once, and respects their agreement. -/
structure Fused (rankedIdLists : List (List String)) (fusedIds : List String) : Prop where
  nodup : fusedIds.Nodup
  mem_iff : ∀ d, d ∈ fusedIds ↔ InUnion rankedIdLists d
  agrees : ∀ a b, InUnion rankedIdLists b →
    (∀ rankedIds ∈ rankedIdLists, b ∈ rankedIds → [a, b].Sublist rankedIds) →
    [a, b].Sublist fusedIds

/-- The chunks are at most `topN` lookups of distinct fused ids, in fused order; they are distinct
in a corpus that is keyed by the ids of its chunks. -/
structure LookedUp (corpus : Dict String ChunkRecord) (fusedIds : List String) (topN : ℕ)
    (candidates : List ChunkRecord) : Prop where
  length_le : candidates.length ≤ topN
  lookups : ∃ chunkIds : List String, chunkIds.Nodup ∧ chunkIds.Sublist fusedIds ∧
    List.Forall₂ (fun id chunk => corpus.get? id = some chunk) chunkIds candidates
  distinct : (∀ id chunk, corpus.get? id = some chunk → chunk.chunkId = id) →
    (candidates.map ChunkRecord.chunkId).Nodup

/-- The ids that a corpus has, each with its chunk. -/
private theorem forall₂_filterMap (corpus : Dict String ChunkRecord) (ids : List String) :
    List.Forall₂ (fun id chunk => corpus.get? id = some chunk)
      (ids.filter fun id => (corpus.get? id).isSome) (ids.filterMap corpus.get?) := by
  induction ids with
  | nil => exact List.Forall₂.nil
  | cons id ids ih =>
    rw [List.filter_cons, List.filterMap_cons]
    cases hget : corpus.get? id with
    | none => exact ih
    | some chunk => exact List.Forall₂.cons hget ih

private theorem lookedUp_filterMap (corpus : Dict String ChunkRecord) {fusedIds : List String}
    (hnodup : fusedIds.Nodup) (topN : ℕ) :
    LookedUp corpus fusedIds topN ((fusedIds.take topN).filterMap corpus.get?) := by
  have hlookups := forall₂_filterMap corpus (fusedIds.take topN)
  have hsublist : ((fusedIds.take topN).filter fun id => (corpus.get? id).isSome).Sublist
      fusedIds := List.filter_sublist.trans (List.take_sublist topN fusedIds)
  have hnodup' := hnodup.sublist hsublist
  refine ⟨?_, ⟨_, hnodup', hsublist, hlookups⟩, fun hkeyed => ?_⟩
  · refine (List.length_filterMap_le _ _).trans ?_
    rw [List.length_take]
    exact min_le_left _ _
  · have hids : ((fusedIds.take topN).filterMap corpus.get?).map ChunkRecord.chunkId =
        (fusedIds.take topN).filter fun id => (corpus.get? id).isSome := by
      have hsame : List.Forall₂ (fun id chunk => id = ChunkRecord.chunkId chunk)
          ((fusedIds.take topN).filter fun id => (corpus.get? id).isSome)
          ((fusedIds.take topN).filterMap corpus.get?) :=
        hlookups.imp fun id chunk hget => (hkeyed id chunk hget).symm
      have heq := List.forall₂_map_right_iff.mpr hsame
      rw [List.forall₂_eq_eq_eq] at heq
      exact heq.symm
    rw [hids]
    exact hnodup'

/-- **Fusion keeps everything and respects agreement.** Every id of the lists is in the result once;
an id that stands before another one in every list that has the other one comes before it. Whatever
the rankings and the corpus are, retrieval returns at most `topN` chunks of the corpus, distinct and
in fused order. -/
theorem fusion_keeps_and_agrees :
    (∀ rankedIdLists : List (List String), (∀ rankedIds ∈ rankedIdLists, rankedIds.Nodup) →
        Fused rankedIdLists (reciprocalRankFusion rankedIdLists)) ∧
      ∀ (rt : Runtime) (index : IndexSnapshot) (query : String) (topN : ℕ)
        (faissRankedIds bm25Ids : List String), index.similaritySearch query = .ok faissRankedIds →
        bm25RankedIds index (tokenize rt query) = .ok bm25Ids →
        ∃ candidates, hybridRetrieve rt (.ok index) query topN = .ok candidates ∧
          LookedUp index.corpus (reciprocalRankFusion [faissRankedIds, bm25Ids]) topN
            candidates := by
  constructor
  · intro rankedIdLists hnodup
    exact ⟨reciprocalRankFusion_nodup, fun d => mem_reciprocalRankFusion,
      fun a b hb hagree => pair_sublist_reciprocalRankFusion hnodup hb hagree⟩
  · intro rt index query topN faissRankedIds bm25Ids hfaiss hbm25
    refine ⟨_, ?_, lookedUp_filterMap index.corpus reciprocalRankFusion_nodup topN⟩
    have hretrieve : hybridRetrieve rt (.ok index) query topN = (do
        let faissRankedIds ← index.similaritySearch query
        let bm25RankedIds ← bm25RankedIds index (tokenize rt query)
        return ((reciprocalRankFusion [faissRankedIds, bm25RankedIds]).take topN).filterMap
          index.corpus.get?) := by
      simp only [hybridRetrieve, bm25RankedIds, bind_assoc]
      rfl
    rw [hretrieve, hfaiss, hbm25]
    rfl

private def fusedChunk (chunkId : String) : ChunkRecord where
  chunkId := chunkId
  documentId := "d"
  chunkIndex := 0
  rawChunkText := chunkId
  embeddingText := chunkId
  contentHash := chunkId

/-- Indexes with three ids, one of which the corpus does not have. -/
private def staleIndex : IndexSnapshot where
  similaritySearch _ := .ok ["a", "b", "c"]
  bm25Ids := ["a", "b", "c"]
  bm25Scores _ := .ok [2, 1, 3]
  corpus := ⟨[("a", fusedChunk "a"), ("b", fusedChunk "b")], by decide⟩

/-- Two rankings that agree on two of three ids, and a retrieval that has them. -/
theorem fusion_of_two :
    Fused [["a", "b", "c"], ["c", "a", "b"]]
        (reciprocalRankFusion [["a", "b", "c"], ["c", "a", "b"]]) ∧
      ∃ candidates, hybridRetrieve Runtime.example (.ok staleIndex) "law" 2 = .ok candidates ∧
        LookedUp staleIndex.corpus (reciprocalRankFusion [["a", "b", "c"], ["c", "a", "b"]]) 2
          candidates := by
  have hnodup : [["a", "b", "c"], ["c", "a", "b"]].all (fun ids => decide ids.Nodup) = true := by
    decide
  constructor
  · refine fusion_keeps_and_agrees.1 _ fun ids hids => ?_
    exact of_decide_eq_true (List.all_eq_true.mp hnodup ids hids)
  · have hbm25 : bm25RankedIds staleIndex (tokenize Runtime.example "law") =
        .ok ["c", "a", "b"] := by
      decide +kernel
    exact fusion_keeps_and_agrees.2 Runtime.example staleIndex "law" 2 _ _ rfl hbm25

end AuditFlow
