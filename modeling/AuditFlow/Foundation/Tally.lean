import AuditFlow.Foundation.Dict

/-!
# Tallies

Accumulating a list of entries into a dictionary, one cell per key: a cell starts from a default and
every entry with its key is added to it. **A cell depends on the entries with its key alone**
(`getD_tally`), and there is one for every key that occurs (`mem_keys_tally`).
-/

namespace Foundation.Dict

variable {E K A : Type} [DecidableEq K] (key : E → K) (start : A) (add : A → E → A)

/-- Add every entry to the cell of its key. -/
def tally (d : Dict K A) (es : List E) : Dict K A :=
  es.foldl (fun d e => d.set (key e) (add ((d.get? (key e)).getD start) e)) d

theorem tally_cons (d : Dict K A) (e : E) (es : List E) :
    tally key start add d (e :: es) =
      tally key start add (d.set (key e) (add ((d.get? (key e)).getD start) e)) es := rfl

/-- **What a cell holds.** -/
theorem getD_tally (d : Dict K A) (es : List E) (k : K) :
    ((tally key start add d es).get? k).getD start =
      (es.filter fun e => key e = k).foldl add ((d.get? k).getD start) := by
  induction es generalizing d with
  | nil => rfl
  | cons e es ih =>
    rw [tally_cons, ih, get?_set, List.filter_cons]
    by_cases hk : k = key e
    · subst hk
      rw [if_pos rfl, decide_eq_true rfl, if_pos rfl, Option.getD_some, List.foldl_cons]
    · rw [if_neg hk, decide_eq_false (Ne.symm hk), if_neg Bool.false_ne_true]

/-- **Which keys have a cell.** -/
theorem mem_keys_tally (d : Dict K A) (es : List E) (k : K) :
    k ∈ (tally key start add d es).keys ↔ k ∈ d.keys ∨ ∃ e ∈ es, key e = k := by
  induction es generalizing d with
  | nil =>
    refine (or_iff_left ?_).symm
    rintro ⟨e, he, -⟩
    cases he
  | cons e es ih =>
    have hset (cell : A) : k ∈ (d.set (key e) cell).keys ↔ k ∈ d.keys ∨ key e = k := by
      rw [mem_keys_iff, mem_keys_iff, get?_set]
      split_ifs with hk
      · exact iff_of_true ⟨_, rfl⟩ (Or.inr hk.symm)
      · rw [or_iff_left fun h => hk h.symm]
    rw [tally_cons, ih, hset, List.exists_mem_cons_iff, or_assoc]

/-- The cell of a key that occurs, in a tally from nothing. -/
theorem get?_tally_empty {es : List E} {k : K} (h : ∃ e ∈ es, key e = k) :
    (tally key start add empty es).get? k =
      some ((es.filter fun e => key e = k).foldl add start) := by
  have hcell := getD_tally key start add empty es k
  obtain ⟨cell, hget⟩ := mem_keys_iff.mp ((mem_keys_tally key start add empty es k).mpr (Or.inr h))
  rw [hget, Option.getD_some, get?_empty, Option.getD_none] at hcell
  rw [hget, hcell]

end Foundation.Dict
