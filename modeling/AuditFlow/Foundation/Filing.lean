import AuditFlow.Foundation.Dict

/-!
# Filed tables

A table is **filed** if each of its keys names the owner of the value that is stored under it. Then
writing under keys of one owner leaves what all others have as it is (`ChangesOnly`), whatever there
was under these keys before: one need not know which keys are in use, only whose they are.
-/

namespace Foundation.Dict

variable {K V D : Type} [DecidableEq K]

/-- Each key names the owner of its value. -/
def Filed (owner : K → D) (holder : V → D) (t : Dict K V) : Prop :=
  ∀ k v, t.get? k = some v → holder v = owner k

variable {owner : K → D} {holder : V → D} {t : Dict K V}

theorem filed_empty : (empty : Dict K V).Filed owner holder := by
  intro k v h
  rw [get?_empty] at h
  cases h

namespace Filed

theorem filter (h : t.Filed owner holder) (p : K → V → Bool) :
    (t.filter p).Filed owner holder := by
  intro k v hget
  rw [get?_filter] at hget
  exact h k v (Option.filter_eq_some_iff.mp hget).1

theorem eraseAll (h : t.Filed owner holder) (ks : List K) :
    (t.eraseAll ks).Filed owner holder := by
  intro k v hget
  rw [get?_eraseAll] at hget
  split_ifs at hget
  exact h k v hget

theorem set (h : t.Filed owner holder) {k : K} {v : V} (hv : holder v = owner k) :
    (t.set k v).Filed owner holder := by
  intro k' w hget
  rw [get?_set] at hget
  split_ifs at hget with hk
  · obtain rfl := Option.some.inj hget
    rw [hk]
    exact hv
  · exact h k' w hget

/-- Keys of the owner of a value are where it is. -/
theorem owner_of_mem_keys (h : t.Filed owner holder) {k : K} {p : K → V → Bool} {d : D}
    (hp : ∀ k v, p k v = true → holder v = d) (hk : k ∈ (t.filter p).keys) : owner k = d := by
  obtain ⟨v, hget⟩ := mem_keys_iff.mp hk
  rw [get?_filter, Option.filter_eq_some_iff] at hget
  exact (h k v hget.1).symm.trans (hp k v hget.2)

end Filed

/-! ### Changes of one owner -/

/-- What `d` does not own stays as it is in a filed table, which stays filed. -/
def ChangesOnly [DecidableEq D] (owner : K → D) (holder : V → D) (d : D) (t t' : Dict K V) : Prop :=
  t.Filed owner holder → t'.Filed owner holder ∧ ∀ d' ≠ d,
    t'.filter (fun _ v => decide (holder v = d')) = t.filter fun _ v => decide (holder v = d')

section

variable [DecidableEq D] {d : D}

theorem changesOnly_refl (d : D) (t : Dict K V) : ChangesOnly owner holder d t t :=
  fun h => ⟨h, fun _ _ => rfl⟩

theorem ChangesOnly.trans {t' t'' : Dict K V} (h : ChangesOnly owner holder d t t')
    (h' : ChangesOnly owner holder d t' t'') : ChangesOnly owner holder d t t'' := by
  intro hfiled
  obtain ⟨hfiled', hsame⟩ := h hfiled
  obtain ⟨hfiled'', hsame'⟩ := h' hfiled'
  exact ⟨hfiled'', fun d' hne => (hsame' d' hne).trans (hsame d' hne)⟩

/-- Erasing keys of `d`. -/
theorem changesOnly_eraseAll {ks : List K} (hks : ∀ k ∈ ks, owner k = d) (t : Dict K V) :
    ChangesOnly owner holder d t (t.eraseAll ks) := by
  intro h
  refine ⟨h.eraseAll ks, fun d' hne => ?_⟩
  rw [filter_eraseAll]
  refine eraseAll_of_notMem fun k hk hmem => ?_
  have hother : owner k = d' := h.owner_of_mem_keys (fun _ _ hv => of_decide_eq_true hv) hmem
  exact hne (hother.symm.trans (hks k hk))

/-- Setting a key of `d` to a value of `d`. -/
theorem changesOnly_set {k : K} {v : V} (hk : owner k = d) (hv : holder v = d) (t : Dict K V) :
    ChangesOnly owner holder d t (t.set k v) := by
  intro h
  refine ⟨h.set (hv.trans hk.symm), fun d' hne => ?_⟩
  refine filter_set_of_drop (decide_eq_false fun hd => hne (hd.symm.trans hv)) ?_
  intro w hw
  have hold : holder w = d := (h k w hw).trans hk
  exact decide_eq_false fun hd => hne (hd.symm.trans hold)

/-- Removing the values of `d`. -/
theorem changesOnly_filter (d : D) (t : Dict K V) :
    ChangesOnly owner holder d t (t.filter fun _ v => decide (holder v ≠ d)) := by
  intro h
  refine ⟨h.filter _, fun d' hne => ?_⟩
  refine eq_of_entries ?_
  simp only [filter, List.filter_filter]
  refine List.filter_congr fun e _ => ?_
  by_cases hd : holder e.2 = d'
  · have hother : holder e.2 ≠ d := fun h => hne (hd.symm.trans h)
    simp only [hd, decide_true, Bool.true_and, decide_eq_true_eq]
    exact hd ▸ hother
  · simp only [hd, decide_false, Bool.false_and]

/-- A loop each of whose rounds changes `d` only. -/
theorem changesOnly_foldl {E : Type} {f : Dict K V → E → Dict K V} {es : List E}
    (h : ∀ e ∈ es, ∀ t, ChangesOnly owner holder d t (f t e)) (t : Dict K V) :
    ChangesOnly owner holder d t (es.foldl f t) := by
  induction es generalizing t with
  | nil => exact changesOnly_refl d t
  | cons e es ih =>
    rw [List.foldl_cons]
    have hfirst : ChangesOnly owner holder d t (f t e) := h e List.mem_cons_self t
    exact hfirst.trans (ih (fun e' he' => h e' (List.mem_cons_of_mem e he')) (f t e))

end

end Foundation.Dict
