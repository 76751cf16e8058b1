import Mathlib.Data.List.Nodup
import Mathlib.Data.List.Basic

/-!
# Insertion-ordered dictionaries

`Dict K V` is a finite map whose entries keep the order in which their keys were first set: a
list of pairs together with the proof that **no key occurs twice**. Setting an existing key
replaces its value in place, a new key goes to the end, and erasing a key keeps the order of the
others.

The extensional reading of a dictionary is `get?`; `mem_entries_iff` ties it to the entries, and
every operation has one equation for `get?`, so that users never look inside the list.
-/

namespace Foundation

/-- A finite map in insertion order; keys are pairwise distinct by construction. -/
structure Dict (K V : Type) where
  entries : List (K × V)
  nodup : (entries.map Prod.fst).Nodup

namespace Dict

variable {K V : Type}

/-- The empty dictionary. -/
def empty : Dict K V := ⟨[], List.nodup_nil⟩

/-- The keys, in insertion order. -/
def keys (d : Dict K V) : List K := d.entries.map Prod.fst

/-- The values, in insertion order of their keys. -/
def values (d : Dict K V) : List V := d.entries.map Prod.snd

/-- Keep the entries that satisfy `p`. -/
def filter (d : Dict K V) (p : K → V → Bool) : Dict K V :=
  ⟨d.entries.filter fun e => p e.1 e.2, d.nodup.sublist (List.filter_sublist.map _)⟩

theorem keys_nodup (d : Dict K V) : d.keys.Nodup := d.nodup

/-- A dictionary is its entries. -/
theorem eq_of_entries {d d' : Dict K V} (h : d.entries = d'.entries) : d = d' := by
  obtain ⟨l, hl⟩ := d
  obtain ⟨l', hl'⟩ := d'
  obtain rfl : l = l' := h
  rfl

theorem filter_comm (d : Dict K V) (p q : K → V → Bool) :
    (d.filter p).filter q = (d.filter q).filter p := by
  refine eq_of_entries ?_
  simp only [filter, List.filter_filter]
  exact List.filter_congr fun e _ => Bool.and_comm _ _

theorem mem_keys_of_mem_keys_filter {d : Dict K V} {p : K → V → Bool} {k : K}
    (h : k ∈ (d.filter p).keys) : k ∈ d.keys := by
  obtain ⟨e, he, hk⟩ := List.mem_map.mp h
  exact List.mem_map.mpr ⟨e, (List.mem_filter.mp he).1, hk⟩

variable [DecidableEq K]

/-- `d.get(k)`. -/
def get? (d : Dict K V) (k : K) : Option V :=
  (d.entries.find? fun e => decide (e.1 = k)).map Prod.snd

/-- `k in d`. -/
def contains (d : Dict K V) (k : K) : Bool := (d.get? k).isSome

/-- The entry at `k` is exactly the pair listed under `k`. -/
theorem mem_entries_iff {d : Dict K V} {k : K} {v : V} :
    (k, v) ∈ d.entries ↔ d.get? k = some v := by
  obtain ⟨l, hl⟩ := d
  simp only [get?]
  induction l with
  | nil => simp
  | cons e l ih =>
    obtain ⟨hnot, hl'⟩ := List.nodup_cons.mp hl
    obtain ⟨k', v'⟩ := e
    rcases eq_or_ne k' k with rfl | hne
    · have habs : (k', v) ∉ l := fun h =>
        hnot (List.mem_map.mpr ⟨(k', v), h, rfl⟩)
      simp [habs, eq_comm]
    · have hne' : ¬(k = k') := fun h => hne h.symm
      simp [hne, hne', ih hl']

theorem get?_eq_none_iff {d : Dict K V} {k : K} : d.get? k = none ↔ k ∉ d.keys := by
  rw [Option.eq_none_iff_forall_not_mem]
  simp only [Option.mem_def, ← mem_entries_iff, keys, List.mem_map, Prod.exists,
    exists_and_right, exists_eq_right, not_exists]

theorem mem_keys_iff {d : Dict K V} {k : K} : k ∈ d.keys ↔ ∃ v, d.get? k = some v := by
  rw [← Option.ne_none_iff_exists', ne_eq, get?_eq_none_iff, not_not]

theorem mem_values_iff {d : Dict K V} {v : V} : v ∈ d.values ↔ ∃ k, d.get? k = some v := by
  simp only [values, List.mem_map, Prod.exists, mem_entries_iff, exists_eq_right]

theorem contains_iff {d : Dict K V} {k : K} : d.contains k = true ↔ ∃ v, d.get? k = some v := by
  rw [contains, Option.isSome_iff_exists]

@[simp] theorem get?_empty (k : K) : (empty : Dict K V).get? k = none := rfl

/-- Two lookups agree when the dictionaries list the same pairs. -/
private theorem get?_eq_of_mem_iff {d : Dict K V} {k : K} {o : Option V}
    (h : ∀ v, (k, v) ∈ d.entries ↔ o = some v) : d.get? k = o := by
  apply Option.ext
  intro v
  rw [← mem_entries_iff, h]

@[simp] theorem get?_filter (d : Dict K V) (p : K → V → Bool) (k : K) :
    (d.filter p).get? k = (d.get? k).filter (p k) := by
  refine get?_eq_of_mem_iff fun v => ?_
  simp only [filter, List.mem_filter, mem_entries_iff, Option.filter_eq_some_iff]

/-- The values, looked up by their keys. -/
private theorem filterMap_get?_keys (d : Dict K V) : d.keys.filterMap d.get? = d.values := by
  have hget : ∀ e ∈ d.entries, (d.get? ∘ Prod.fst) e = (some ∘ Prod.snd) e :=
    fun e he => mem_entries_iff.mp he
  rw [keys, List.filterMap_map, List.filterMap_congr hget, List.filterMap_eq_map]
  rfl

/-- The values, looked up along any list of the keys. -/
theorem values_perm_filterMap {d : Dict K V} {ks : List K} (hnodup : ks.Nodup)
    (h : ∀ k, k ∈ ks ↔ k ∈ d.keys) : d.values.Perm (ks.filterMap d.get?) := by
  rw [← filterMap_get?_keys]
  exact ((List.perm_ext_iff_of_nodup d.keys_nodup hnodup).mpr fun k => (h k).symm).filterMap _

/-! ### Erasing and setting -/

/-- `d.pop(k, None)`. -/
def erase (d : Dict K V) (k : K) : Dict K V := d.filter fun k' _ => decide (k' ≠ k)

theorem get?_erase (d : Dict K V) (k k' : K) :
    (d.erase k).get? k' = if k' = k then none else d.get? k' := by
  rw [erase, get?_filter]
  split_ifs with h
  · cases d.get? k' <;> simp [h]
  · cases d.get? k' <;> simp [h]

/-- `for k in ks: d.pop(k, None)`. -/
def eraseAll (d : Dict K V) (ks : List K) : Dict K V := ks.foldl erase d

theorem get?_eraseAll (d : Dict K V) (ks : List K) (k : K) :
    (d.eraseAll ks).get? k = if k ∈ ks then none else d.get? k := by
  induction ks generalizing d with
  | nil => simp [eraseAll]
  | cons a ks ih =>
    have hstep : d.eraseAll (a :: ks) = (d.erase a).eraseAll ks := rfl
    rw [hstep, ih, get?_erase]
    rcases eq_or_ne k a with rfl | hne
    · simp
    · simp [hne]

/-- The entry list after `d[k] = v`: in place if the key is there, at the end otherwise. -/
private def setEntries (l : List (K × V)) (k : K) (v : V) : List (K × V) :=
  if k ∈ l.map Prod.fst then l.map fun e => if e.1 = k then (k, v) else e else l ++ [(k, v)]

private theorem setEntries_keys (l : List (K × V)) (k : K) (v : V) :
    (setEntries l k v).map Prod.fst =
      if k ∈ l.map Prod.fst then l.map Prod.fst else l.map Prod.fst ++ [k] := by
  rw [setEntries]
  split_ifs with h
  · rw [List.map_map]
    refine List.map_congr_left fun e _ => ?_
    simp only [Function.comp_apply]
    split_ifs with he
    · exact he.symm
    · rfl
  · simp

/-- `d[k] = v`. -/
def set (d : Dict K V) (k : K) (v : V) : Dict K V :=
  ⟨setEntries d.entries k v, by
    rw [setEntries_keys]
    split_ifs with h
    · exact d.nodup
    · exact d.nodup.append (List.nodup_singleton k) (by simpa using h)⟩

theorem keys_set (d : Dict K V) (k : K) (v : V) :
    (d.set k v).keys = if k ∈ d.keys then d.keys else d.keys ++ [k] :=
  setEntries_keys d.entries k v

theorem get?_set (d : Dict K V) (k k' : K) (v : V) :
    (d.set k v).get? k' = if k' = k then some v else d.get? k' := by
  refine get?_eq_of_mem_iff fun w => ?_
  by_cases hk : k ∈ d.keys
  · have hset : (d.set k v).entries = d.entries.map fun e => if e.1 = k then (k, v) else e :=
      if_pos hk
    rw [hset, List.mem_map]
    split_ifs with h
    · subst h
      obtain ⟨v₀, hv₀⟩ := mem_keys_iff.mp hk
      constructor
      · rintro ⟨e, -, heq⟩
        split_ifs at heq with he
        · exact congrArg some (Prod.mk.inj heq).2
        · exact absurd (congrArg Prod.fst heq) he
      · intro hw
        exact ⟨(k', v₀), mem_entries_iff.mpr hv₀, by simpa using hw⟩
    · constructor
      · rintro ⟨e, he, heq⟩
        split_ifs at heq with hek
        · exact absurd (congrArg Prod.fst heq).symm h
        · exact mem_entries_iff.mp (heq ▸ he)
      · intro hw
        exact ⟨(k', w), mem_entries_iff.mpr hw, by simp [h]⟩
  · have hset : (d.set k v).entries = d.entries ++ [(k, v)] := if_neg hk
    rw [hset, List.mem_append, mem_entries_iff]
    split_ifs with h
    · subst h
      rw [get?_eq_none_iff.mpr hk]
      simp [eq_comm]
    · simp [h]

@[simp] theorem get?_set_self (d : Dict K V) (k : K) (v : V) : (d.set k v).get? k = some v := by
  rw [get?_set, if_pos rfl]

/-- `for e in es: d[key e] = e`, read through the key and value of each element. -/
def setAll {E : Type} (d : Dict K V) (key : E → K) (val : E → V) (es : List E) : Dict K V :=
  es.foldl (fun d e => d.set (key e) (val e)) d

theorem setAll_cons {E : Type} (d : Dict K V) (key : E → K) (val : E → V) (e : E) (es : List E) :
    d.setAll key val (e :: es) = (d.set (key e) (val e)).setAll key val es := rfl

/-- New keys go to the end, in their order. -/
private theorem entries_setAll_of_new {E : Type} {d : Dict K V} {key : E → K} {val : E → V}
    {es : List E} (hnodup : (es.map key).Nodup) (hnew : ∀ e ∈ es, key e ∉ d.keys) :
    (d.setAll key val es).entries = d.entries ++ es.map fun e => (key e, val e) := by
  induction es generalizing d with
  | nil => simp [setAll]
  | cons e es ih =>
    obtain ⟨hnot, hnodup'⟩ := List.nodup_cons.mp hnodup
    have hset : (d.set (key e) (val e)).entries = d.entries ++ [(key e, val e)] :=
      if_neg (hnew e List.mem_cons_self)
    rw [setAll_cons, ih hnodup', hset]
    · simp
    · intro e' he' hmem
      rw [keys_set, if_neg (hnew e List.mem_cons_self), List.mem_append, List.mem_singleton] at hmem
      rcases hmem with hmem | hsame
      · exact hnew e' (List.mem_cons_of_mem e he') hmem
      · exact hnot (hsame ▸ List.mem_map_of_mem he')

/-- **A dictionary is its values**, set one after the other, if each value knows its key. -/
theorem setAll_values {d : Dict K V} {key : V → K} (h : ∀ k v, d.get? k = some v → key v = k) :
    (empty : Dict K V).setAll key id d.values = d := by
  have hkeys : d.values.map key = d.keys := by
    rw [values, keys, List.map_map]
    exact List.map_congr_left fun e he => h e.1 e.2 (mem_entries_iff.mp he)
  have hpairs : (d.values.map fun v => (key v, id v)) = d.entries := by
    rw [values, List.map_map]
    refine (List.map_congr_left fun e he => ?_).trans (List.map_id d.entries)
    exact Prod.ext (h e.1 e.2 (mem_entries_iff.mp he)) rfl
  refine eq_of_entries ?_
  rw [entries_setAll_of_new (hkeys ▸ d.keys_nodup) fun _ _ => List.not_mem_nil, hpairs]
  rfl

/-- **A dictionary is its entries**, set one after the other. -/
theorem setAll_entries (d : Dict K V) :
    (empty : Dict K V).setAll Prod.fst Prod.snd d.entries = d := by
  refine eq_of_entries ?_
  rw [entries_setAll_of_new d.nodup fun _ _ => List.not_mem_nil]
  simp [empty]

/-- Where no element of the batch has the key, the old value is still there. -/
theorem get?_setAll_of_notMem {E : Type} {d : Dict K V} {key : E → K} {val : E → V}
    {es : List E} {k : K} (h : k ∉ es.map key) : (d.setAll key val es).get? k = d.get? k := by
  induction es generalizing d with
  | nil => rfl
  | cons e es ih =>
    rw [List.map_cons, List.mem_cons, not_or] at h
    rw [setAll_cons, ih h.2, get?_set, if_neg h.1]

/-- Where some element has the key, the value comes from an element with that key. -/
theorem get?_setAll_of_mem {E : Type} {d : Dict K V} {key : E → K} {val : E → V}
    {es : List E} {k : K} (h : k ∈ es.map key) :
    ∃ e ∈ es, key e = k ∧ (d.setAll key val es).get? k = some (val e) := by
  induction es generalizing d with
  | nil => simp at h
  | cons e es ih =>
    rw [setAll_cons]
    by_cases hk : k ∈ es.map key
    · obtain ⟨e', he', hkey, hget⟩ := ih hk (d := d.set (key e) (val e))
      exact ⟨e', List.mem_cons_of_mem e he', hkey, hget⟩
    · have hhead : k = key e := by
        rcases List.mem_cons.mp h with h | h
        · exact h
        · exact absurd h hk
      refine ⟨e, List.mem_cons_self, hhead.symm, ?_⟩
      rw [get?_setAll_of_notMem hk, hhead, get?_set_self]

/-- What a batch sets does not depend on what it replaces. -/
theorem get?_setAll_congr {E : Type} {d d' : Dict K V} {key : E → K} {val : E → V} {es : List E}
    {k : K} (h : k ∈ es.map key) :
    (d.setAll key val es).get? k = (d'.setAll key val es).get? k := by
  induction es generalizing d d' with
  | nil => cases h
  | cons e es ih =>
    rw [setAll_cons, setAll_cons]
    by_cases hk : k ∈ es.map key
    · exact ih hk
    · have hhead : k = key e := (List.mem_cons.mp h).resolve_right hk
      rw [get?_setAll_of_notMem hk, get?_setAll_of_notMem hk, hhead, get?_set_self, get?_set_self]

theorem mem_keys_setAll {E : Type} {d : Dict K V} {key : E → K} {val : E → V} {es : List E}
    {k : K} : k ∈ (d.setAll key val es).keys ↔ k ∈ d.keys ∨ k ∈ es.map key := by
  by_cases h : k ∈ es.map key
  · obtain ⟨e, -, -, hget⟩ : ∃ e ∈ es, key e = k ∧ (d.setAll key val es).get? k = some (val e) :=
      get?_setAll_of_mem h
    exact iff_of_true (mem_keys_iff.mpr ⟨_, hget⟩) (Or.inr h)
  · simp only [mem_keys_iff, get?_setAll_of_notMem h, h, or_false]

/-! ### Filters and batches -/

theorem filter_eraseAll (d : Dict K V) (p : K → V → Bool) (ks : List K) :
    (d.eraseAll ks).filter p = (d.filter p).eraseAll ks := by
  induction ks generalizing d with
  | nil => rfl
  | cons k ks ih =>
    have hstep : d.eraseAll (k :: ks) = (d.erase k).eraseAll ks := rfl
    rw [hstep, ih, erase, filter_comm]
    rfl

/-- Keys that are not there are erased in vain. -/
theorem eraseAll_of_notMem {d : Dict K V} {ks : List K} (h : ∀ k ∈ ks, k ∉ d.keys) :
    d.eraseAll ks = d := by
  induction ks with
  | nil => rfl
  | cons k ks ih =>
    have hfirst : d.erase k = d := by
      refine eq_of_entries (List.filter_eq_self.mpr fun e he => decide_eq_true ?_)
      rintro rfl
      exact h _ List.mem_cons_self (List.mem_map_of_mem he)
    have hstep : d.eraseAll (k :: ks) = (d.erase k).eraseAll ks := rfl
    rw [hstep, hfirst]
    exact ih fun k' hk' => h k' (List.mem_cons_of_mem k hk')

/-- A new key goes to the end, also of what is filtered. -/
private theorem filter_set_of_notMem {d : Dict K V} {k : K} (h : k ∉ d.keys) (v : V)
    (p : K → V → Bool) :
    (d.set k v).filter p = if p k v then (d.filter p).set k v else d.filter p := by
  have hentries : (d.set k v).entries = d.entries ++ [(k, v)] := if_neg h
  have hfilter : ((d.set k v).filter p).entries =
      (d.filter p).entries ++ [(k, v)].filter fun e => p e.1 e.2 :=
    (congrArg (List.filter fun e : K × V => p e.1 e.2) hentries).trans (List.filter_append _ _)
  refine eq_of_entries ?_
  rw [hfilter]
  split_ifs with hp
  · have hnot : k ∉ (d.filter p).keys := fun hmem => h (mem_keys_of_mem_keys_filter hmem)
    have hset : ((d.filter p).set k v).entries = (d.filter p).entries ++ [(k, v)] := if_neg hnot
    simp only [hset, List.filter_cons, hp, if_true, List.filter_nil]
  · simp [hp]

/-- What is set is dropped by the filter, and so is what it replaces. -/
theorem filter_set_of_drop {d : Dict K V} {k : K} {v : V} {p : K → V → Bool}
    (hnew : p k v = false) (hold : ∀ w, d.get? k = some w → p k w = false) :
    (d.set k v).filter p = d.filter p := by
  by_cases hk : k ∈ d.keys
  · have hset : (d.set k v).entries = d.entries.map fun e => if e.1 = k then (k, v) else e :=
      if_pos hk
    -- at `k` both are dropped, and elsewhere nothing is replaced
    have hsame : ∀ e ∈ d.entries, p (if e.1 = k then (k, v) else e).1
        (if e.1 = k then (k, v) else e).2 = p e.1 e.2 := by
      intro e he
      split_ifs with hek
      · have hget : d.get? k = some e.2 := mem_entries_iff.mp (hek ▸ he)
        rw [hek, hnew, hold e.2 hget]
      · rfl
    have hfilter : ((d.set k v).filter p).entries = ((d.entries.filter
        ((fun e => p e.1 e.2) ∘ fun e => if e.1 = k then (k, v) else e)).map
          fun e => if e.1 = k then (k, v) else e) :=
      (congrArg (List.filter fun e : K × V => p e.1 e.2) hset).trans List.filter_map
    have hkept : d.entries.filter ((fun e => p e.1 e.2) ∘ fun e => if e.1 = k then (k, v) else e) =
        d.entries.filter fun e => p e.1 e.2 := List.filter_congr hsame
    rw [hkept] at hfilter
    refine eq_of_entries (hfilter.trans ?_)
    refine (List.map_congr_left fun e he => if_neg ?_).trans (List.map_id _)
    obtain ⟨hmem, hpass⟩ := List.mem_filter.mp he
    intro hek
    have hget : d.get? k = some e.2 := mem_entries_iff.mp (hek ▸ hmem)
    rw [hek, hold e.2 hget] at hpass
    cases hpass
  · rw [filter_set_of_notMem hk, if_neg]
    rw [hnew]
    exact Bool.false_ne_true

/-- What is set passes the filter, and so does what it replaces. -/
theorem filter_set_of_pass {d : Dict K V} {k : K} {v : V} {p : K → V → Bool}
    (hnew : p k v = true) (hold : ∀ w, d.get? k = some w → p k w = true) :
    (d.set k v).filter p = (d.filter p).set k v := by
  by_cases hk : k ∈ d.keys
  · have hset : (d.set k v).entries = d.entries.map fun e => if e.1 = k then (k, v) else e :=
      if_pos hk
    have hkept : k ∈ (d.filter p).keys := by
      obtain ⟨w, hw⟩ := mem_keys_iff.mp hk
      exact mem_keys_iff.mpr ⟨w, by rw [get?_filter, hw, Option.filter_some, if_pos (hold w hw)]⟩
    have hset' : ((d.filter p).set k v).entries =
        (d.filter p).entries.map fun e => if e.1 = k then (k, v) else e := if_pos hkept
    have hsame : ∀ e ∈ d.entries, p (if e.1 = k then (k, v) else e).1
        (if e.1 = k then (k, v) else e).2 = p e.1 e.2 := by
      intro e he
      split_ifs with hek
      · have hget : d.get? k = some e.2 := mem_entries_iff.mp (hek ▸ he)
        rw [hek, hnew, hold e.2 hget]
      · rfl
    have hfilter : ((d.set k v).filter p).entries = ((d.entries.filter
        ((fun e => p e.1 e.2) ∘ fun e => if e.1 = k then (k, v) else e)).map
          fun e => if e.1 = k then (k, v) else e) :=
      (congrArg (List.filter fun e : K × V => p e.1 e.2) hset).trans List.filter_map
    have hcongr : d.entries.filter
        ((fun e => p e.1 e.2) ∘ fun e => if e.1 = k then (k, v) else e) =
          d.entries.filter fun e => p e.1 e.2 := List.filter_congr hsame
    rw [hcongr] at hfilter
    exact eq_of_entries (hfilter.trans hset'.symm)
  · rw [filter_set_of_notMem hk, if_pos hnew]

section

variable {E : Type} {d : Dict K V} {key : E → K} {val : E → V} {es : List E} {p : K → V → Bool}

/-- A batch of new keys, filtered. -/
private theorem filter_setAll_cons (val : E → V) {e : E} (hnodup : ((e :: es).map key).Nodup)
    (hnew : ∀ e' ∈ e :: es, key e' ∉ d.keys) :
    (es.map key).Nodup ∧ ∀ e' ∈ es, key e' ∉ (d.set (key e) (val e)).keys := by
  obtain ⟨hfirst, hrest⟩ := List.nodup_cons.mp hnodup
  refine ⟨hrest, fun e' he' hmem => ?_⟩
  rw [keys_set, if_neg (hnew e List.mem_cons_self), List.mem_append, List.mem_singleton] at hmem
  rcases hmem with hold | hsame
  · exact hnew e' (List.mem_cons_of_mem e he') hold
  · exact hfirst (List.mem_map.mpr ⟨e', he', hsame⟩)

/-- A batch of new entries that pass the filter. -/
theorem filter_setAll_of_pass (hnodup : (es.map key).Nodup) (hnew : ∀ e ∈ es, key e ∉ d.keys)
    (hp : ∀ e ∈ es, p (key e) (val e) = true) :
    (d.setAll key val es).filter p = (d.filter p).setAll key val es := by
  induction es generalizing d with
  | nil => rfl
  | cons e es ih =>
    obtain ⟨hnodup', hnew'⟩ := filter_setAll_cons val hnodup hnew
    rw [setAll_cons, ih hnodup' hnew' fun e' he' => hp e' (List.mem_cons_of_mem e he'),
      filter_set_of_notMem (hnew e List.mem_cons_self), if_pos (hp e List.mem_cons_self),
      setAll_cons]

end

/-! ### Updating and counting entries -/

omit [DecidableEq K] in
private theorem map_fst_updateWhere (l : List (K × V)) (p : K → V → Bool) (f : V → V) :
    (l.map fun e => if p e.1 e.2 then (e.1, f e.2) else e).map Prod.fst = l.map Prod.fst := by
  rw [List.map_map]
  refine List.map_congr_left fun e _ => ?_
  rw [Function.comp_apply]
  split_ifs
  · rfl
  · rfl

/-- `UPDATE … SET … WHERE p`. -/
def updateWhere (d : Dict K V) (p : K → V → Bool) (f : V → V) : Dict K V :=
  ⟨d.entries.map fun e => if p e.1 e.2 then (e.1, f e.2) else e, by
    rw [map_fst_updateWhere]
    exact d.nodup⟩

omit [DecidableEq K] in
theorem keys_updateWhere (d : Dict K V) (p : K → V → Bool) (f : V → V) :
    (d.updateWhere p f).keys = d.keys := map_fst_updateWhere d.entries p f

theorem get?_updateWhere (d : Dict K V) (p : K → V → Bool) (f : V → V) (k : K) :
    (d.updateWhere p f).get? k = (d.get? k).map fun v => if p k v then f v else v := by
  refine get?_eq_of_mem_iff fun w => ?_
  rw [Option.map_eq_some_iff, updateWhere, List.mem_map]
  simp only [Prod.exists, mem_entries_iff]
  constructor
  · rintro ⟨k', v, hget, heq⟩
    split_ifs at heq with hp
    · obtain ⟨rfl, rfl⟩ := Prod.mk.inj heq
      exact ⟨v, hget, if_pos hp⟩
    · obtain ⟨rfl, rfl⟩ := Prod.mk.inj heq
      exact ⟨v, hget, if_neg hp⟩
  · rintro ⟨v, hget, rfl⟩
    refine ⟨k, v, hget, ?_⟩
    split_ifs
    · rfl
    · rfl

/-- How many values satisfy `p`. -/
def countValues (d : Dict K V) (p : V → Bool) : ℕ := d.values.countP p

theorem countValues_eq_zero_iff {d : Dict K V} {p : V → Bool} :
    d.countValues p = 0 ↔ ∀ k v, d.get? k = some v → p v = false := by
  rw [countValues, List.countP_eq_zero]
  simp only [mem_values_iff, Bool.not_eq_true]
  exact ⟨fun h k v hget => h v ⟨k, hget⟩, fun h v ⟨k, hget⟩ => h k v hget⟩

/-- A new key counts if its value does. -/
theorem countValues_set {d : Dict K V} {k : K} {v : V} {p : V → Bool} (h : k ∉ d.keys) :
    (d.set k v).countValues p = d.countValues p + if p v then 1 else 0 := by
  have hset : (d.set k v).values = d.values ++ [v] := by
    have hentries : (d.set k v).entries = d.entries ++ [(k, v)] := if_neg h
    rw [values, hentries, List.map_append]
    rfl
  rw [countValues, hset, List.countP_append, List.countP_singleton, countValues]

omit [DecidableEq K] in
/-- An update that keeps `p` keeps the count. -/
theorem countValues_updateWhere_of_keeps {d : Dict K V} {q : K → V → Bool} {f : V → V}
    {p : V → Bool} (h : ∀ e ∈ d.entries, q e.1 e.2 = true → p (f e.2) = p e.2) :
    (d.updateWhere q f).countValues p = d.countValues p := by
  rw [countValues, countValues, values, values, updateWhere, List.map_map, List.countP_map,
    List.countP_map]
  refine List.countP_congr fun e he => ?_
  simp only [Function.comp_apply]
  split_ifs with hq
  · rw [h e he hq]
  · rfl

/-- An update of one entry that loses `p` lowers the count by one. -/
theorem countValues_updateWhere_key {d : Dict K V} {k : K} {v : V} {f : V → V} {p : V → Bool}
    (hget : d.get? k = some v) (hbefore : p v = true) (hafter : p (f v) = false) :
    (d.updateWhere (fun k' _ => decide (k' = k)) f).countValues p + 1 = d.countValues p := by
  obtain ⟨l, hl⟩ := d
  have hmem : (k, v) ∈ l := mem_entries_iff.mpr hget
  obtain ⟨l₁, l₂, rfl⟩ := List.append_of_mem hmem
  -- the key occurs in this one entry only, so that the others stay as they are
  have hothers : ∀ e ∈ l₁ ++ l₂, e.1 ≠ k := by
    intro e he heq
    rw [List.map_append, List.map_cons, List.nodup_middle, List.nodup_cons,
      ← List.map_append] at hl
    have hkey : e.1 ∈ (l₁ ++ l₂).map Prod.fst := List.mem_map_of_mem he
    rw [heq] at hkey
    exact hl.1 hkey
  have hkept : ∀ l' : List (K × V), (∀ e ∈ l', e.1 ≠ k) →
      l'.map (fun e => if decide (e.1 = k) then (e.1, f e.2) else e) = l' := by
    intro l' hl'
    refine (List.map_congr_left fun e he => ?_).trans (List.map_id l')
    rw [decide_eq_false (hl' e he)]
    rfl
  have hbefore₁ := hkept l₁ fun e he => hothers e (List.mem_append_left _ he)
  have hafter₂ := hkept l₂ fun e he => hothers e (List.mem_append_right _ he)
  simp only [countValues, values, updateWhere, List.map_append, List.map_cons, hbefore₁, hafter₂,
    decide_true, if_true, List.countP_append, List.countP_cons, hbefore, hafter]
  simp only [Bool.false_eq_true, if_false]
  omega

end Dict

end Foundation
