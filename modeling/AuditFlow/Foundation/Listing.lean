import Mathlib.Data.List.Nodup
import Mathlib.Data.List.Pairwise
import Mathlib.Order.Lattice

/-!
# Listings in the order of a key

What `ORDER BY` returns is a listing of the rows in which a key does not decrease; rows with the
same key may come in any order. So a query has one answer **exactly if the keys are pairwise
different**: `forall_listsBy_iff` says that a list is the only listing of its own elements if and
only if its keys strictly increase along it.

`firstOccurrences` is the other order of interest, that of a text: its parts without repetitions,
each where it stands first.
-/

namespace Foundation

section

variable {α κ : Type} [LinearOrder κ]

/-- A listing of some rows in the order of a key. -/
structure ListsBy (key : α → κ) (rows listing : List α) : Prop where
  perm : listing.Perm rows
  sorted : listing.Pairwise fun a b => key a ≤ key b

variable {key : α → κ} {rows rows' l : List α}

theorem ListsBy.congr (h : rows.Perm rows') {listing : List α} (hl : ListsBy key rows listing) :
    ListsBy key rows' listing := ⟨hl.perm.trans h, hl.sorted⟩

private theorem decide_le_trans (a b c : α) (hab : decide (key a ≤ key b) = true)
    (hbc : decide (key b ≤ key c) = true) : decide (key a ≤ key c) = true :=
  decide_eq_true (le_trans (of_decide_eq_true hab) (of_decide_eq_true hbc))

private theorem decide_le_total (a b : α) :
    (decide (key a ≤ key b) || decide (key b ≤ key a)) = true := by
  rw [Bool.or_eq_true, decide_eq_true_eq, decide_eq_true_eq]
  exact le_total (key a) (key b)

/-- A stable sort is a listing. -/
theorem listsBy_mergeSort (key : α → κ) (rows : List α) :
    ListsBy key rows (rows.mergeSort fun a b => decide (key a ≤ key b)) := by
  refine ⟨List.mergeSort_perm rows _, ?_⟩
  exact (List.pairwise_mergeSort decide_le_trans decide_le_total rows).imp of_decide_eq_true

/-- Stability: rows in the order of the key stay in their order. -/
private theorem pair_sublist_mergeSort {a b : α} (hab : key a ≤ key b)
    (h : [a, b].Sublist rows) :
    [a, b].Sublist (rows.mergeSort fun a b => decide (key a ≤ key b)) :=
  List.pair_sublist_mergeSort decide_le_trans decide_le_total (decide_eq_true hab) h

omit [LinearOrder κ] in
/-- Without repetitions, two elements come in one order only. -/
private theorem not_sublist_swap {a b : α} (hnodup : l.Nodup) (h : [a, b].Sublist l) :
    ¬[b, a].Sublist l := by
  induction l with
  | nil => exact fun h' => absurd (List.sublist_nil.mp h') (List.cons_ne_nil b [a])
  | cons x l ih =>
    obtain ⟨hx, hl⟩ := List.nodup_cons.mp hnodup
    intro h'
    -- whichever of the two is the head stands before the other, and does not come again
    cases h with
    | cons _ hin =>
      cases h' with
      | cons _ hin' => exact ih hl hin hin'
      | cons_cons _ ha => exact hx (hin.subset (List.mem_cons_of_mem a List.mem_cons_self))
    | cons_cons _ hb =>
      cases h' with
      | cons _ hin' => exact hx (hin'.subset (List.mem_cons_of_mem b List.mem_cons_self))
      | cons_cons _ ha => exact hx (hb.subset List.mem_cons_self)

/-- **One answer.** A list is the only listing of its elements if and only if its keys strictly
increase. -/
theorem forall_listsBy_iff (hnodup : l.Nodup) :
    (∀ listing, ListsBy key l listing → listing = l) ↔ l.Pairwise fun a b => key a < key b := by
  constructor
  · intro h
    have hsorted : l.Pairwise fun a b => key a ≤ key b := by
      have hlisting := listsBy_mergeSort key l
      have hl := hlisting.sorted
      rwa [h _ hlisting] at hl
    refine List.pairwise_of_forall_sublist fun {a b} hab => ?_
    have hle : key a ≤ key b := hsorted.forall_sublist hab
    refine lt_of_le_of_ne hle fun heq => ?_
    -- sorting the reversed list exchanges the two, and it is a listing as well
    have hlisting := (listsBy_mergeSort key l.reverse).congr l.reverse_perm
    have hswapped : [b, a].Sublist l.reverse := hab.reverse
    have hba := pair_sublist_mergeSort (le_of_eq heq.symm) hswapped
    rw [h _ hlisting] at hba
    exact not_sublist_swap hnodup hab hba
  · intro h listing hlisting
    have hle : l.Pairwise fun a b => key a ≤ key b := h.imp le_of_lt
    have hinj : ∀ a ∈ l, ∀ b ∈ l, key a = key b → a = b := by
      have : Std.Symm fun a b : α => key a = key b → a = b := ⟨fun _ _ h heq => (h heq.symm).symm⟩
      have hne : l.Pairwise fun a b => key a = key b → a = b :=
        h.imp fun hlt heq => absurd heq (ne_of_lt hlt)
      exact fun a ha b hb => hne.forall_of_forall (fun _ _ _ => rfl) ha hb
    refine List.Perm.eq_of_pairwise ?_ hlisting.sorted hle hlisting.perm
    intro a b ha hb hab hba
    exact hinj a (hlisting.perm.subset ha) b hb (le_antisymm hab hba)

omit [LinearOrder κ] in
/-- Without repetitions, the names of the rows tell their order. -/
private theorem eq_of_map_eq {β : Type} {f : α → β} (hnodup : (rows.map f).Nodup)
    (hsub : ∀ a ∈ l, a ∈ rows) (hmap : l.map f = rows.map f) : l = rows := by
  have hinj := List.inj_on_of_nodup_map hnodup
  refine List.ext_getElem? fun i => ?_
  have hi : (l.map f)[i]? = (rows.map f)[i]? := by rw [hmap]
  rw [List.getElem?_map, List.getElem?_map] at hi
  rcases ha : l[i]? with - | a
  · rw [ha, Option.map_none, eq_comm, Option.map_eq_none_iff] at hi
    exact hi.symm
  · rw [ha, Option.map_some, eq_comm, Option.map_eq_some_iff] at hi
    obtain ⟨b, hb, hfb⟩ := hi
    have hab : b = a :=
      hinj (List.mem_of_getElem? hb) (hsub a (List.mem_of_getElem? ha)) hfb
    rw [hb, hab]

/-- **One answer**, for rows that are known by a name. -/
theorem forall_listsBy_map_iff {β : Type} {f : α → β} (hnodup : (l.map f).Nodup) :
    (∀ listing, ListsBy key l listing → listing.map f = l.map f) ↔
      l.Pairwise fun a b => key a < key b := by
  rw [← forall_listsBy_iff hnodup.of_map]
  refine forall₂_congr fun listing hlisting => ⟨fun hmap => ?_, fun heq => by rw [heq]⟩
  exact eq_of_map_eq hnodup (fun a ha => hlisting.perm.subset ha) hmap

end

section

variable {α : Type} [DecidableEq α] {l : List α} {a : α}

/-- A list without repetitions, each element where it stands first. -/
def firstOccurrences (l : List α) : List α := l.eraseDups

theorem mem_firstOccurrences : a ∈ firstOccurrences l ↔ a ∈ l := List.mem_eraseDups

theorem nodup_firstOccurrences (l : List α) : (firstOccurrences l).Nodup := by
  induction hn : l.length using Nat.strongRecOn generalizing l with
  | _ n ih =>
    rcases l with - | ⟨x, l⟩
    · exact List.nodup_nil
    · rw [firstOccurrences, List.eraseDups_cons]
      have hlength : (l.filter fun b => !b == x).length < n := by
        have hle := List.length_filter_le (fun b => !b == x) l
        rw [← hn, List.length_cons]
        omega
      refine List.nodup_cons.mpr ⟨fun hmem => ?_, ih _ hlength _ rfl⟩
      have hfiltered := (List.mem_filter.mp (List.mem_eraseDups.mp hmem)).2
      rw [beq_self_eq_true] at hfiltered
      exact Bool.false_ne_true hfiltered

end

/-! ### Places in a list -/

section

variable {α : Type} {P : List α → α → Prop} {a : α} {l : List α}

/-- What holds at every place of a list, before which stands nothing or the rest of the list. -/
theorem forall_split_cons : (∀ before x after, a :: l = before ++ x :: after → P before x) ↔
    P [] a ∧ ∀ before x after, l = before ++ x :: after → P (a :: before) x := by
  constructor
  · intro h
    refine ⟨h [] a l rfl, fun before x after hsplit => h (a :: before) x after ?_⟩
    rw [hsplit, List.cons_append]
  · rintro ⟨hhead, hrest⟩ before x after hsplit
    cases before with
    | nil =>
      obtain ⟨rfl, -⟩ := List.cons.inj hsplit
      exact hhead
    | cons b before =>
      obtain ⟨rfl, hsplit'⟩ := List.cons.inj hsplit
      exact hrest before x after hsplit'

theorem forall_split_nil : ∀ before x after, [] = before ++ x :: after → P before x := by
  intro before x after hsplit
  exact absurd hsplit.symm (List.append_ne_nil_of_right_ne_nil _ (List.cons_ne_nil _ _))

end

end Foundation
