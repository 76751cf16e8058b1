import Mathlib.Data.List.Basic
import Mathlib.Logic.Function.Basic
import Mathlib.Order.Defs.Unbundled

/-!
# Rows under READ COMMITTED

A table of rows with unique keys, worked on by transactions `τ` at the isolation level READ
COMMITTED. A row has a committed version and at most one uncommitted one; the latter belongs to the
transaction that holds the row lock.

* A statement of `t` sees the committed version of a row, or `t`'s own uncommitted one (`visible`).
* An `UPDATE … WHERE p` takes its rows from what it sees when it starts (`matching`), and then
  treats them one by one (`update`): it waits while another transaction holds the lock, and
  **re-checks `p`** on the version that it finds then.
* An `INSERT` needs an unused key; `commit` publishes the transaction's versions.

A transaction does not touch a row that another one has locked (`Keeps`). If updates only move
versions along a transitive relation `R`, then so do commits (`Along`, `Evolves`).
-/

namespace Foundation.ReadCommitted

/-- A row: its committed version, and an uncommitted one with the transaction that wrote it. -/
structure Row (τ V : Type) where
  committed : Option V
  dirty : Option (τ × V)

/-- A table; every row that has a version is listed among the keys. -/
structure Db (τ K V : Type) where
  rows : K → Row τ V
  keys : List K
  listed : ∀ k, (rows k).committed ≠ none ∨ (rows k).dirty ≠ none → k ∈ keys

namespace Db

variable {τ K V : Type}

/-- The empty table. -/
def empty : Db τ K V := ⟨fun _ => ⟨none, none⟩, [], fun _ h => by simp at h⟩

/-- The committed version of a row. -/
def committed (db : Db τ K V) (k : K) : Option V := (db.rows k).committed

/-- The uncommitted version of a row and its transaction. -/
def dirty (db : Db τ K V) (k : K) : Option (τ × V) := (db.rows k).dirty

/-! ### Relations between tables -/

/-- `t` leaves the rows alone that another transaction has written. -/
def Keeps (t : τ) (db db' : Db τ K V) : Prop :=
  ∀ k t' v, t' ≠ t → db.dirty k = some (t', v) → db'.rows k = db.rows k

/-- Uncommitted versions come after the committed ones along `R`. -/
def Along (R : V → V → Prop) (db : Db τ K V) : Prop :=
  ∀ k t v v₀, db.dirty k = some (t, v) → db.committed k = some v₀ → R v₀ v

/-- Committed versions stay or move along `R`. -/
def Evolves (R : V → V → Prop) (db db' : Db τ K V) : Prop :=
  ∀ k v₀, db.committed k = some v₀ → ∃ v₁, db'.committed k = some v₁ ∧ (v₁ = v₀ ∨ R v₀ v₁)

section

variable {db db' : Db τ K V} {t t' : τ} {k : K} {v : V} {R : V → V → Prop}

theorem mem_keys_of_committed (h : db.committed k = some v) : k ∈ db.keys := by
  refine db.listed k (Or.inl ?_)
  rw [committed] at h
  rw [h]
  exact Option.some_ne_none v

theorem mem_keys_of_dirty (h : db.dirty k = some (t, v)) : k ∈ db.keys := by
  refine db.listed k (Or.inr ?_)
  rw [dirty] at h
  rw [h]
  exact Option.some_ne_none (t, v)

theorem keeps_refl (t : τ) (db : Db τ K V) : Keeps t db db := fun _ _ _ _ _ => rfl

theorem Keeps.dirty (h : Keeps t db db') (hne : t' ≠ t) (hdirty : db.dirty k = some (t', v)) :
    db'.dirty k = some (t', v) := by
  rw [Db.dirty, h k t' v hne hdirty]
  exact hdirty

theorem evolves_refl (R : V → V → Prop) (db : Db τ K V) : Evolves R db db :=
  fun _ v₀ h => ⟨v₀, h, Or.inl rfl⟩

theorem evolves_of_committed_eq (h : ∀ k, db'.committed k = db.committed k) : Evolves R db db' :=
  fun k v₀ hk => ⟨v₀, (h k).trans hk, Or.inl rfl⟩

end

/-! ### Reading and committing -/

section

variable [DecidableEq τ]

/-- The version of a row that a statement of `t` sees. -/
def visible (db : Db τ K V) (t : τ) (k : K) : Option V :=
  match db.dirty k with
  | some (t', v) => if t' = t then some v else db.committed k
  | none => db.committed k

/-- The keys of the rows that satisfy `p` as `t` sees them. -/
def matching (db : Db τ K V) (t : τ) (p : V → Bool) : List K :=
  db.keys.filter fun k => (db.visible t k).any p

/-- No other transaction holds the row lock. -/
def free (db : Db τ K V) (t : τ) (k : K) : Bool :=
  match db.dirty k with
  | some (t', _) => decide (t' = t)
  | none => true

/-- A row after the commit of `t`. -/
def commitRow (t : τ) (row : Row τ V) : Row τ V :=
  match row.dirty with
  | some (t', v) => if t' = t then { committed := some v, dirty := none } else row
  | none => row

/-- A commit publishes versions, it does not create or remove rows. -/
private theorem commitRow_exists {t : τ} {row : Row τ V}
    (h : (commitRow t row).committed ≠ none ∨ (commitRow t row).dirty ≠ none) :
    row.committed ≠ none ∨ row.dirty ≠ none := by
  rcases hdirty : row.dirty with - | ⟨t', v⟩
  · simpa [commitRow, hdirty] using h
  · exact Or.inr (Option.some_ne_none _)

/-- The commit of `t`. -/
def commit (db : Db τ K V) (t : τ) : Db τ K V where
  rows k := commitRow t (db.rows k)
  keys := db.keys
  listed k h := db.listed k (commitRow_exists h)

variable {db : Db τ K V} {t t' : τ} {k : K} {p : V → Bool} {v v₀ : V} {R : V → V → Prop}

/-- What `t` sees is its own version or the committed one. -/
theorem visible_eq_some (h : db.visible t k = some v) :
    db.dirty k = some (t, v) ∨ db.committed k = some v := by
  rw [visible] at h
  rcases hdirty : db.dirty k with - | ⟨t', v'⟩
  · rw [hdirty] at h
    exact Or.inr h
  · simp only [hdirty] at h
    split_ifs at h with ht
    · obtain rfl := Option.some.inj h
      exact Or.inl (by rw [ht])
    · exact Or.inr h

/-- A committed row is seen in some version. -/
theorem exists_visible (h : db.committed k = some v₀) : ∃ v, db.visible t k = some v := by
  rw [visible]
  rcases hdirty : db.dirty k with - | ⟨t', v'⟩
  · exact ⟨v₀, h⟩
  · rcases eq_or_ne t' t with rfl | hne
    · exact ⟨v', if_pos rfl⟩
    · exact ⟨v₀, (if_neg hne).trans h⟩

/-- What `t` sees of a committed row is its committed version or one after it. -/
theorem Along.visible (h : Along R db) (hcommitted : db.committed k = some v₀)
    (hvisible : db.visible t k = some v) : v = v₀ ∨ R v₀ v := by
  rcases visible_eq_some hvisible with hdirty | hsame
  · exact Or.inr (h k t v v₀ hdirty hcommitted)
  · exact Or.inl (Option.some.inj (hsame.symm.trans hcommitted))

theorem mem_matching_iff : k ∈ db.matching t p ↔ ∃ v, db.visible t k = some v ∧ p v = true := by
  rw [matching, List.mem_filter, Option.any_eq_true]
  refine ⟨And.right, fun h => ⟨?_, h⟩⟩
  obtain ⟨v, hv, -⟩ := h
  rcases visible_eq_some hv with hdirty | hcommitted
  · exact mem_keys_of_dirty hdirty
  · exact mem_keys_of_committed hcommitted

theorem commit_rows_of_clean (h : db.dirty k = none) : (db.commit t).rows k = db.rows k := by
  change commitRow t (db.rows k) = db.rows k
  rw [dirty] at h
  rw [commitRow, h]

theorem commit_rows_of_own (h : db.dirty k = some (t, v)) :
    (db.commit t).rows k = { committed := some v, dirty := none } := by
  change commitRow t (db.rows k) = _
  rw [dirty] at h
  rw [commitRow, h]
  exact if_pos rfl

theorem commit_rows_of_ne (hne : t' ≠ t) (h : db.dirty k = some (t', v)) :
    (db.commit t).rows k = db.rows k := by
  change commitRow t (db.rows k) = db.rows k
  rw [dirty] at h
  rw [commitRow, h]
  exact if_neg hne

/-- The committing transaction's version becomes the committed one. -/
theorem commit_committed (h : db.dirty k = some (t, v)) : (db.commit t).committed k = some v := by
  rw [committed, commit_rows_of_own h]

/-- After its commit a transaction has no uncommitted versions. -/
theorem commit_dirty_own (db : Db τ K V) (t : τ) (k : K) (v : V) :
    (db.commit t).dirty k ≠ some (t, v) := by
  intro hdirty
  rcases hd : db.dirty k with - | ⟨t', w⟩
  · rw [dirty, commit_rows_of_clean hd, ← dirty, hd] at hdirty
    cases hdirty
  · rcases eq_or_ne t' t with rfl | hne
    · rw [dirty, commit_rows_of_own hd] at hdirty
      cases hdirty
    · rw [dirty, commit_rows_of_ne hne hd, ← dirty, hd] at hdirty
      exact hne (Prod.mk.inj (Option.some.inj hdirty)).1

/-- A row that `t` has not written is seen as committed. -/
theorem visible_of_not_dirty (h : ∀ v, db.dirty k ≠ some (t, v)) :
    db.visible t k = db.committed k := by
  rw [visible]
  rcases hd : db.dirty k with - | ⟨t', v⟩
  · rfl
  · rcases eq_or_ne t' t with rfl | hne
    · exact absurd hd (h v)
    · exact if_neg hne

theorem commit_keeps (db : Db τ K V) (t : τ) : Keeps t db (db.commit t) :=
  fun _ _ _ hne hdirty => commit_rows_of_ne hne hdirty

theorem commit_along (h : Along R db) (t : τ) : Along R (db.commit t) := by
  intro k t' v v₀ hdirty hcommitted
  rw [dirty] at hdirty
  rw [committed] at hcommitted
  rcases hd : db.dirty k with - | ⟨t'', v'⟩
  · rw [commit_rows_of_clean hd] at hdirty hcommitted
    exact h k t' v v₀ hdirty hcommitted
  · rcases eq_or_ne t'' t with rfl | hne
    · rw [commit_rows_of_own hd] at hdirty
      cases hdirty
    · rw [commit_rows_of_ne hne hd] at hdirty hcommitted
      exact h k t' v v₀ hdirty hcommitted

theorem commit_evolves (h : Along R db) (t : τ) : Evolves R db (db.commit t) := by
  intro k v₀ hcommitted
  rcases hd : db.dirty k with - | ⟨t', v⟩
  · exact ⟨v₀, by rw [committed, commit_rows_of_clean hd]; exact hcommitted, Or.inl rfl⟩
  · rcases eq_or_ne t' t with rfl | hne
    · exact ⟨v, commit_committed hd, Or.inr (h k t' v v₀ hd hcommitted)⟩
    · exact ⟨v₀, by rw [committed, commit_rows_of_ne hne hd]; exact hcommitted, Or.inl rfl⟩

end

/-! ### Writing -/

section

variable [DecidableEq K]

/-- Replace a row. -/
def put (db : Db τ K V) (k : K) (row : Row τ V) : Db τ K V where
  rows := Function.update db.rows k row
  keys := db.keys.insert k
  listed k' h := by
    rcases eq_or_ne k' k with rfl | hne
    · exact List.mem_insert_self
    · rw [Function.update_of_ne hne] at h
      exact List.mem_insert_of_mem (db.listed k' h)

/-- `INSERT`; not enabled for a key in use. -/
def insert (db : Db τ K V) (t : τ) (k : K) (v : V) : Option (Db τ K V) :=
  match db.rows k with
  | ⟨none, none⟩ => some (db.put k { committed := none, dirty := some (t, v) })
  | _ => none

theorem put_rows_self (db : Db τ K V) (k : K) (row : Row τ V) : (db.put k row).rows k = row := by
  rw [put]
  exact Function.update_self k row db.rows

theorem put_rows_of_ne {k k' : K} (h : k' ≠ k) (db : Db τ K V) (row : Row τ V) :
    (db.put k row).rows k' = db.rows k' := by
  rw [put]
  exact Function.update_of_ne h row db.rows

theorem put_committed (db : Db τ K V) (k : K) (row : Row τ V)
    (h : row.committed = db.committed k) (k' : K) :
    (db.put k row).committed k' = db.committed k' := by
  rcases eq_or_ne k' k with rfl | hk
  · rw [committed, put_rows_self, h]
  · rw [committed, put_rows_of_ne hk, committed]

variable {db db' : Db τ K V} {t : τ} {k : K} {v : V} {R : V → V → Prop}

/-- Writing a row for `t` gives no other transaction an uncommitted version. -/
private theorem dirty_of_put_of_ne {t' : τ} {k' : K} {w : V} {c : Option V} (hne : t' ≠ t)
    (h : (db.put k { committed := c, dirty := some (t, w) }).dirty k' = some (t', v)) :
    db.dirty k' = some (t', v) := by
  rcases eq_or_ne k' k with rfl | hk
  · rw [dirty, put_rows_self] at h
    exact absurd (Prod.mk.inj (Option.some.inj h)).1.symm hne
  · rw [dirty, put_rows_of_ne hk] at h
    exact h

theorem insert_eq_some (h : db.insert t k v = some db') :
    db.committed k = none ∧ db.dirty k = none ∧
      db' = db.put k { committed := none, dirty := some (t, v) } := by
  rcases hrow : db.rows k with ⟨- | c, - | d⟩
  · rw [insert, hrow] at h
    exact ⟨by rw [committed, hrow], by rw [dirty, hrow], (Option.some.inj h).symm⟩
  all_goals
    rw [insert, hrow] at h
    cases h

theorem insert_dirty (h : db.insert t k v = some db') : db'.dirty k = some (t, v) := by
  obtain ⟨-, -, rfl⟩ := insert_eq_some h
  rw [dirty, put_rows_self]

theorem insert_committed (h : db.insert t k v = some db') (k' : K) :
    db'.committed k' = db.committed k' := by
  obtain ⟨hnone, -, rfl⟩ := insert_eq_some h
  exact put_committed db k _ hnone.symm k'

/-- An insert touches no row that is in use. -/
theorem insert_dirty_of_some (h : db.insert t k v = some db') {k' : K} {d : τ × V}
    (hdirty : db.dirty k' = some d) : db'.dirty k' = some d := by
  obtain ⟨-, hclean, rfl⟩ := insert_eq_some h
  have hk : k' ≠ k := by
    rintro rfl
    rw [hclean] at hdirty
    cases hdirty
  rw [dirty, put_rows_of_ne hk]
  exact hdirty

theorem insert_keeps (h : db.insert t k v = some db') : Keeps t db db' := by
  obtain ⟨-, hclean, rfl⟩ := insert_eq_some h
  intro k' t' v' hne hdirty
  rcases eq_or_ne k' k with rfl | hk
  · rw [hclean] at hdirty
    cases hdirty
  · exact put_rows_of_ne hk db _

theorem insert_along (h : Along R db) (hstep : db.insert t k v = some db') : Along R db' := by
  obtain ⟨hnone, -, rfl⟩ := insert_eq_some hstep
  intro k' t' v' v₀ hdirty hcommitted
  rw [put_committed db k _ hnone.symm] at hcommitted
  rcases eq_or_ne k' k with rfl | hk
  · rw [hnone] at hcommitted
    cases hcommitted
  · rw [dirty, put_rows_of_ne hk] at hdirty
    exact h k' t' v' v₀ hdirty hcommitted

end

section

variable [DecidableEq τ] [DecidableEq K]

/-- One row of `UPDATE … SET f WHERE p`; not enabled while another transaction holds the lock. -/
def update (db : Db τ K V) (t : τ) (k : K) (p : V → Bool) (f : V → V) : Option (Db τ K V) :=
  if db.free t k then
    match db.visible t k with
    | some v =>
      if p v then some (db.put k { committed := db.committed k, dirty := some (t, f v) })
      else some db
    | none => some db
  else none

variable {db db' : Db τ K V} {t : τ} {k : K} {p : V → Bool} {f : V → V} {v : V}
  {R : V → V → Prop}

/-- An update waits for the lock; then it writes if the row still satisfies the condition. -/
theorem update_eq_some (h : db.update t k p f = some db') :
    db.free t k = true ∧
      ((∃ v, db.visible t k = some v ∧ p v = true ∧
          db' = db.put k { committed := db.committed k, dirty := some (t, f v) }) ∨
        (db' = db ∧ ∀ v, db.visible t k = some v → p v = false)) := by
  rw [update] at h
  split_ifs at h with hfree
  refine ⟨hfree, ?_⟩
  rcases hvisible : db.visible t k with - | v
  · rw [hvisible] at h
    exact Or.inr ⟨(Option.some.inj h).symm, fun v hv => nomatch hv⟩
  · simp only [hvisible] at h
    split_ifs at h with hp
    · exact Or.inl ⟨v, rfl, hp, (Option.some.inj h).symm⟩
    · refine Or.inr ⟨(Option.some.inj h).symm, fun v' hv' => ?_⟩
      obtain rfl := Option.some.inj hv'
      simpa using hp

theorem update_committed (h : db.update t k p f = some db') (k' : K) :
    db'.committed k' = db.committed k' := by
  obtain ⟨-, ⟨v, -, -, rfl⟩ | ⟨rfl, -⟩⟩ := update_eq_some h
  · exact put_committed db k ⟨db.committed k, some (t, f v)⟩ rfl k'
  · rfl

/-- An update of a row that satisfies the condition writes it. -/
theorem update_dirty (h : db.update t k p f = some db') (hvisible : db.visible t k = some v)
    (hp : p v = true) : db'.dirty k = some (t, f v) := by
  obtain ⟨-, ⟨w, hw, -, rfl⟩ | ⟨-, hnot⟩⟩ := update_eq_some h
  · obtain rfl := Option.some.inj (hw.symm.trans hvisible)
    rw [dirty, put_rows_self]
  · rw [hnot v hvisible] at hp
    cases hp

theorem update_keeps (h : db.update t k p f = some db') : Keeps t db db' := by
  obtain ⟨hfree, ⟨v, -, -, rfl⟩ | ⟨rfl, -⟩⟩ := update_eq_some h
  · intro k' t' v' hne hdirty
    rcases eq_or_ne k' k with rfl | hk
    · rw [free, hdirty] at hfree
      exact absurd (of_decide_eq_true hfree) hne
    · exact put_rows_of_ne hk db _
  · exact keeps_refl t db'

/-- An update of a row does not take away what `t` has written elsewhere. -/
theorem update_dirty_own (h : db.update t k p f = some db') {k' : K}
    (hdirty : db.dirty k' = some (t, v)) : ∃ v', db'.dirty k' = some (t, v') := by
  obtain ⟨-, ⟨w, -, -, rfl⟩ | ⟨rfl, -⟩⟩ := update_eq_some h
  · rcases eq_or_ne k' k with rfl | hk
    · exact ⟨f w, by rw [dirty, put_rows_self]⟩
    · exact ⟨v, by rw [dirty, put_rows_of_ne hk]; exact hdirty⟩
  · exact ⟨v, hdirty⟩

theorem update_along [IsTrans V R] (h : Along R db) (hstep : db.update t k p f = some db')
    (hf : ∀ v, p v = true → R v (f v)) : Along R db' := by
  obtain ⟨-, ⟨v, hvisible, hp, rfl⟩ | ⟨rfl, -⟩⟩ := update_eq_some hstep
  · intro k' t' v' v₀ hdirty hcommitted
    rw [put_committed db k ⟨db.committed k, some (t, f v)⟩ rfl] at hcommitted
    rcases eq_or_ne k' k with rfl | hk
    · rw [dirty, put_rows_self] at hdirty
      obtain ⟨-, rfl⟩ := Prod.mk.inj (Option.some.inj hdirty)
      rcases h.visible hcommitted hvisible with rfl | hafter
      · exact hf v hp
      · exact IsTrans.trans _ _ _ hafter (hf v hp)
    · rw [dirty, put_rows_of_ne hk] at hdirty
      exact h k' t' v' v₀ hdirty hcommitted
  · exact h

end

/-! ### What one statement can do -/

section

variable [DecidableEq τ] [DecidableEq K]

/-- One statement of `t`: it reads, updates a row along `R`, inserts a row, or commits. -/
inductive Acts (R : V → V → Prop) (t : τ) (db : Db τ K V) : Db τ K V → Prop
  | read : Acts R t db db
  | update {k : K} {p : V → Bool} {f : V → V} {db' : Db τ K V} (hf : ∀ v, R v (f v))
      (h : db.update t k p f = some db') : Acts R t db db'
  | insert {k : K} {v : V} {db' : Db τ K V} (h : db.insert t k v = some db') : Acts R t db db'
  | commit : Acts R t db (db.commit t)

variable {db db' : Db τ K V} {t t' : τ} {k : K} {v : V} {R : V → V → Prop}

theorem Acts.keeps (h : Acts R t db db') : Keeps t db db' := by
  cases h with
  | read => exact keeps_refl t db
  | update _ h => exact update_keeps h
  | insert h => exact insert_keeps h
  | commit => exact commit_keeps db t

theorem Acts.along [IsTrans V R] (h : Acts R t db db') (halong : Along R db) : Along R db' := by
  cases h with
  | read => exact halong
  | update hf h => exact update_along halong h fun v _ => hf v
  | insert h => exact insert_along halong h
  | commit => exact commit_along halong t

theorem Acts.evolves (h : Acts R t db db') (halong : Along R db) : Evolves R db db' := by
  cases h with
  | read => exact evolves_refl R db
  | update _ h => exact evolves_of_committed_eq (update_committed h)
  | insert h => exact evolves_of_committed_eq (insert_committed h)
  | commit => exact commit_evolves halong t

/-- The other transactions' uncommitted versions were there before. -/
theorem Acts.dirty_of_ne (h : Acts R t db db') (hne : t' ≠ t)
    (hdirty : db'.dirty k = some (t', v)) :
    db.dirty k = some (t', v) := by
  cases h with
  | read => exact hdirty
  | @update k' p f _ _ h =>
    obtain ⟨-, ⟨w, -, -, rfl⟩ | ⟨rfl, -⟩⟩ := update_eq_some h
    · exact dirty_of_put_of_ne hne hdirty
    · exact hdirty
  | insert h =>
    obtain ⟨-, -, rfl⟩ := insert_eq_some h
    exact dirty_of_put_of_ne hne hdirty
  | commit =>
    rcases hd : db.dirty k with - | ⟨t'', w⟩
    · rw [dirty, commit_rows_of_clean hd, ← dirty, hd] at hdirty
      cases hdirty
    · rcases eq_or_ne t'' t with rfl | hne'
      · rw [dirty, commit_rows_of_own hd] at hdirty
        cases hdirty
      · rw [dirty, commit_rows_of_ne hne' hd, ← dirty, hd] at hdirty
        exact hdirty

end

end Db

end Foundation.ReadCommitted
