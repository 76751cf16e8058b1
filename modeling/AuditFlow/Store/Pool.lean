import AuditFlow.Foundation.Census

/-!
# The connection pool

`init_pool` and `_cursor` of `document_store.py`, step by step, in any number of threads. The pool
is made by a thread that finds none, or by several that do so at the same time: then the last one to
assign it wins, and each of them resets `PG_POOL_IN_USE`. A block takes a connection, counts it,
runs to an end or to an exception, gives the connection back and uncounts it.

**The gauge says what is lent** (`pool_accounting`): in every interleaving, with failures anywhere,
a pool has lent the connections of the blocks that hold one of it, and those that it refused to take
back. `PG_POOL_IN_USE` is the number of lent connections of all pools, up to the blocks that are
just about to count or uncount theirs and to what the resets have dropped, which is nothing if the
pool was made beforehand.

The pool itself is that of the driver: here each of its calls returns or raises, as it likes.
-/

namespace AuditFlow

open Foundation

/-- Where a thread is. -/
inductive PoolPc
  | outside
  /-- In `init_pool`, which has found no pool. -/
  | creating
  /-- It has made a pool. -/
  | created (pool : ℕ)
  /-- It has assigned the pool, and is going to reset the gauge. -/
  | assigned
  /-- At the end of `init_pool`. -/
  | returning
  /-- In `_cursor`, before `getconn`. -/
  | acquiring (pool : ℕ)
  /-- With a connection, before it is counted. -/
  | acquired (pool : ℕ)
  /-- In the block. -/
  | inside (pool : ℕ)
  /-- After `putconn`, before it is uncounted. -/
  | released
  deriving DecidableEq

/-- The pool that the thread has in hand. -/
def PoolPc.pool : PoolPc → Option ℕ
  | .created pool | .acquiring pool | .acquired pool | .inside pool => some pool
  | _ => none

/-- The thread holds a connection of the pool. -/
def PoolPc.holds (pool : ℕ) : PoolPc → Bool
  | .acquired p | .inside p => decide (p = pool)
  | _ => false

/-- The thread holds a connection that is not counted yet. -/
def PoolPc.uncounted : PoolPc → Bool
  | .acquired _ => true
  | _ => false

/-- The thread has given back a connection that is still counted. -/
def PoolPc.returned : PoolPc → Bool
  | .released => true
  | _ => false

/-- `_pool`, how many pools have been made, how many connections each of them has lent and not taken
back, `PG_POOL_IN_USE`, and the threads. The last two are bookkeeping: the connections for which
`putconn` raised, and what the resets took from the gauge. -/
structure PoolSystem (ι : Type) where
  pool : Option ℕ := none
  made : ℕ := 0
  lent : ℕ → ℕ := fun _ => 0
  inUse : ℤ := 0
  pc : ι → PoolPc := fun _ => .outside
  kept : ℕ → ℕ := fun _ => 0
  dropped : ℤ := 0

section

variable {ι : Type} [DecidableEq ι]

/-- The thread moves on. -/
def PoolSystem.goTo (s : PoolSystem ι) (i : ι) (pc : PoolPc) : PoolSystem ι :=
  { s with pc := Function.update s.pc i pc }

/-- The next step of a thread, and whether the call of the driver in it raises. -/
def poolStep (s : PoolSystem ι) (step : ι × Bool) : PoolSystem ι :=
  let i := step.1
  let raises := step.2
  match s.pc i with
  | .outside => if s.pool.isNone then s.goTo i .creating else s.goTo i .returning
  | .creating =>
    if raises then s.goTo i .outside
    else { s.goTo i (.created s.made) with made := s.made + 1 }
  | .created pool => { s.goTo i .assigned with pool := some pool }
  | .assigned => { s.goTo i .returning with inUse := 0, dropped := s.dropped + s.inUse }
  | .returning => match s.pool with
    | none => s.goTo i .outside
    | some pool => s.goTo i (.acquiring pool)
  | .acquiring pool =>
    if raises then s.goTo i .outside
    else { s.goTo i (.acquired pool) with
      lent := Function.update s.lent pool (s.lent pool + 1) }
  | .acquired pool => { s.goTo i (.inside pool) with inUse := s.inUse + 1 }
  | .inside pool =>
    -- `putconn` in the `finally`: if it raises, `dec` is not reached
    if raises then
      { s.goTo i .outside with kept := Function.update s.kept pool (s.kept pool + 1) }
    else { s.goTo i .released with lent := Function.update s.lent pool (s.lent pool - 1) }
  | .released => { s.goTo i .outside with inUse := s.inUse - 1 }

/-- Before any thread has started: without a pool, or with one made by `init_pool` beforehand. -/
def PoolSystem.start (initialised : Bool) : PoolSystem ι :=
  if initialised then { pool := some 0, made := 1 } else {}

/-- A run of the threads. -/
def poolRun (initialised : Bool) (steps : List (ι × Bool)) : PoolSystem ι :=
  steps.foldl poolStep (.start initialised)

variable {s : PoolSystem ι} {i : ι} {pc : PoolPc}

/-! ### Pools in hand -/

/-- Every pool that is in hand or assigned has been made, and no other one has lent anything. -/
private structure Made (s : PoolSystem ι) : Prop where
  hand : ∀ i pool, (s.pc i).pool = some pool → pool < s.made
  assigned : ∀ pool, s.pool = some pool → pool < s.made
  unmade : ∀ pool, s.made ≤ pool → s.lent pool = 0

private theorem Made.goTo (h : Made s) (hpc : ∀ pool, pc.pool = some pool → pool < s.made) :
    Made (s.goTo i pc) where
  hand j pool := by
    rw [PoolSystem.goTo]
    dsimp only
    rcases eq_or_ne j i with rfl | hne
    · rw [Function.update_self]
      exact hpc pool
    · rw [Function.update_of_ne hne]
      exact h.hand j pool
  assigned := h.assigned
  unmade := h.unmade

omit [DecidableEq ι] in
/-- A made pool lends or takes back. -/
private theorem Made.lend (h : Made s) {pool n : ℕ} (hpool : pool < s.made) :
    Made { s with lent := Function.update s.lent pool n } where
  hand := h.hand
  assigned := h.assigned
  unmade p hp := by
    have hmade : s.made ≤ p := hp
    dsimp only
    rw [Function.update_of_ne (by omega)]
    exact h.unmade p hmade

private theorem Made.step (h : Made s) (i : ι) (raises : Bool) :
    Made (poolStep s (i, raises)) := by
  rw [poolStep]
  dsimp only
  split
  · split_ifs
    · exact h.goTo (by simp [PoolPc.pool])
    · exact h.goTo (by simp [PoolPc.pool])
  · split_ifs
    · exact h.goTo (by simp [PoolPc.pool])
    · have hmore : Made { s with made := s.made + 1 } :=
        ⟨fun j p hp => (h.hand j p hp).trans (Nat.lt_succ_self _),
          fun p hp => (h.assigned p hp).trans (Nat.lt_succ_self _),
          fun p hp => h.unmade p ((Nat.le_succ _).trans hp)⟩
      exact hmore.goTo (by simp [PoolPc.pool])
  · rename_i pool hpc
    have hpool := h.hand i pool (by rw [hpc]; rfl)
    have hassigned : Made { s with pool := some pool } :=
      ⟨h.hand, fun p hp => Option.some.inj hp ▸ hpool, h.unmade⟩
    exact hassigned.goTo (by simp [PoolPc.pool])
  · have hreset : Made { s with inUse := 0, dropped := s.dropped + s.inUse } :=
      ⟨h.hand, h.assigned, h.unmade⟩
    exact hreset.goTo (by simp [PoolPc.pool])
  · split
    · exact h.goTo (by simp [PoolPc.pool])
    · rename_i pool hpool
      refine h.goTo fun p hp => ?_
      obtain rfl := Option.some.inj hp
      exact h.assigned _ hpool
  · rename_i pool hpc
    have hpool := h.hand i pool (by rw [hpc]; rfl)
    split_ifs
    · exact h.goTo (by simp [PoolPc.pool])
    · exact (h.lend hpool).goTo fun p hp => Option.some.inj hp ▸ hpool
  · rename_i pool hpc
    have hpool := h.hand i pool (by rw [hpc]; rfl)
    have hcounted : Made { s with inUse := s.inUse + 1 } := ⟨h.hand, h.assigned, h.unmade⟩
    exact hcounted.goTo fun p hp => Option.some.inj hp ▸ hpool
  · rename_i pool hpc
    split_ifs
    · have hkept : Made { s with kept := Function.update s.kept pool (s.kept pool + 1) } :=
        ⟨h.hand, h.assigned, h.unmade⟩
      exact hkept.goTo (by simp [PoolPc.pool])
    · exact (h.lend (h.hand i pool (by rw [hpc]; rfl))).goTo (by simp [PoolPc.pool])
  · have huncounted : Made { s with inUse := s.inUse - 1 } := ⟨h.hand, h.assigned, h.unmade⟩
    exact huncounted.goTo (by simp [PoolPc.pool])

/-! ### A pool made beforehand -/

/-- The thread is making a pool. -/
private def PoolPc.makes : PoolPc → Bool
  | .creating | .created _ | .assigned => true
  | _ => false

/-- With a pool that was made beforehand no thread makes another one. -/
private structure Initialised (s : PoolSystem ι) : Prop where
  pool : s.pool = some 0
  made : s.made = 1
  dropped : s.dropped = 0
  pc : ∀ i, (s.pc i).makes = false

private theorem Initialised.goTo (h : Initialised s) (hpc : pc.makes = false) :
    Initialised (s.goTo i pc) where
  pool := h.pool
  made := h.made
  dropped := h.dropped
  pc j := by
    rw [PoolSystem.goTo]
    dsimp only
    rcases eq_or_ne j i with rfl | hne
    · rw [Function.update_self]
      exact hpc
    · rw [Function.update_of_ne hne]
      exact h.pc j

private theorem Initialised.step (h : Initialised s) (i : ι) (raises : Bool) :
    Initialised (poolStep s (i, raises)) := by
  have hmakes := h.pc i
  rw [poolStep]
  dsimp only
  split
  · have hsome : s.pool.isNone = false := by rw [h.pool]; rfl
    rw [hsome, if_neg Bool.false_ne_true]
    exact h.goTo rfl
  · rename_i hpc
    rw [hpc] at hmakes
    exact Bool.noConfusion hmakes
  · rename_i hpc
    rw [hpc] at hmakes
    exact Bool.noConfusion hmakes
  · rename_i hpc
    rw [hpc] at hmakes
    exact Bool.noConfusion hmakes
  · split
    · exact h.goTo rfl
    · exact h.goTo rfl
  · split_ifs
    · exact h.goTo rfl
    · rename_i pool _ _
      have hlent : Initialised { s with lent := Function.update s.lent pool (s.lent pool + 1) } :=
        ⟨h.pool, h.made, h.dropped, h.pc⟩
      exact hlent.goTo rfl
  · have hcounted : Initialised { s with inUse := s.inUse + 1 } :=
      ⟨h.pool, h.made, h.dropped, h.pc⟩
    exact hcounted.goTo rfl
  · rename_i pool _
    split_ifs
    · have hkept : Initialised { s with kept := Function.update s.kept pool (s.kept pool + 1) } :=
        ⟨h.pool, h.made, h.dropped, h.pc⟩
      exact hkept.goTo rfl
    · have hlent : Initialised { s with lent := Function.update s.lent pool (s.lent pool - 1) } :=
        ⟨h.pool, h.made, h.dropped, h.pc⟩
      exact hlent.goTo rfl
  · have huncounted : Initialised { s with inUse := s.inUse - 1 } :=
      ⟨h.pool, h.made, h.dropped, h.pc⟩
    exact huncounted.goTo rfl

/-- **Run lemma.** -/
private theorem initialised_poolRun (steps : List (ι × Bool)) :
    Initialised (poolRun true steps) := by
  have hstart : Initialised (PoolSystem.start true : PoolSystem ι) :=
    ⟨rfl, rfl, rfl, fun _ => rfl⟩
  rw [poolRun]
  generalize (PoolSystem.start true : PoolSystem ι) = s at hstart
  induction steps generalizing s with
  | nil => exact hstart
  | cons step steps ih => exact ih _ (hstart.step step.1 step.2)

/-! ### Accounts -/

variable [Fintype ι]

/-- What the pools have lent, and what the gauge says. -/
private structure Accounted (s : PoolSystem ι) : Prop where
  lent : ∀ pool, s.lent pool = census (PoolPc.holds pool) s.pc + s.kept pool
  gauge : s.inUse + s.dropped + census PoolPc.uncounted s.pc =
    (∑ pool ∈ Finset.range s.made, s.lent pool : ℕ) + census PoolPc.returned s.pc

/-- A move between places that count the same. -/
private theorem Accounted.goTo (h : Accounted s)
    (hholds : ∀ pool, pc.holds pool = (s.pc i).holds pool)
    (huncounted : pc.uncounted = (s.pc i).uncounted)
    (hreturned : pc.returned = (s.pc i).returned) : Accounted (s.goTo i pc) where
  lent pool := by
    rw [PoolSystem.goTo, census_update_of_eq (PoolPc.holds pool) (hholds pool)]
    exact h.lent pool
  gauge := by
    rw [PoolSystem.goTo, census_update_of_eq PoolPc.uncounted huncounted,
      census_update_of_eq PoolPc.returned hreturned]
    exact h.gauge

omit [DecidableEq ι] in
/-- One more pool, that has lent nothing. -/
private theorem Accounted.make (h : Accounted s) (hmade : Made s) :
    Accounted { s with made := s.made + 1 } where
  lent := h.lent
  gauge := by
    have hgauge := h.gauge
    dsimp only
    rw [Finset.sum_range_succ, hmade.unmade s.made le_rfl]
    exact hgauge

omit [DecidableEq ι] in
/-- What the gauge says is dropped. -/
private theorem Accounted.reset (h : Accounted s) :
    Accounted { s with inUse := 0, dropped := s.dropped + s.inUse } where
  lent := h.lent
  gauge := by
    have hgauge := h.gauge
    dsimp only
    omega

/-- A connection is taken from a pool. -/
private theorem Accounted.acquire (h : Accounted s) {pool : ℕ} (hpool : pool < s.made)
    (hpc : s.pc i = .acquiring pool) :
    Accounted { s.goTo i (.acquired pool) with
      lent := Function.update s.lent pool (s.lent pool + 1) } where
  lent p := by
    have hmove := census_update (PoolPc.holds p) s.pc i (.acquired pool)
    have hlent := h.lent p
    rw [hpc] at hmove
    dsimp only [PoolSystem.goTo]
    rcases eq_or_ne p pool with rfl | hne
    · rw [Function.update_self]
      simp only [PoolPc.holds, Bool.toNat_false, decide_true, Bool.toNat_true] at hmove
      omega
    · rw [Function.update_of_ne hne]
      simp only [PoolPc.holds, Bool.toNat_false, hne.symm, decide_false] at hmove
      omega
  gauge := by
    have hsum := sum_update_add (Finset.mem_range.mpr hpool) s.lent (s.lent pool + 1)
    have hmove := census_update PoolPc.uncounted s.pc i (.acquired pool)
    have hgauge := h.gauge
    rw [hpc] at hmove
    simp only [PoolPc.uncounted, Bool.toNat_false, Bool.toNat_true] at hmove
    dsimp only [PoolSystem.goTo]
    rw [census_update_of_eq PoolPc.returned (by rw [hpc]; rfl)]
    omega

/-- A connection is counted. -/
private theorem Accounted.count (h : Accounted s) {pool : ℕ} (hpc : s.pc i = .acquired pool) :
    Accounted { s.goTo i (.inside pool) with inUse := s.inUse + 1 } where
  lent p := by
    dsimp only [PoolSystem.goTo]
    rw [census_update_of_eq (PoolPc.holds p) (by rw [hpc]; rfl)]
    exact h.lent p
  gauge := by
    have hmove := census_update PoolPc.uncounted s.pc i (.inside pool)
    have hgauge := h.gauge
    rw [hpc] at hmove
    simp only [PoolPc.uncounted, Bool.toNat_false, Bool.toNat_true] at hmove
    dsimp only [PoolSystem.goTo]
    rw [census_update_of_eq PoolPc.returned (by rw [hpc]; rfl)]
    omega

/-- The pool takes a connection back. -/
private theorem Accounted.release (h : Accounted s) {pool : ℕ} (hpool : pool < s.made)
    (hpc : s.pc i = .inside pool) :
    Accounted { s.goTo i .released with
      lent := Function.update s.lent pool (s.lent pool - 1) } where
  lent p := by
    have hmove := census_update (PoolPc.holds p) s.pc i .released
    have hlent := h.lent p
    rw [hpc] at hmove
    dsimp only [PoolSystem.goTo]
    rcases eq_or_ne p pool with rfl | hne
    · rw [Function.update_self]
      simp only [PoolPc.holds, Bool.toNat_false, decide_true, Bool.toNat_true] at hmove
      omega
    · rw [Function.update_of_ne hne]
      simp only [PoolPc.holds, Bool.toNat_false, hne.symm, decide_false] at hmove
      omega
  gauge := by
    have hsum := sum_update_add (Finset.mem_range.mpr hpool) s.lent (s.lent pool - 1)
    have hholds := census_update (PoolPc.holds pool) s.pc i .released
    have hmove := census_update PoolPc.returned s.pc i .released
    have hlent := h.lent pool
    have hgauge := h.gauge
    rw [hpc] at hholds hmove
    simp only [PoolPc.holds, Bool.toNat_false, decide_true, Bool.toNat_true] at hholds
    simp only [PoolPc.returned, Bool.toNat_false, Bool.toNat_true] at hmove
    dsimp only [PoolSystem.goTo]
    rw [census_update_of_eq PoolPc.uncounted (by rw [hpc]; rfl)]
    omega

/-- The pool does not take a connection back. -/
private theorem Accounted.keep (h : Accounted s) {pool : ℕ} (hpc : s.pc i = .inside pool) :
    Accounted { s.goTo i .outside with
      kept := Function.update s.kept pool (s.kept pool + 1) } where
  lent p := by
    have hmove := census_update (PoolPc.holds p) s.pc i .outside
    have hlent := h.lent p
    rw [hpc] at hmove
    dsimp only [PoolSystem.goTo]
    rcases eq_or_ne p pool with rfl | hne
    · rw [Function.update_self]
      simp only [PoolPc.holds, Bool.toNat_false, decide_true, Bool.toNat_true] at hmove
      omega
    · rw [Function.update_of_ne hne]
      simp only [PoolPc.holds, Bool.toNat_false, hne.symm, decide_false] at hmove
      omega
  gauge := by
    dsimp only [PoolSystem.goTo]
    rw [census_update_of_eq PoolPc.uncounted (by rw [hpc]; rfl),
      census_update_of_eq PoolPc.returned (by rw [hpc]; rfl)]
    exact h.gauge

/-- A connection that was given back is uncounted. -/
private theorem Accounted.uncount (h : Accounted s) (hpc : s.pc i = .released) :
    Accounted { s.goTo i .outside with inUse := s.inUse - 1 } where
  lent p := by
    dsimp only [PoolSystem.goTo]
    rw [census_update_of_eq (PoolPc.holds p) (by rw [hpc]; rfl)]
    exact h.lent p
  gauge := by
    have hmove := census_update PoolPc.returned s.pc i .outside
    have hgauge := h.gauge
    rw [hpc] at hmove
    simp only [PoolPc.returned, Bool.toNat_false, Bool.toNat_true] at hmove
    dsimp only [PoolSystem.goTo]
    rw [census_update_of_eq PoolPc.uncounted (by rw [hpc]; rfl)]
    omega

/-- **Step lemma.** -/
private theorem Accounted.step (h : Accounted s) (hmade : Made s) (i : ι) (raises : Bool) :
    Accounted (poolStep s (i, raises)) := by
  rw [poolStep]
  dsimp only
  split
  · rename_i hpc
    split_ifs
    · exact h.goTo (fun _ => by rw [hpc]; rfl) (by rw [hpc]; rfl) (by rw [hpc]; rfl)
    · exact h.goTo (fun _ => by rw [hpc]; rfl) (by rw [hpc]; rfl) (by rw [hpc]; rfl)
  · rename_i hpc
    split_ifs
    · exact h.goTo (fun _ => by rw [hpc]; rfl) (by rw [hpc]; rfl) (by rw [hpc]; rfl)
    · exact (h.make hmade).goTo (fun _ => by rw [hpc]; rfl) (by rw [hpc]; rfl)
        (by rw [hpc]; rfl)
  · rename_i pool hpc
    have hassigned : Accounted { s with pool := some pool } := ⟨h.lent, h.gauge⟩
    exact hassigned.goTo (fun _ => by rw [hpc]; rfl) (by rw [hpc]; rfl) (by rw [hpc]; rfl)
  · rename_i hpc
    exact h.reset.goTo (fun _ => by rw [hpc]; rfl) (by rw [hpc]; rfl) (by rw [hpc]; rfl)
  · rename_i hpc
    split
    · exact h.goTo (fun _ => by rw [hpc]; rfl) (by rw [hpc]; rfl) (by rw [hpc]; rfl)
    · exact h.goTo (fun _ => by rw [hpc]; rfl) (by rw [hpc]; rfl) (by rw [hpc]; rfl)
  · rename_i pool hpc
    split_ifs
    · exact h.goTo (fun _ => by rw [hpc]; rfl) (by rw [hpc]; rfl) (by rw [hpc]; rfl)
    · exact h.acquire (hmade.hand i pool (by rw [hpc]; rfl)) hpc
  · rename_i pool hpc
    exact h.count hpc
  · rename_i pool hpc
    split_ifs
    · exact h.keep hpc
    · exact h.release (hmade.hand i pool (by rw [hpc]; rfl)) hpc
  · rename_i hpc
    exact h.uncount hpc

omit [Fintype ι] [DecidableEq ι] in
private theorem madePool_start (initialised : Bool) :
    Made (PoolSystem.start initialised : PoolSystem ι) := by
  rw [PoolSystem.start]
  split_ifs
  · refine ⟨fun _ pool hpool => by simp [PoolPc.pool] at hpool, fun pool hpool => ?_,
      fun _ _ => rfl⟩
    obtain rfl := Option.some.inj hpool
    exact Nat.one_pos
  · exact ⟨fun _ pool hpool => by simp [PoolPc.pool] at hpool,
      fun pool hpool => by simp at hpool, fun _ _ => rfl⟩

omit [DecidableEq ι] in
private theorem accountedPool_start (initialised : Bool) :
    Accounted (PoolSystem.start initialised : PoolSystem ι) := by
  have hnone (place : PoolPc → Bool) (houtside : place .outside = false) :
      census place (fun _ : ι => PoolPc.outside) = 0 := census_eq_zero fun _ => houtside
  rw [PoolSystem.start]
  split_ifs
  · exact ⟨fun pool => by simp [hnone (PoolPc.holds pool) rfl],
      by simp [hnone PoolPc.uncounted rfl, hnone PoolPc.returned rfl]⟩
  · exact ⟨fun pool => by simp [hnone (PoolPc.holds pool) rfl],
      by simp [hnone PoolPc.uncounted rfl, hnone PoolPc.returned rfl]⟩

/-- **Run lemma.** -/
private theorem accounted_poolRun (initialised : Bool) (steps : List (ι × Bool)) :
    Accounted (poolRun initialised steps) := by
  have hstart := madePool_start (ι := ι) initialised
  have hcounts := accountedPool_start (ι := ι) initialised
  rw [poolRun]
  generalize (PoolSystem.start initialised : PoolSystem ι) = s at hstart hcounts
  induction steps generalizing s with
  | nil => exact hcounts
  | cons step steps ih =>
    exact ih _ (hstart.step step.1 step.2) (hcounts.step hstart step.1 step.2)

/-- **The gauge says what is lent.** In every interleaving of threads, with failures anywhere, a
pool has lent exactly the connections of the blocks that hold one of it and those that it has
refused to take back: a block gives its connection to the pool it took it from. The gauge is the sum
of what the pools have lent, less the connections that are still to be counted, with those that are
still to be uncounted, and less what it had lost by being reset. When the blocks have ended, only
the refused connections are lent; and with a pool that was made beforehand, that is the only pool,
and nothing is lost. -/
theorem pool_accounting (initialised : Bool) (steps : List (ι × Bool)) :
    (∀ pool, (poolRun initialised steps).lent pool =
      census (PoolPc.holds pool) (poolRun initialised steps).pc +
        (poolRun initialised steps).kept pool) ∧
    (poolRun initialised steps).inUse =
      (∑ pool ∈ Finset.range (poolRun initialised steps).made,
        (poolRun initialised steps).lent pool : ℕ) -
      census PoolPc.uncounted (poolRun initialised steps).pc +
      census PoolPc.returned (poolRun initialised steps).pc -
      (poolRun initialised steps).dropped ∧
    ((∀ i, (poolRun initialised steps).pc i = .outside) →
      (poolRun initialised steps).lent = (poolRun initialised steps).kept ∧
      (poolRun initialised steps).inUse =
        (∑ pool ∈ Finset.range (poolRun initialised steps).made,
          (poolRun initialised steps).kept pool : ℕ) -
        (poolRun initialised steps).dropped) ∧
    (initialised = true → (poolRun initialised steps).pool = some 0 ∧
      (poolRun initialised steps).made = 1 ∧ (poolRun initialised steps).dropped = 0) := by
  have h := accounted_poolRun initialised steps
  have hgauge := h.gauge
  refine ⟨h.lent, by omega, fun houtside => ?_, fun hinit => ?_⟩
  · have hnone (place : PoolPc → Bool) (hplace : place .outside = false) :
        census place (poolRun initialised steps).pc = 0 :=
      census_eq_zero fun i => by rw [houtside i, hplace]
    have hlent : (poolRun initialised steps).lent = (poolRun initialised steps).kept := by
      funext pool
      rw [h.lent pool, hnone (PoolPc.holds pool) rfl, Nat.zero_add]
    refine ⟨hlent, ?_⟩
    rw [hnone PoolPc.uncounted rfl, hnone PoolPc.returned rfl, hlent] at hgauge
    omega
  · subst hinit
    have hinitialised := initialised_poolRun steps
    exact ⟨hinitialised.pool, hinitialised.made, hinitialised.dropped⟩

/-- Two threads that make the pool at the same time: the gauge ends below zero. -/
example : (poolRun false ([0, 1, 1, 1, 1, 1, 1, 1, 0, 0, 0, 1, 1].map fun i => (i, false)) :
    PoolSystem (Fin 2)).inUse = -1 := by
  decide

end

end AuditFlow
