import AuditFlow.Foundation.Transition
import Mathlib.Logic.Function.Basic

/-!
# Read-modify-write under a lease

Any number of parties `ι` update one shared cell. Each acquires a lock, reads the cell, computes a
new value from what it read, writes it back and releases the lock. The lock is a **lease**: it
expires `timeout` after it was acquired whether or not its holder has finished, and whoever finds it
expired may take it. Time passes in `tick` steps of any length, so a party may be arbitrarily slow
anywhere. A lease without fencing does not keep a slow holder from writing.

The log records the writes in the order in which they happened; it and the owner (the last party
to acquire) are bookkeeping that no step reads.

* `noLostUpdate_of_reachWhere`: in a run in which a party writes only while it is still the last
  to have acquired the lock, **no update is lost**: the logged parties can all write one after
  another, each starting from what the one before it left, and the cell is what they make of the
  initial cell.
* `owner_of_unexpired`: a party whose lease has not expired is still the last to have acquired it.
-/

namespace Foundation.LeasedCell

/-- What the parties do: how long a lease lasts, what a read at a moment returns, what a party
computes from it (`none` if that fails), and what its write at a moment leaves in the cell. -/
structure Protocol (ι V C : Type) where
  timeout : ℕ
  view : C → ℕ → V
  body : ι → V → Option V
  put : ι → V → ℕ → C

/-- Where a party stands; a value is kept with the moment of the read it comes from. -/
inductive Phase (V : Type)
  | idle
  | gaveUp
  | acquired
  | read (readAt : ℕ) (v : V)
  | computed (readAt : ℕ) (v : V)
  | raised
  | written
  | released
  deriving DecidableEq

/-- A party that has acquired the lock and not yet released it. -/
def Phase.Holding {V : Type} : Phase V → Prop
  | .acquired | .read _ _ | .computed _ _ | .raised | .written => True
  | .idle | .gaveUp | .released => False

/-- A write that took effect: who, and when it read and wrote. -/
structure Entry (ι : Type) where
  party : ι
  readAt : ℕ
  setAt : ℕ
  deriving DecidableEq

/-- The lock names its holder and the moment it expires; `owner`, `acquiredAt` and `log` are
bookkeeping. -/
structure State (ι V C : Type) where
  now : ℕ
  lock : Option (ι × ℕ)
  cell : C
  phase : ι → Phase V
  owner : Option ι
  acquiredAt : ι → ℕ
  log : List (Entry ι)

/-- Nobody has started. -/
def State.initial {ι V C : Type} (c₀ : C) : State ι V C where
  now := 0
  lock := none
  cell := c₀
  phase _ := .idle
  owner := none
  acquiredAt _ := 0
  log := []

inductive Label (ι : Type)
  | tick (d : ℕ)
  | acquire (i : ι)
  /-- Waiting for the lock took too long. -/
  | giveUp (i : ι)
  | get (i : ι)
  | compute (i : ι)
  | set (i : ι)
  | release (i : ι)

section

variable {ι V C : Type}

/-- The lock is there and has not expired. -/
def State.locked (s : State ι V C) : Bool :=
  match s.lock with
  | none => false
  | some (_, expiry) => decide (s.now < expiry)

variable [DecidableEq ι]

/-- Move one party to another phase. -/
def State.move (s : State ι V C) (i : ι) (p : Phase V) : State ι V C :=
  { s with phase := Function.update s.phase i p }

/-- The party's own lock is deleted; one that another party took over is left alone. -/
def unlock (i : ι) : Option (ι × ℕ) → Option (ι × ℕ)
  | some (j, expiry) => if j = i then none else some (j, expiry)
  | none => none

/-- The party becomes the holder of a fresh lease. -/
def State.take (s : State ι V C) (i : ι) (timeout : ℕ) : State ι V C :=
  { s with
    phase := Function.update s.phase i .acquired
    lock := some (i, s.now + timeout)
    owner := some i
    acquiredAt := Function.update s.acquiredAt i s.now }

/-- The party's write, computed from a read at `readAt`, takes effect. -/
def State.write (s : State ι V C) (i : ι) (readAt : ℕ) (cell : C) : State ι V C :=
  { s with
    phase := Function.update s.phase i .written
    cell := cell
    log := s.log ++ [{ party := i, readAt, setAt := s.now }] }

/-- The party is done with the lock. -/
def State.drop (s : State ι V C) (i : ι) : State ι V C :=
  { s with phase := Function.update s.phase i .released, lock := unlock i s.lock }

/-- One step. -/
def step (P : Protocol ι V C) (s : State ι V C) : Label ι → Option (State ι V C)
  | .tick d => some { s with now := s.now + d }
  | .acquire i =>
    match s.phase i with
    | .idle =>
      if s.locked then none
      else some (s.take i P.timeout)
    | _ => none
  | .giveUp i =>
    match s.phase i with
    | .idle => some (s.move i .gaveUp)
    | _ => none
  | .get i =>
    match s.phase i with
    | .acquired => some (s.move i (.read s.now (P.view s.cell s.now)))
    | _ => none
  | .compute i =>
    match s.phase i with
    | .read t v =>
      match P.body i v with
      | some v' => some (s.move i (.computed t v'))
      | none => some (s.move i .raised)
    | _ => none
  | .set i =>
    match s.phase i with
    | .computed t v => some (s.write i t (P.put i v s.now))
    | _ => none
  | .release i =>
    match s.phase i with
    -- a critical section that raised gives the lock back all the same
    | .written | .raised => some (s.drop i)
    | _ => none

/-- The logged parties, one after another: each reads what the one before it left, computes and
writes. It is `none` if one of them cannot compute anything from what it reads in this order: then
the order is none in which all of these writes take effect. -/
def serial (P : Protocol ι V C) : C → List (Entry ι) → Option C :=
  List.foldlM fun c e =>
    (P.body e.party (P.view c e.readAt)).map fun v => P.put e.party v e.setAt

/-- **No lost update**: the cell is what the parties whose writes took effect make of the initial
cell one after another, in some order. -/
def NoLostUpdate (P : Protocol ι V C) (c₀ : C) (s : State ι V C) : Prop :=
  ∃ order : List (Entry ι), order.Perm s.log ∧ serial P c₀ order = some s.cell

/-- A party writes only while it is the last to have acquired the lock. -/
def WritesAsOwner (s : State ι V C) : Label ι → Prop
  | .set i => s.owner = some i
  | _ => True

/-! ### What a step does -/

/-- The effect of a step on a state in which it is enabled. -/
inductive Effect (P : Protocol ι V C) (s : State ι V C) : Label ι → State ι V C → Prop
  | tick (d : ℕ) : Effect P s (.tick d) { s with now := s.now + d }
  | acquire {i : ι} (hidle : s.phase i = .idle) (hfree : s.locked = false) :
      Effect P s (.acquire i) (s.take i P.timeout)
  | giveUp {i : ι} (hidle : s.phase i = .idle) : Effect P s (.giveUp i) (s.move i .gaveUp)
  | get {i : ι} (hacquired : s.phase i = .acquired) :
      Effect P s (.get i) (s.move i (.read s.now (P.view s.cell s.now)))
  | compute {i : ι} {t : ℕ} {v v' : V} (hread : s.phase i = .read t v)
      (hbody : P.body i v = some v') : Effect P s (.compute i) (s.move i (.computed t v'))
  | fail {i : ι} {t : ℕ} {v : V} (hread : s.phase i = .read t v) (hbody : P.body i v = none) :
      Effect P s (.compute i) (s.move i .raised)
  | set {i : ι} {t : ℕ} {v : V} (hcomputed : s.phase i = .computed t v) :
      Effect P s (.set i) (s.write i t (P.put i v s.now))
  | release {i : ι} (hdone : s.phase i = .written ∨ s.phase i = .raised) :
      Effect P s (.release i) (s.drop i)

variable {P : Protocol ι V C} {s s' : State ι V C} {l : Label ι} {c₀ : C}

theorem step_effect (h : step P s l = some s') : Effect P s l s' := by
  cases l with
  | tick d =>
    obtain rfl := Option.some.inj h
    exact .tick d
  | acquire i =>
    simp only [step] at h
    split at h
    · rename_i hidle
      split_ifs at h with hlocked
      obtain rfl := Option.some.inj h
      exact .acquire hidle (by simpa using hlocked)
    · cases h
  | giveUp i =>
    simp only [step] at h
    split at h
    · rename_i hidle
      obtain rfl := Option.some.inj h
      exact .giveUp hidle
    · cases h
  | get i =>
    simp only [step] at h
    split at h
    · rename_i hacquired
      obtain rfl := Option.some.inj h
      exact .get hacquired
    · cases h
  | compute i =>
    simp only [step] at h
    split at h
    · rename_i t v hread
      rcases hbody : P.body i v with - | v'
      · rw [hbody] at h
        obtain rfl := Option.some.inj h
        exact .fail hread hbody
      · rw [hbody] at h
        obtain rfl := Option.some.inj h
        exact .compute hread hbody
    · cases h
  | set i =>
    simp only [step] at h
    split at h
    · rename_i t v hcomputed
      obtain rfl := Option.some.inj h
      exact .set hcomputed
    · cases h
  | release i =>
    simp only [step] at h
    split at h
    · rename_i hwritten
      obtain rfl := Option.some.inj h
      exact .release (Or.inl hwritten)
    · rename_i hraised
      obtain rfl := Option.some.inj h
      exact .release (Or.inr hraised)
    · cases h

/-- A move of another party is not seen. -/
theorem move_phase_of_ne {i j : ι} (h : j ≠ i) (p : Phase V) :
    (s.move i p).phase j = s.phase j := by
  rw [State.move]
  exact Function.update_of_ne h p s.phase

theorem move_phase_self (i : ι) (p : Phase V) : (s.move i p).phase i = p := by
  rw [State.move]
  exact Function.update_self i p s.phase

/-! ### Serial runs -/

omit [DecidableEq ι] in
theorem serial_append {c c' : C} {es : List (Entry ι)} (hes : serial P c es = some c')
    (e : Entry ι) {v : V} (hbody : P.body e.party (P.view c' e.readAt) = some v) :
    serial P c (es ++ [e]) = some (P.put e.party v e.setAt) := by
  rw [serial] at hes ⊢
  rw [List.foldlM_append, hes, Option.bind_eq_bind, Option.bind_some, List.foldlM_cons, hbody]
  rfl

/-- The invariant of runs in which parties write as owners: the cell is the serial run of the log,
and what the owner has read or computed is still up to date. -/
structure Serial (P : Protocol ι V C) (c₀ : C) (s : State ι V C) : Prop where
  cell : serial P c₀ s.log = some s.cell
  read : ∀ i t v, s.owner = some i → s.phase i = .read t v → v = P.view s.cell t
  computed : ∀ i t v, s.owner = some i → s.phase i = .computed t v →
    P.body i (P.view s.cell t) = some v

omit [DecidableEq ι] in
theorem Serial.initial : Serial P c₀ (State.initial c₀ : State ι V C) where
  cell := rfl
  read _ _ _ h := nomatch h
  computed _ _ _ h := nomatch h

/-- A move of one party that keeps the cell, the log and the owner keeps the invariant if what that
party now holds is up to date. -/
private theorem Serial.move {i : ι} {p : Phase V} (h : Serial P c₀ s)
    (hread : ∀ t v, p = .read t v → s.owner = some i → v = P.view s.cell t)
    (hcomputed : ∀ t v, p = .computed t v → s.owner = some i →
      P.body i (P.view s.cell t) = some v) : Serial P c₀ (s.move i p) where
  cell := h.cell
  read j t v howner hj := by
    rcases eq_or_ne j i with rfl | hne
    · rw [move_phase_self] at hj
      exact hread t v hj howner
    · rw [move_phase_of_ne hne] at hj
      exact h.read j t v howner hj
  computed j t v howner hj := by
    rcases eq_or_ne j i with rfl | hne
    · rw [move_phase_self] at hj
      exact hcomputed t v hj howner
    · rw [move_phase_of_ne hne] at hj
      exact h.computed j t v howner hj

/-- **Step lemma.** A step in which a writer is the owner keeps the invariant. -/
theorem Serial.step (h : Serial P c₀ s) (hok : WritesAsOwner s l)
    (hstep : LeasedCell.step P s l = some s') : Serial P c₀ s' := by
  cases step_effect hstep with
  | tick d => exact ⟨h.cell, h.read, h.computed⟩
  | @acquire i hidle hfree =>
    -- the new owner has not read anything yet
    have hphase : (s.take i P.timeout).phase i = .acquired := move_phase_self i .acquired
    refine ⟨h.cell, fun j t v howner hj => ?_, fun j t v howner hj => ?_⟩
    · obtain rfl : i = j := Option.some.inj howner
      cases hphase.symm.trans hj
    · obtain rfl : i = j := Option.some.inj howner
      cases hphase.symm.trans hj
  | giveUp hidle => exact h.move (fun _ _ hp => nomatch hp) (fun _ _ hp => nomatch hp)
  | get hacquired =>
    refine h.move (fun t v hp _ => ?_) (fun _ _ hp => nomatch hp)
    cases hp
    rfl
  | compute hread hbody =>
    refine h.move (fun _ _ hp => nomatch hp) (fun t v hp howner => ?_)
    cases hp
    rwa [← h.read _ _ _ howner hread]
  | fail hread hbody => exact h.move (fun _ _ hp => nomatch hp) (fun _ _ hp => nomatch hp)
  | @set i t v hcomputed =>
    -- the writer is the owner, so what it computed comes from the cell as it is
    have hbody : P.body i (P.view s.cell t) = some v := h.computed i t v hok hcomputed
    have hphase : (s.write i t (P.put i v s.now)).phase i = .written := move_phase_self i .written
    refine ⟨serial_append h.cell ⟨i, t, s.now⟩ hbody, fun j t v howner hj => ?_,
      fun j t v howner hj => ?_⟩
    · obtain rfl : i = j := Option.some.inj (hok.symm.trans howner)
      cases hphase.symm.trans hj
    · obtain rfl : i = j := Option.some.inj (hok.symm.trans howner)
      cases hphase.symm.trans hj
  | @release i hdone =>
    have hmoved : Serial P c₀ (s.move i .released) :=
      h.move (fun _ _ hp => nomatch hp) (fun _ _ hp => nomatch hp)
    exact ⟨hmoved.cell, hmoved.read, hmoved.computed⟩

/-- **Run lemma.** If parties write only while they are the last to have acquired the lock, no
update is lost. -/
theorem noLostUpdate_of_reachWhere
    (h : ReachWhere (step P) WritesAsOwner (State.initial c₀) s) : NoLostUpdate P c₀ s := by
  have hinv : Serial P c₀ s := h.invariant .initial fun _ _ _ hi hok hs => hi.step hok hs
  exact ⟨s.log, List.Perm.refl _, hinv.cell⟩

/-! ### Unexpired leases -/

/-- A party that holds the lock is the owner, with its own lease in the lock, or its lease has
expired. -/
def Leased (P : Protocol ι V C) (s : State ι V C) : Prop :=
  ∀ i, (s.phase i).Holding →
    (s.owner = some i ∧ s.lock = some (i, s.acquiredAt i + P.timeout)) ∨
      s.acquiredAt i + P.timeout ≤ s.now

omit [DecidableEq ι] in
theorem Leased.initial : Leased P (State.initial c₀ : State ι V C) := fun _ h => h.elim

/-- A move of one party within its hold, or out of the game before it held the lock. -/
private theorem Leased.move {i : ι} {p : Phase V} (h : Leased P s)
    (hp : p.Holding → (s.phase i).Holding) : Leased P (s.move i p) := by
  intro j hj
  rcases eq_or_ne j i with rfl | hne
  · rw [move_phase_self] at hj
    exact h j (hp hj)
  · rw [move_phase_of_ne hne] at hj
    exact h j hj

theorem Leased.step (h : Leased P s) (hstep : LeasedCell.step P s l = some s') : Leased P s' := by
  cases step_effect hstep with
  | tick d =>
    intro i hi
    rcases h i hi with hlease | hexpired
    · exact Or.inl hlease
    · exact Or.inr (Nat.le_trans hexpired (Nat.le_add_right s.now d))
  | @acquire i hidle hfree =>
    intro j hj
    rcases eq_or_ne j i with rfl | hne
    · have hat : (s.take j P.timeout).acquiredAt j = s.now := Function.update_self j _ _
      exact Or.inl ⟨rfl, by rw [hat]; rfl⟩
    · -- whoever else held the lock has let its lease expire
      right
      have hat : (s.take i P.timeout).acquiredAt j = s.acquiredAt j := Function.update_of_ne hne _ _
      have hphase : (s.take i P.timeout).phase j = s.phase j := move_phase_of_ne hne .acquired
      rw [hat]
      rw [hphase] at hj
      rcases h j hj with ⟨-, hlock⟩ | hexpired
      · have hnot : ¬s.now < s.acquiredAt j + P.timeout := by
          simpa [State.locked, hlock] using hfree
        exact Nat.le_of_not_lt hnot
      · exact hexpired
  | giveUp hidle => exact h.move fun hp => hp.elim
  | get hacquired => exact h.move fun _ => by rw [hacquired]; trivial
  | compute hread hbody => exact h.move fun _ => by rw [hread]; trivial
  | fail hread hbody => exact h.move fun _ => by rw [hread]; trivial
  | @set i t v hcomputed =>
    have hmoved : Leased P (s.move i .written) := h.move fun _ => by rw [hcomputed]; trivial
    exact hmoved
  | @release i hdone =>
    -- nobody removes a lock that has another owner
    intro j hj
    rcases eq_or_ne j i with rfl | hne
    · have hphase : (s.drop j).phase j = .released := move_phase_self j .released
      rw [hphase] at hj
      exact hj.elim
    · have hphase : (s.drop i).phase j = s.phase j := move_phase_of_ne hne .released
      rw [hphase] at hj
      rcases h j hj with ⟨howner, hlock⟩ | hexpired
      · have hkept : (s.drop i).lock = s.lock := by
          change unlock i s.lock = s.lock
          rw [hlock, unlock, if_neg hne]
        exact Or.inl ⟨howner, hkept.trans hlock⟩
      · exact Or.inr hexpired

/-- **A lease that has not expired is still the last one.** -/
theorem owner_of_unexpired (h : Reach (step P) (State.initial c₀) s) {i : ι}
    (hholding : (s.phase i).Holding) (hunexpired : s.now < s.acquiredAt i + P.timeout) :
    s.owner = some i := by
  have hinv : Leased P s := ReachWhere.invariant h .initial fun _ _ _ hi _ hs => hi.step hs
  rcases hinv i hholding with ⟨howner, -⟩ | hexpired
  · exact howner
  · omega

end

end Foundation.LeasedCell
