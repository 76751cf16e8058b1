import AuditFlow.Auth.Refresh
import Mathlib.Logic.Relation

/-!
# Revoking a family of refresh tokens

The family of a revocation are the tokens of the user that are committed when its `UPDATE` starts.
`familyDead_of_reachWhere`: in a run in which **no revocation starts while a token of the user is
being rotated, and no rotation accepts a token of a family while that is being revoked**, a
revocation that is committed is complete: every token of its family, and every token obtained by
rotating one, is revoked, and cannot be rotated in any continuation of the run.

Without the condition a rotation can be under way that has passed its check of `revoked_at` already.
Its successor is not among the rows that the revoking `UPDATE` sees, and outlives the revocation:
`surviving_successor`.

The invariant `Covers` says that a token of the family of a revocation under way is revoked, or is
revoked by it without being committed, or is still to be treated; that no token of the family is
being rotated; and that the family is closed under rotation.
-/

namespace AuditFlow

open Foundation Foundation.ReadCommitted

/-- The user whose family the call is revoking or has revoked. -/
def RefreshPhase.revocation : RefreshPhase → Option String
  | revoking _ u _ | revoked u => some u
  | _ => none

section

variable {ι : Type} [DecidableEq ι] (hash : String → String) (calls : ι → RefreshCall)

namespace RefreshState

/-- The user whose family the call is about to revoke. -/
def toRevoke (s : RefreshState ι) (i : ι) : Option String :=
  match calls i, s.phase i with
  | .revokeAll u, .started _ => some u
  | .rotate _, .reused _ u => some u
  | _, _ => none

/-- The token is revoked, and no call that has not yet returned a successor for it ever will. -/
structure Dead (s : RefreshState ι) (k : String) : Prop where
  revoked : ∃ row, s.db.committed k = some row ∧ row.revokedAt ≠ none
  unrotatable : ∀ s', Reach (refreshStep hash calls) s s' → ∀ i,
    (calls i).presents hash = some k → (s'.phase i).hasReturned = true →
      (s.phase i).hasReturned = true

/-- The family of the revocation, and all that was obtained from it by rotations, is dead. -/
def FamilyDead (s : RefreshState ι) (r : ι) : Prop :=
  ∀ k₀ ∈ s.family r, ∀ k, Relation.ReflTransGen (fun a b => (a, b) ∈ s.successors) k₀ k →
    s.Dead hash calls k

/-- What the revocations of a guarded run keep. -/
structure Covers (s : RefreshState ι) : Prop where
  covered : ∀ {r u k}, (s.phase r).revocation = some u → k ∈ s.family r →
    ∃ row, s.db.committed k = some row ∧ row.username = u ∧
      (row.revokedAt ≠ none ∨ ∃ now todo, s.phase r = .revoking now u todo ∧
        (k ∈ todo ∨ ∃ row', s.db.dirty k = some (r, row')))
  still : ∀ {r i u k}, (s.phase r).revocation = some u → (calls i).presents hash = some k →
    k ∈ s.family r → (s.phase i).rotating = none
  closed : ∀ {r u a b}, (s.phase r).revocation = some u → (a, b) ∈ s.successors →
    a ∈ s.family r → b ∈ s.family r
  successors : ∀ {a b}, (a, b) ∈ s.successors →
    ∃ row, s.db.committed a = some row ∧
      ((∃ row', s.db.committed b = some row' ∧ row'.username = row.username) ∨
        ∃ i t e row', s.phase i = .inserted row.username t e ∧ s.db.dirty b = some (i, row') ∧
          row'.username = row.username)

end RefreshState

/-- No revocation starts while a token of its user is being rotated, and no `SELECT` accepts a
token of a family that is being revoked. -/
def RevokesAlone (s : RefreshState ι) : RefreshLabel ι → Prop
  | .revoke r => s.toRevoke calls r ≠ none → ∀ i, (s.phase i).rotating ≠ s.toRevoke calls r
  | .select i => s.acceptedRow hash calls i ≠ none → ∀ r, (s.phase r).revokes ≠ none →
    ∀ k ∈ (calls i).presents hash, k ∉ s.family r
  | _ => True

instance [Fintype ι] (s : RefreshState ι) (l : RefreshLabel ι) :
    Decidable (RevokesAlone hash calls s l) :=
  match l with
  | .revoke _ => inferInstanceAs (Decidable (_ → ∀ _, _ ≠ _))
  | .select i => inferInstanceAs (Decidable (_ → ∀ r, _ ≠ _ →
      ∀ k ∈ (calls i).presents hash, k ∉ s.family r))
  | .tick _ | .start _ | .update _ | .insert _ _ | .revokeRow _ _ | .commit _ =>
    inferInstanceAs (Decidable True)

variable {hash calls} {s s' : RefreshState ι} {l : RefreshLabel ι}

namespace RefreshState

/-! ### Steps -/

/-- A revocation begins with its snapshot, and keeps its family from then on. -/
private theorem revocation_step (hw : s.Wf hash calls) (h : RefreshEffect hash calls s l s') {r : ι}
    {u : String} (hrevocation : (s'.phase r).revocation = some u) :
    ((s.phase r).revocation = some u ∧ s'.family r = s.family r) ∨
      (l = .revoke r ∧ s.toRevoke calls r = some u ∧ (∀ k, s.db.visible r k = s.db.committed k) ∧
        ∃ now, s' = s.beginRevoke r now u) := by
  by_cases hr : l.actor = some r
  · cases h with
    | tick => cases hr
    | @revokeAll i u' now hcall hphase | @revokeReused i _ u' now hcall hphase =>
      cases hr
      rw [beginRevoke_phase_self] at hrevocation
      obtain rfl := Option.some.inj hrevocation
      refine Or.inr ⟨rfl, ?_, fun k => hw.visible_eq ?_ k, now, rfl⟩
      · rw [toRevoke, hcall, hphase]
      · rw [hphase]
        rfl
    | revokeRow hphase | commitRevoked hphase =>
      cases hr
      rw [write_phase_self] at hrevocation
      rw [hphase]
      exact Or.inl ⟨hrevocation, rfl⟩
    | _ =>
      cases hr
      simp only [move_phase_self, write_phase_self, succeed_phase_self, RefreshPhase.revocation,
        reduceCtorEq] at hrevocation
  · rw [h.phase_of_ne hr] at hrevocation
    exact Or.inl ⟨hrevocation, h.family_of_ne hr⟩

/-- A call whose revoking `UPDATE` is under way treats a row, or commits. -/
private theorem revoking_step (h : RefreshEffect hash calls s l s') {r : ι} {now : ℕ} {u : String}
    {todo : List String} (hphase : s.phase r = .revoking now u todo) (hr : l.actor = some r) :
    (∃ k, s.db.update r k (TokenRow.isLiveOf u) (TokenRow.revoke now) = some s'.db ∧
        s'.phase r = .revoking now u (todo.erase k)) ∨
      (todo = [] ∧ s'.db = s.db.commit r) := by
  cases h with
  | tick => cases hr
  | @revokeRow i k u' now' todo' db hphase' hmem hdb =>
    cases hr
    obtain ⟨rfl, rfl, rfl⟩ := RefreshPhase.revoking.inj (hphase'.symm.trans hphase)
    exact Or.inl ⟨k, hdb, write_phase_self _ _ _ _⟩
  | @commitRevoked i u' now' hphase' =>
    cases hr
    obtain ⟨-, -, rfl⟩ := RefreshPhase.revoking.inj (hphase'.symm.trans hphase)
    exact Or.inr ⟨rfl, rfl⟩
  | start hphase' | selectInvalid _ hphase' | selectReused _ hphase' | selectExpired _ hphase'
  | selectAccepted _ hphase' | update _ hphase' | insertIssued _ hphase' | insertRotated _ hphase'
  | revokeAll _ hphase' | revokeReused _ hphase' | commitIssued hphase' | commitRotated hphase' =>
    cases hr
    cases hphase'.symm.trans hphase

/-- The revoking `UPDATE` treats a row: then it has written it, or the row is revoked already. -/
private theorem revokeRow_covers {r : ι} {now : ℕ} {u k₀ k : String} {todo : List String}
    {row : TokenRow} {db : Db ι String TokenRow}
    (hdb : s.db.update r k₀ (TokenRow.isLiveOf u) (TokenRow.revoke now) = some db)
    (hrow : s.db.committed k = some row) (hu : row.username = u)
    (hk : k ∈ todo ∨ ∃ row', s.db.dirty k = some (r, row')) :
    row.revokedAt ≠ none ∨ k ∈ todo.erase k₀ ∨ ∃ row', db.dirty k = some (r, row') := by
  rcases hk with hmem | ⟨row', hdirty⟩
  · rcases eq_or_ne k k₀ with rfl | hne
    · obtain ⟨row', hvisible⟩ := Db.exists_visible (t := r) hrow
      rcases Bool.eq_false_or_eq_true (TokenRow.isLiveOf u row') with hlive | hlive
      · exact Or.inr (Or.inr ⟨_, Db.update_dirty hdb hvisible hlive⟩)
      · rcases Db.visible_eq_some hvisible with hdirty | hsame
        · exact Or.inr (Or.inr (Db.update_dirty_own hdb hdirty))
        · -- the re-check fails on the committed row of the user, so that is revoked
          obtain rfl := Option.some.inj (hsame.symm.trans hrow)
          refine Or.inl fun hnone => ?_
          rw [TokenRow.isLiveOf, hnone, hu, decide_eq_true rfl] at hlive
          cases hlive
    · exact Or.inr (Or.inl ((List.mem_erase_of_ne hne).mpr hmem))
  · exact Or.inr (Or.inr (Db.update_dirty_own hdb hdirty))

private theorem covered_step (hw : s.Wf hash calls) (hc : s.Covers hash calls)
    (h : RefreshEffect hash calls s l s') {r : ι} {u k : String}
    (hrevocation : (s'.phase r).revocation = some u) (hk : k ∈ s'.family r) :
    ∃ row, s'.db.committed k = some row ∧ row.username = u ∧
      (row.revokedAt ≠ none ∨ ∃ now todo, s'.phase r = .revoking now u todo ∧
        (k ∈ todo ∨ ∃ row', s'.db.dirty k = some (r, row'))) := by
  rcases revocation_step hw h hrevocation with ⟨hbefore, hfamily⟩ | ⟨-, -, hvisible, now, rfl⟩
  · rw [hfamily] at hk
    obtain ⟨row, hrow, hu, hcovered⟩ := hc.covered hbefore hk
    obtain ⟨row', hrow', rfl | hrevises⟩ := h.evolves hw.along _ _ hrow
    · refine ⟨row', hrow', hu, ?_⟩
      rcases hcovered with hrevoked | ⟨now, todo, hphase, hkey⟩
      · exact Or.inl hrevoked
      · by_cases hr : l.actor = some r
        · -- the `UPDATE` treats one more row, or everything it wrote is committed
          rcases revoking_step h hphase hr with ⟨k₀, hdb, hphase'⟩ | ⟨rfl, hdb⟩
          · refine (revokeRow_covers hdb hrow hu hkey).imp_right fun hkey' => ?_
            exact ⟨now, todo.erase k₀, hphase', hkey'⟩
          · rcases hkey with hnil | ⟨row'', hdirty⟩
            · cases hnil
            · rw [hdb, Db.commit_committed hdirty] at hrow'
              obtain rfl := Option.some.inj hrow'
              exact Or.inl (hw.dirty_revoked hdirty hrow).2
        · refine Or.inr ⟨now, todo, (h.phase_of_ne hr).trans hphase, ?_⟩
          exact hkey.imp_right fun ⟨row'', hdirty⟩ => ⟨row'', h.dirty hr hdirty⟩
    · exact ⟨row', hrow', hrevises.1.trans hu, Or.inl hrevises.2⟩
  · obtain ⟨row, hrow, hu⟩ := (mem_beginRevoke_family s r).mp hk
    refine ⟨row, hrow, hu, ?_⟩
    by_cases hrevoked : row.revokedAt = none
    · -- a live row of the family is in the snapshot of the `UPDATE`
      refine Or.inr ⟨now, _, beginRevoke_phase_self s r now u, Or.inl ?_⟩
      refine Db.mem_matching_iff.mpr ⟨row, (hvisible k).trans hrow, ?_⟩
      rw [TokenRow.isLiveOf, hrevoked, hu, decide_eq_true rfl]
      rfl
    · exact Or.inl hrevoked

/-- A token of a family that is revoked, or is being revoked, is not accepted. -/
private theorem not_accepted (hc : s.Covers hash calls) {r i : ι} {u k : String} {row : TokenRow}
    (hrevocation : (s.phase r).revocation = some u) (hk : k ∈ s.family r)
    (hpresents : (calls i).presents hash = some k) (hok : RevokesAlone hash calls s (.select i))
    (hrow : s.db.committed k = some row) (hlive : row.revokedAt = none) :
    s.acceptedRow hash calls i = none := by
  by_contra haccepted
  obtain ⟨row', hrow', -, hcovered⟩ := hc.covered hrevocation hk
  obtain rfl := Option.some.inj (hrow.symm.trans hrow')
  rcases hcovered with hrevoked | ⟨now, todo, hphase, -⟩
  · exact hrevoked hlive
  · have hrevokes : (s.phase r).revokes ≠ none := by
      rw [hphase]
      exact Option.some_ne_none u
    exact hok haccepted r hrevokes k hpresents hk

private theorem still_step (hw : s.Wf hash calls) (hc : s.Covers hash calls)
    (hok : RevokesAlone hash calls s l) (h : RefreshEffect hash calls s l s') {r i : ι}
    {u k : String} (hrevocation : (s'.phase r).revocation = some u)
    (hpresents : (calls i).presents hash = some k) (hk : k ∈ s'.family r) :
    (s'.phase i).rotating = none := by
  rw [Option.eq_none_iff_forall_ne_some]
  intro v hrotating
  rcases revocation_step hw h hrevocation with ⟨hbefore, hfamily⟩ | ⟨rfl, huser, -, now, rfl⟩
  · rw [hfamily] at hk
    rcases hw.rotating_step h hrotating with hr | ⟨rfl, rawToken, row, hcall, hrow, -, hlive, hacc⟩
    · rw [hc.still hbefore hpresents hk] at hr
      cases hr
    · obtain rfl := Option.some.inj ((RefreshCall.presents_rotate hcall).symm.trans hpresents)
      rw [not_accepted hc hbefore hk hpresents hok hrow hlive] at hacc
      cases hacc
  · rcases hw.rotating_step h hrotating with hr | ⟨hlabel, -⟩
    · -- the token that is being rotated belongs to the user whose family is to be revoked
      obtain ⟨rawToken, row, hcall, hrow, hv⟩ := hw.rotates hr
      obtain rfl := Option.some.inj ((RefreshCall.presents_rotate hcall).symm.trans hpresents)
      obtain ⟨row', hrow', hu⟩ := (mem_beginRevoke_family s r).mp hk
      obtain rfl := Option.some.inj (hrow.symm.trans hrow')
      refine hok ?_ i ?_
      · rw [huser]
        exact Option.some_ne_none u
      · rw [hr, huser, ← hv, hu]
    · cases hlabel

/-- A new pair of a token and its successor comes from a rotation that inserts the successor. -/
private theorem successors_eq (h : RefreshEffect hash calls s l s') {a b : String}
    (hmem : (a, b) ∈ s'.successors) :
    (a, b) ∈ s.successors ∨ ∃ i u t e row, (calls i).presents hash = some a ∧
      (s.phase i).rotating = some u ∧ s'.phase i = .inserted u t e ∧ row.username = u ∧
        s.db.insert i b row = some s'.db := by
  cases h with
  | @insertRotated i rawToken newToken u now db hcall hphase hdb =>
    rcases List.mem_append.mp hmem with hold | hnew
    · exact Or.inl hold
    · obtain ⟨rfl, rfl⟩ := Prod.mk.inj (List.mem_singleton.mp hnew)
      refine Or.inr ⟨i, u, newToken, _, newTokenRow u now, RefreshCall.presents_rotate hcall, ?_,
        succeed_phase_self _ _ _ _ _ _, rfl, hdb⟩
      rw [hphase]
      rfl
  | _ => exact Or.inl hmem

private theorem closed_step (hw : s.Wf hash calls) (hc : s.Covers hash calls)
    (hok : RevokesAlone hash calls s l) (h : RefreshEffect hash calls s l s') {r : ι}
    {u a b : String} (hrevocation : (s'.phase r).revocation = some u)
    (hmem : (a, b) ∈ s'.successors) (ha : a ∈ s'.family r) : b ∈ s'.family r := by
  rcases revocation_step hw h hrevocation with ⟨hbefore, hfamily⟩ | ⟨rfl, huser, -, now, rfl⟩
  · rw [hfamily] at ha ⊢
    rcases successors_eq h hmem with hold | ⟨i, v, t, e, row, hpresents, hrotating, -⟩
    · exact hc.closed hbefore hold ha
    · rw [hc.still hbefore hpresents ha] at hrotating
      cases hrotating
  · obtain ⟨row, hrow, hu⟩ := (mem_beginRevoke_family s r).mp ha
    obtain ⟨row', hrow', hsuccessor⟩ := hc.successors hmem
    obtain rfl := Option.some.inj (hrow.symm.trans hrow')
    rcases hsuccessor with ⟨row'', hrow'', husername⟩ | ⟨i, t, e, -, hphase, -⟩
    · exact (mem_beginRevoke_family s r).mpr ⟨row'', hrow'', husername.trans hu⟩
    · -- the rotation that inserted the successor has not committed
      refine absurd ?_ (hok ?_ i)
      · rw [hphase, huser, ← hu]
        rfl
      · rw [huser]
        exact Option.some_ne_none u

/-- A rotation that has inserted its successor can only commit. -/
private theorem inserted_step (h : RefreshEffect hash calls s l s') {i : ι} {u t : String} {e : ℕ}
    (hphase : s.phase i = .inserted u t e) (hi : l.actor = some i) : s'.db = s.db.commit i := by
  cases h with
  | tick => cases hi
  | commitRotated =>
    cases hi
    rfl
  | start hphase' | selectInvalid _ hphase' | selectReused _ hphase' | selectExpired _ hphase'
  | selectAccepted _ hphase' | update _ hphase' | insertIssued _ hphase' | insertRotated _ hphase'
  | revokeAll _ hphase' | revokeReused _ hphase' | revokeRow hphase' | commitIssued hphase'
  | commitRevoked hphase' =>
    cases hi
    cases hphase'.symm.trans hphase

private theorem successors_step (hw : s.Wf hash calls) (hc : s.Covers hash calls)
    (h : RefreshEffect hash calls s l s') {a b : String} (hmem : (a, b) ∈ s'.successors) :
    ∃ row, s'.db.committed a = some row ∧
      ((∃ row', s'.db.committed b = some row' ∧ row'.username = row.username) ∨
        ∃ i t e row', s'.phase i = .inserted row.username t e ∧ s'.db.dirty b = some (i, row') ∧
          row'.username = row.username) := by
  have hkeeps {k : String} {row : TokenRow} (hrow : s.db.committed k = some row) :
      ∃ row', s'.db.committed k = some row' ∧ row'.username = row.username := by
    obtain ⟨row', hrow', rfl | hrevises⟩ := h.evolves hw.along _ _ hrow
    · exact ⟨row', hrow', rfl⟩
    · exact ⟨row', hrow', hrevises.1⟩
  rcases successors_eq h hmem with hold | ⟨i, u, t, e, row', hpresents, hrotating, hphase, hu, hdb⟩
  · obtain ⟨row, hrow, hsuccessor⟩ := hc.successors hold
    obtain ⟨row₁, hrow₁, husername⟩ := hkeeps hrow
    refine ⟨row₁, hrow₁, ?_⟩
    rw [husername]
    rcases hsuccessor with ⟨row', hrow', hu⟩ | ⟨i, t, e, row', hphase, hdirty, hu⟩
    · obtain ⟨row₂, hrow₂, hu₂⟩ := hkeeps hrow'
      exact Or.inl ⟨row₂, hrow₂, hu₂.trans hu⟩
    · by_cases hi : l.actor = some i
      · -- the rotation commits its successor
        refine Or.inl ⟨row', ?_, hu⟩
        rw [inserted_step h hphase hi]
        exact Db.commit_committed hdirty
      · exact Or.inr ⟨i, t, e, row', (h.phase_of_ne hi).trans hphase, h.dirty hi hdirty, hu⟩
  · obtain ⟨rawToken, row, hcall, hrow, hrowu⟩ := hw.rotates hrotating
    obtain rfl := Option.some.inj ((RefreshCall.presents_rotate hcall).symm.trans hpresents)
    obtain ⟨row₁, hrow₁, husername⟩ := hkeeps hrow
    refine ⟨row₁, hrow₁, Or.inr ⟨i, t, e, row', ?_, Db.insert_dirty hdb, ?_⟩⟩
    · rw [husername, hrowu]
      exact hphase
    · rw [husername, hrowu]
      exact hu

omit [DecidableEq ι] in
private theorem covers_initial (db₀ : Db ι String TokenRow) (clock : ℕ) :
    (initial db₀ clock).Covers hash calls where
  covered h := nomatch h
  still _ _ _ := rfl
  closed h := nomatch h
  successors h := nomatch h

/-- In a guarded run, states are well-formed and revocations cover their families. -/
theorem covers_of_reachWhere {db₀ : Db ι String TokenRow} {clock : ℕ}
    (hclean : ∀ k, db₀.dirty k = none)
    (h : ReachWhere (refreshStep hash calls) (RevokesAlone hash calls) (initial db₀ clock) s) :
    s.Wf hash calls ∧ s.Covers hash calls := by
  refine h.invariant (P := fun s => s.Wf hash calls ∧ s.Covers hash calls)
    ⟨wf_initial hclean clock, covers_initial db₀ clock⟩ ?_
  intro s l s' ⟨hw, hc⟩ hok hstep
  have heffect := refreshStep_effect hstep
  exact ⟨hw.step heffect, covered_step hw hc heffect, still_step hw hc hok heffect,
    closed_step hw hc hok heffect, successors_step hw hc heffect⟩

/-! ### Dead tokens -/

/-- A token that is revoked and not being rotated is never rotated again, whatever happens. -/
theorem dead_of_revoked (hw : s.Wf hash calls) {k : String}
    (hrevoked : ∃ row, s.db.committed k = some row ∧ row.revokedAt ≠ none)
    (hstill : ∀ i, (calls i).presents hash = some k → (s.phase i).rotating = none) :
    s.Dead hash calls k := by
  refine ⟨hrevoked, fun s' hreach => ?_⟩
  -- by induction on the run: revoked rows stay revoked, so no `SELECT` accepts the token
  have hinv : s'.Wf hash calls ∧ (∃ row, s'.db.committed k = some row ∧ row.revokedAt ≠ none) ∧
      ∀ i, (calls i).presents hash = some k → (s'.phase i).rotating = none ∧
        ((s'.phase i).hasReturned = true → (s.phase i).hasReturned = true) := by
    refine hreach.invariant (P := fun t => t.Wf hash calls ∧
      (∃ row, t.db.committed k = some row ∧ row.revokedAt ≠ none) ∧
      ∀ i, (calls i).presents hash = some k → (t.phase i).rotating = none ∧
        ((t.phase i).hasReturned = true → (s.phase i).hasReturned = true))
      ⟨hw, hrevoked, fun i hi => ⟨hstill i hi, id⟩⟩ ?_
    intro t l t' ⟨hw, ⟨row, hrow, hrowRevoked⟩, hstill⟩ _ hstep
    have heffect := refreshStep_effect hstep
    refine ⟨hw.step heffect, ?_, fun i hi => ⟨?_, fun hreturned => ?_⟩⟩
    · obtain ⟨row', hrow', rfl | hrevises⟩ := heffect.evolves hw.along _ _ hrow
      · exact ⟨row', hrow', hrowRevoked⟩
      · exact ⟨row', hrow', hrevises.2⟩
    · rw [Option.eq_none_iff_forall_ne_some]
      intro u hrotating
      rcases hw.rotating_step heffect hrotating with
        hr | ⟨-, rawToken, row', hcall, hrow', -, hlive, -⟩
      · rw [(hstill i hi).1] at hr
        cases hr
      · obtain rfl := Option.some.inj ((RefreshCall.presents_rotate hcall).symm.trans hi)
        obtain rfl := Option.some.inj (hrow.symm.trans hrow')
        exact hrowRevoked hlive
    · rcases hw.hasReturned_step heffect hi hreturned with hbefore | ⟨⟨u, hrotating⟩, -⟩
      · exact (hstill i hi).2 hbefore
      · rw [(hstill i hi).1] at hrotating
        cases hrotating
  exact fun i hi => (hinv.2.2 i hi).2

end RefreshState

/-- **Family revocation is complete** as long as no revocation starts while a token of its user is
being rotated, and no rotation accepts a token of a family that is being revoked. -/
theorem familyDead_of_reachWhere {db₀ : Db ι String TokenRow} {clock : ℕ}
    (hclean : ∀ k, db₀.dirty k = none)
    (h : ReachWhere (refreshStep hash calls) (RevokesAlone hash calls)
      (RefreshState.initial db₀ clock) s) {r : ι} {u : String} (hr : s.phase r = .revoked u) :
    s.FamilyDead hash calls r := by
  obtain ⟨hw, hc⟩ := RefreshState.covers_of_reachWhere hclean h
  have hrevocation : (s.phase r).revocation = some u := by
    rw [hr]
    rfl
  intro k₀ hk₀ k hchain
  have hk : k ∈ s.family r := by
    -- the family is closed under rotation, so a chain that starts in it stays in it
    induction hchain with
    | refl => exact hk₀
    | tail _ hsuccessor ih => exact hc.closed hrevocation hsuccessor ih
  refine RefreshState.dead_of_revoked hw ?_ fun i hi => hc.still hrevocation hi hk
  obtain ⟨row, hrow, -, hrevoked | ⟨now, todo, hphase, -⟩⟩ := hc.covered hrevocation hk
  · exact ⟨row, hrow, hrevoked⟩
  · cases hr.symm.trans hphase

end

/-! ### Concrete runs -/

/-- Token `t` is issued, rotated once, and all tokens of the user are revoked. -/
def revocationCalls : SampleCall → RefreshCall
  | .first => .issue "alice"
  | .second => .rotate "t"
  | .third => .revokeAll "alice"

/-- The revocation comes after the rotation. -/
def revokeAfterRun : List (RefreshLabel SampleCall) :=
  [.start .first, .insert .first "t", .commit .first,
   .start .second, .select .second, .update .second, .insert .second "a", .commit .second,
   .start .third, .revoke .third, .revokeRow .third (sampleHash "a"), .commit .third]

/-- `familyDead_of_reachWhere` at a revocation after a rotation. -/
theorem familyDead_of_reachWhere_after :
    ∃ s, execWhere (refreshStep sampleHash revocationCalls)
        (RevokesAlone sampleHash revocationCalls) (RefreshState.initial .empty 0) revokeAfterRun =
          some s ∧ s.FamilyDead sampleHash revocationCalls .third := by
  have hrun : (execWhere (refreshStep sampleHash revocationCalls)
      (RevokesAlone sampleHash revocationCalls) (RefreshState.initial .empty 0)
        revokeAfterRun).map (fun s => s.phase .third) = some (.revoked "alice") := by decide +kernel
  obtain ⟨s, hs, hphase⟩ := Option.map_eq_some_iff.mp hrun
  exact ⟨s, hs, familyDead_of_reachWhere (fun _ => rfl) (ReachWhere.start.exec hs) hphase⟩

/-- The rotation has passed its check when the revocation starts. -/
def revokeDuringRun : List (RefreshLabel SampleCall) :=
  [.start .first, .insert .first "t", .commit .first,
   .start .second, .select .second,
   .start .third, .revoke .third, .revokeRow .third (sampleHash "t"), .commit .third,
   .update .second, .insert .second "a", .commit .second]

/-- **A successor survives the revocation of its family**: all calls have ended, and the token that
the rotation returned is not revoked. -/
theorem surviving_successor :
    ∃ s, exec (refreshStep sampleHash revocationCalls) (RefreshState.initial .empty 0)
        revokeDuringRun = some s ∧ s.phase .third = .revoked "alice" ∧
          (∀ i, (revocationCalls i).outcome (s.phase i) ≠ none) ∧
            ¬s.FamilyDead sampleHash revocationCalls .third := by
  have hrun : (exec (refreshStep sampleHash revocationCalls) (RefreshState.initial .empty 0)
      revokeDuringRun).map (fun s => ((s.phase .first, s.phase .second, s.phase .third),
        s.family .third, s.successors, s.db.committed (sampleHash "a"))) =
        some ((.returned "alice" "t" refreshTokenExpiry, .returned "alice" "a" refreshTokenExpiry,
            .revoked "alice"), [sampleHash "t"], [(sampleHash "t", sampleHash "a")],
          some (newTokenRow "alice" 0)) := by decide +kernel
  obtain ⟨s, hs, hfinal⟩ := Option.map_eq_some_iff.mp hrun
  obtain ⟨hphases, hfamily, hsuccessors, hrow⟩ := by
    simpa only [Prod.mk.injEq] using hfinal
  obtain ⟨h₀, h₁, h₂⟩ := hphases
  refine ⟨s, hs, h₂, ?_, fun hdead => ?_⟩
  · intro i
    match i with
    | .first =>
      rw [h₀]
      exact Option.some_ne_none _
    | .second =>
      rw [h₁]
      exact Option.some_ne_none _
    | .third =>
      rw [h₂]
      exact Option.some_ne_none _
  · have hmem : sampleHash "t" ∈ s.family .third := by
      rw [hfamily]
      exact List.mem_singleton_self _
    have hsuccessor : (sampleHash "t", sampleHash "a") ∈ s.successors := by
      rw [hsuccessors]
      exact List.mem_singleton_self _
    obtain ⟨row, hrow', hrevoked⟩ := (hdead _ hmem _ (.single hsuccessor)).revoked
    obtain rfl := Option.some.inj (hrow.symm.trans hrow')
    exact hrevoked rfl

end AuditFlow
