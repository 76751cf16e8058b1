import AuditFlow.Auth.Refresh

/-!
# A refresh token buys at most one successor

`rotate_singleUse`: in a run in which **no rotation's `SELECT` accepts a token while another
rotation of that token is between its own accepting `SELECT` and its commit**, at most one of the
rotations that present a token returns a successor, and all others that end raise
`AuthenticationError`.

The statements themselves do not ensure that. The `SELECT` takes no lock, and the `UPDATE` that
revokes the old token does not ask again whether it is revoked: in `two_successors`, two rotations
both read the live row, the second `UPDATE` waits for the first rotation's commit and then goes on.
-/

namespace AuditFlow

open Foundation Foundation.ReadCommitted

/-- The call returned, or is still rotating a token. -/
def RefreshPhase.engaged (p : RefreshPhase) : Prop := p.rotating ≠ none ∨ p.hasReturned = true

/-- The token is used at most once: at most one of the rotations that present it returns, and each
other one that has ended raised `AuthenticationError`. -/
structure SingleUse {ι : Type} (calls : ι → RefreshCall) (s : RefreshState ι) (rawToken : String) :
    Prop where
  atMostOne : ∀ i j, calls i = .rotate rawToken → calls j = .rotate rawToken →
    (s.phase i).hasReturned = true → (s.phase j).hasReturned = true → i = j
  othersRaise : ∀ i o, calls i = .rotate rawToken → (calls i).outcome (s.phase i) = some o →
    (s.phase i).hasReturned = false → ∃ e, o = .error e ∧ e.cls = .authenticationError

section

variable {ι : Type} [DecidableEq ι] (hash : String → String) (calls : ι → RefreshCall)

/-- No `SELECT` accepts a token that another call is rotating. -/
def OneRotation (s : RefreshState ι) : RefreshLabel ι → Prop
  | .select i => s.acceptedRow hash calls i ≠ none → ∀ j,
    (calls j).presents hash = (calls i).presents hash → (s.phase j).rotating = none
  | _ => True

instance [Fintype ι] (s : RefreshState ι) (l : RefreshLabel ι) :
    Decidable (OneRotation hash calls s l) :=
  match l with
  | .select _ => inferInstanceAs (Decidable (_ → ∀ _, _ → _))
  | .tick _ | .start _ | .update _ | .insert _ _ | .revoke _ | .revokeRow _ _ | .commit _ =>
    inferInstanceAs (Decidable True)

/-- At most one call is engaged with a token, and a token that was rotated is revoked. -/
structure RefreshState.Exclusive (s : RefreshState ι) : Prop where
  unique : ∀ {i j k}, (calls i).presents hash = some k → (calls j).presents hash = some k →
    (s.phase i).engaged → (s.phase j).engaged → i = j
  spent : ∀ {i k}, (calls i).presents hash = some k → (s.phase i).hasReturned = true →
    ∃ row, s.db.committed k = some row ∧ row.revokedAt ≠ none

variable {hash calls} {s s' : RefreshState ι} {l : RefreshLabel ι}

namespace RefreshState

private theorem spent_step (hw : s.Wf hash calls) (hx : s.Exclusive hash calls)
    (h : RefreshEffect hash calls s l s') {j : ι} {k : String}
    (hk : (calls j).presents hash = some k) (hreturned : (s'.phase j).hasReturned = true) :
    ∃ row, s'.db.committed k = some row ∧ row.revokedAt ≠ none := by
  rcases hw.hasReturned_step h hk hreturned with hbefore | ⟨⟨u, hrotating⟩, hupdated, hdb⟩
  · obtain ⟨row, hrow, hrevoked⟩ := hx.spent hk hbefore
    obtain ⟨row', hrow', rfl | hrevises⟩ := h.evolves hw.along _ _ hrow
    · exact ⟨row', hrow', hrevoked⟩
    · exact ⟨row', hrow', hrevises.2⟩
  · obtain ⟨rawToken, row₀, hcall, hcommitted, -⟩ := hw.rotates hrotating
    obtain rfl := Option.some.inj ((RefreshCall.presents_rotate hcall).symm.trans hk)
    obtain ⟨row, hdirty⟩ := hw.written hcall hupdated
    refine ⟨row, ?_, (hw.dirty_revoked hdirty hcommitted).2⟩
    rw [hdb]
    exact Db.commit_committed hdirty

/-- A call that becomes engaged with a token is a rotation whose `SELECT` accepts it. -/
private theorem engaged_step (hw : s.Wf hash calls) (h : RefreshEffect hash calls s l s') {j : ι}
    {k : String} (hk : (calls j).presents hash = some k) (hengaged : (s'.phase j).engaged) :
    (s.phase j).engaged ∨ l = .select j ∧ s.acceptedRow hash calls j ≠ none ∧
      ∃ row, s.db.committed k = some row ∧ row.revokedAt = none := by
  rcases hengaged with hrotating | hreturned
  · obtain ⟨u, hu⟩ := Option.ne_none_iff_exists'.mp hrotating
    rcases hw.rotating_step h hu with hbefore |
        ⟨rfl, rawToken, row, hcall, hrow, _, hrevoked, haccepted⟩
    · refine Or.inl (Or.inl ?_)
      rw [hbefore]
      exact Option.some_ne_none u
    · obtain rfl := Option.some.inj ((RefreshCall.presents_rotate hcall).symm.trans hk)
      refine Or.inr ⟨rfl, ?_, row, hrow, hrevoked⟩
      rw [haccepted]
      exact Option.some_ne_none row
  · rcases hw.hasReturned_step h hk hreturned with hbefore | ⟨⟨u, hrotating⟩, -, -⟩
    · exact Or.inl (Or.inr hbefore)
    · refine Or.inl (Or.inl ?_)
      rw [hrotating]
      exact Option.some_ne_none u

private theorem exclusive_step (hw : s.Wf hash calls) (hx : s.Exclusive hash calls)
    (hok : OneRotation hash calls s l) (h : RefreshEffect hash calls s l s') :
    s'.Exclusive hash calls where
  unique {i j k} hi hj hei hej := by
    -- a call that becomes engaged meets no call that is engaged with the token already
    have hfresh {i j : ι} (hi : (calls i).presents hash = some k)
        (hj : (calls j).presents hash = some k) (hsel : l = .select i)
        (hacc : s.acceptedRow hash calls i ≠ none)
        (hrow : ∃ row, s.db.committed k = some row ∧ row.revokedAt = none)
        (hej : (s.phase j).engaged) : False := by
      subst hsel
      rcases hej with hrotating | hreturned
      · exact hrotating (hok hacc j (hj.trans hi.symm))
      · obtain ⟨row, hrow, hnone⟩ := hrow
        obtain ⟨row', hrow', hrevoked⟩ := hx.spent hj hreturned
        obtain rfl := Option.some.inj (hrow.symm.trans hrow')
        exact hrevoked hnone
    rcases engaged_step hw h hi hei with hei | ⟨hseli, hacci, hrowi⟩ <;>
      rcases engaged_step hw h hj hej with hej | ⟨hselj, haccj, hrowj⟩
    · exact hx.unique hi hj hei hej
    · exact absurd hei fun hei => hfresh hj hi hselj haccj hrowj hei
    · exact absurd hej fun hej => hfresh hi hj hseli hacci hrowi hej
    · exact RefreshLabel.select.inj (hseli.symm.trans hselj)
  spent := spent_step hw hx h

omit [DecidableEq ι] in
private theorem exclusive_initial (db₀ : Db ι String TokenRow) (clock : ℕ) :
    (initial db₀ clock).Exclusive hash calls where
  unique _ _ hi _ := hi.elim (fun h => absurd rfl h) fun h => nomatch h
  spent _ h := nomatch h

/-- In a guarded run, states are well-formed and exclusive. -/
theorem exclusive_of_reachWhere {db₀ : Db ι String TokenRow} {clock : ℕ}
    (hclean : ∀ k, db₀.dirty k = none)
    (h : ReachWhere (refreshStep hash calls) (OneRotation hash calls) (initial db₀ clock) s) :
    s.Wf hash calls ∧ s.Exclusive hash calls := by
  refine h.invariant (P := fun s => s.Wf hash calls ∧ s.Exclusive hash calls)
    ⟨wf_initial hclean clock, exclusive_initial db₀ clock⟩ ?_
  intro s l s' ⟨hw, hx⟩ hok hstep
  have heffect := refreshStep_effect hstep
  exact ⟨hw.step heffect, exclusive_step hw hx hok heffect⟩

end RefreshState

/-- **A refresh token buys at most one successor**, and all other calls that present it raise
`AuthenticationError`, as long as no `SELECT` accepts a token that another call is rotating. -/
theorem rotate_singleUse {db₀ : Db ι String TokenRow} {clock : ℕ}
    (hclean : ∀ k, db₀.dirty k = none)
    (h : ReachWhere (refreshStep hash calls) (OneRotation hash calls)
      (RefreshState.initial db₀ clock) s) (rawToken : String) : SingleUse calls s rawToken := by
  obtain ⟨hw, hx⟩ := RefreshState.exclusive_of_reachWhere hclean h
  refine ⟨fun i j hi hj hri hrj => ?_, fun i o hi ho hnot => ?_⟩
  · exact hx.unique (RefreshCall.presents_rotate hi) (RefreshCall.presents_rotate hj) (Or.inr hri)
      (Or.inr hrj)
  · rw [hi] at ho
    rcases hphase : s.phase i <;> rw [hphase] at ho hnot
    case raised e =>
      obtain rfl := Option.some.inj ho
      exact ⟨e, rfl, hw.raised hphase⟩
    case revoked u =>
      obtain rfl := Option.some.inj ho
      exact ⟨_, rfl, rfl⟩
    case returned => cases hnot
    all_goals cases ho

end

/-! ### Concrete runs -/

/-- Token `t` is issued, and presented by two rotations. -/
def rotationCalls : SampleCall → RefreshCall
  | .first => .issue "alice"
  | .second | .third => .rotate "t"

/-- One rotation after the other; the second one detects the reuse and revokes the family. -/
def reuseRun : List (RefreshLabel SampleCall) :=
  [.start .first, .insert .first "t", .commit .first,
   .start .second, .start .third,
   .select .second, .update .second, .insert .second "a", .commit .second,
   .select .third, .revoke .third, .revokeRow .third (sampleHash "a"), .commit .third]

/-- `rotate_singleUse` at two rotations one after the other. -/
theorem rotate_singleUse_reuse :
    ∃ s, execWhere (refreshStep sampleHash rotationCalls) (OneRotation sampleHash rotationCalls)
        (RefreshState.initial .empty 0) reuseRun = some s ∧ SingleUse rotationCalls s "t" := by
  have hrun : (execWhere (refreshStep sampleHash rotationCalls)
      (OneRotation sampleHash rotationCalls) (RefreshState.initial .empty 0) reuseRun).isSome =
        true := by decide +kernel
  obtain ⟨s, hs⟩ := Option.isSome_iff_exists.mp hrun
  exact ⟨s, hs, rotate_singleUse (fun _ => rfl) (ReachWhere.start.exec hs) "t"⟩

/-- Both rotations read the live row; the second `UPDATE` comes after the first commit. -/
def overlappingRun : List (RefreshLabel SampleCall) :=
  [.start .first, .insert .first "t", .commit .first,
   .start .second, .start .third, .select .second, .select .third,
   .update .second, .insert .second "a", .commit .second,
   .update .third, .insert .third "b", .commit .third]

/-- **Two successors for one token.** -/
theorem two_successors :
    ∃ s, exec (refreshStep sampleHash rotationCalls) (RefreshState.initial .empty 0)
        overlappingRun = some s ∧ ¬SingleUse rotationCalls s "t" := by
  have hrun : (exec (refreshStep sampleHash rotationCalls) (RefreshState.initial .empty 0)
      overlappingRun).map (fun s => (s.phase .second, s.phase .third)) =
        some (.returned "alice" "a" refreshTokenExpiry, .returned "alice" "b" refreshTokenExpiry) :=
    by decide +kernel
  obtain ⟨s, hs, hphases⟩ := Option.map_eq_some_iff.mp hrun
  obtain ⟨h₁, h₂⟩ := Prod.mk.inj hphases
  refine ⟨s, hs, fun h => ?_⟩
  have hsame : SampleCall.second = .third :=
    h.atMostOne .second .third rfl rfl (by rw [h₁]; rfl) (by rw [h₂]; rfl)
  exact absurd hsame (by decide)

end AuditFlow
