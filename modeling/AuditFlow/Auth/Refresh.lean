import AuditFlow.Foundation.ReadCommitted
import AuditFlow.Foundation.Transition
import AuditFlow.Schemas
import Mathlib.Data.Fintype.Basic

/-!
# Refresh tokens

`auth/refresh.py` over the table `refresh_tokens`: `issue_refresh_token`, `rotate_refresh_token` and
`revoke_all_for_user`, any number of calls at once. Each call runs its SQL statements one by one,
each `with _cursor()` block being one transaction at READ COMMITTED, and every step of a call is a
label of the transition function `refreshStep`.

A rotation reads the token's row, and either raises, or revokes the row, inserts a successor and
commits; for a row that is revoked already it revokes the whole family of the user in a second
transaction, and raises. Newly generated tokens are whatever the label says; `INSERT` only takes
one whose hash is not in use. `RefreshState.family` and `RefreshState.successors` are bookkeeping
for the statements about revocation: the tokens of the user that were committed when a revoking
`UPDATE` started, and which token was rotated into which.

`refreshStep_effect` lists **everything a step can do**, and `Wf` what holds in every reached state.
-/

namespace AuditFlow

open Foundation Foundation.ReadCommitted

/-- A row of `refresh_tokens`, keyed by its token hash. Moments are seconds. -/
structure TokenRow where
  username : String
  issuedAt : ℕ
  expiresAt : ℕ
  revokedAt : Option ℕ := none
  deriving DecidableEq, Repr

/-- `REFRESH_TOKEN_EXPIRY`, seven days. -/
def refreshTokenExpiry : ℕ := 7 * 24 * 60 * 60

/-- The calls of the module. -/
inductive RefreshCall
  | issue (username : String)
  | rotate (rawToken : String)
  | revokeAll (username : String)
  deriving DecidableEq, Repr

/-- The hash of the token that a rotation presents. -/
def RefreshCall.presents (hash : String → String) : RefreshCall → Option String
  | rotate rawToken => some (hash rawToken)
  | _ => none

/-- Where a call stands: after which statement, or how it ended. -/
inductive RefreshPhase
  | idle
  | started (now : ℕ)
  /-- `issue`: inserted, not committed. -/
  | issuing (username rawToken : String) (expiresAt : ℕ)
  /-- `rotate`: the `SELECT` found a live row of the user. -/
  | accepted (now : ℕ) (username : String)
  /-- `rotate`: the old token is revoked, not committed. -/
  | updated (now : ℕ) (username : String)
  /-- `rotate`: the successor is inserted, not committed. -/
  | inserted (username rawToken : String) (expiresAt : ℕ)
  /-- `rotate`: the `SELECT` found a revoked row; the first transaction is over. -/
  | reused (now : ℕ) (username : String)
  /-- The revoking `UPDATE` has the rows `todo` left, or is done and not committed. -/
  | revoking (now : ℕ) (username : String) (todo : List String)
  /-- The revoking `UPDATE` is committed. -/
  | revoked (username : String)
  | returned (username rawToken : String) (expiresAt : ℕ)
  | raised (e : PyError)
  deriving DecidableEq, Repr

namespace RefreshPhase

/-- The user whose token the call is rotating: from the accepting `SELECT` to the commit. -/
def rotating : RefreshPhase → Option String
  | accepted _ u | updated _ u | inserted u _ _ => some u
  | _ => none

/-- The user whose family the call is revoking: from the start of the `UPDATE` to the commit. -/
def revokes : RefreshPhase → Option String
  | revoking _ u _ => some u
  | _ => none

/-- The call has revoked its token, and not committed yet. -/
def hasUpdated : RefreshPhase → Bool
  | updated _ _ | inserted _ _ _ => true
  | _ => false

/-- The call has written something, and not committed yet. -/
def writing : RefreshPhase → Bool
  | issuing _ _ _ | updated _ _ | inserted _ _ _ | revoking _ _ _ => true
  | _ => false

/-- The call returned a token. -/
def hasReturned : RefreshPhase → Bool
  | returned _ _ _ => true
  | _ => false

end RefreshPhase

/-- `AuthenticationError`. -/
def authenticationError (message : String) : PyError :=
  { cls := .authenticationError, message }

/-- How a call ended: it returned a username and a token, or nothing, or raised. A rotation that
has revoked a family raises. -/
def RefreshCall.outcome (call : RefreshCall) :
    RefreshPhase → Option (Except PyError (Option (String × String × ℕ)))
  | .returned username rawToken expiresAt => some (.ok (some (username, rawToken, expiresAt)))
  | .raised e => some (.error e)
  | .revoked _ =>
    match call with
    | .rotate _ => some (.error (authenticationError
        "Refresh token reuse detected; all sessions revoked, please log in again"))
    | _ => some (.ok none)
  | _ => none

/-- The table, the clock and the calls; the last two fields are bookkeeping. -/
structure RefreshState (ι : Type) where
  clock : ℕ
  db : Db ι String TokenRow
  phase : ι → RefreshPhase
  family : ι → List String
  successors : List (String × String)

/-- Nobody has started. -/
def RefreshState.initial {ι : Type} (db : Db ι String TokenRow) (clock : ℕ) : RefreshState ι where
  clock := clock
  db := db
  phase _ := .idle
  family _ := []
  successors := []

inductive RefreshLabel (ι : Type)
  | tick (d : ℕ)
  /-- The call reads the clock. -/
  | start (i : ι)
  | select (i : ι)
  | update (i : ι)
  /-- `INSERT` of a newly generated token. -/
  | insert (i : ι) (rawToken : String)
  /-- The revoking `UPDATE` takes its snapshot. -/
  | revoke (i : ι)
  /-- The revoking `UPDATE` treats one row of its snapshot. -/
  | revokeRow (i : ι) (tokenHash : String)
  | commit (i : ι)
  deriving DecidableEq

/-- `SET revoked_at = now`. -/
def TokenRow.revoke (now : ℕ) (row : TokenRow) : TokenRow := { row with revokedAt := some now }

/-- `username = u AND revoked_at IS NULL`. -/
def TokenRow.isLiveOf (u : String) (row : TokenRow) : Bool :=
  decide (row.username = u) && row.revokedAt.isNone

/-- The row of a new token. -/
def newTokenRow (username : String) (now : ℕ) : TokenRow :=
  { username, issuedAt := now, expiresAt := now + refreshTokenExpiry }

section

variable {ι : Type} [DecidableEq ι]

namespace RefreshState

/-- A call goes on without writing. -/
def move (s : RefreshState ι) (i : ι) (p : RefreshPhase) : RefreshState ι :=
  { s with phase := Function.update s.phase i p }

/-- A call goes on and changes the table. -/
def write (s : RefreshState ι) (i : ι) (p : RefreshPhase) (db : Db ι String TokenRow) :
    RefreshState ι :=
  { s with phase := Function.update s.phase i p, db := db }

/-- A rotation inserts the successor of a token. -/
def succeed (s : RefreshState ι) (i : ι) (p : RefreshPhase) (db : Db ι String TokenRow)
    (old new : String) : RefreshState ι :=
  { s with
    phase := Function.update s.phase i p
    db := db
    successors := s.successors ++ [(old, new)] }

/-- A revoking `UPDATE` starts. -/
def beginRevoke (s : RefreshState ι) (i : ι) (now : ℕ) (u : String) : RefreshState ι :=
  { s with
    phase := Function.update s.phase i (.revoking now u (s.db.matching i (TokenRow.isLiveOf u)))
    family := Function.update s.family i
      (s.db.keys.filter fun k => (s.db.committed k).any fun row => decide (row.username = u)) }

variable (s : RefreshState ι) (i : ι) (p : RefreshPhase) (db : Db ι String TokenRow)

@[simp] theorem move_phase_self : (s.move i p).phase i = p := by
  rw [move]
  exact Function.update_self i p s.phase

@[simp] theorem write_phase_self : (s.write i p db).phase i = p := by
  rw [write]
  exact Function.update_self i p s.phase

@[simp] theorem succeed_phase_self (old new : String) : (s.succeed i p db old new).phase i = p := by
  rw [succeed]
  exact Function.update_self i p s.phase

@[simp] theorem beginRevoke_phase_self (now : ℕ) (u : String) : (s.beginRevoke i now u).phase i =
    .revoking now u (s.db.matching i (TokenRow.isLiveOf u)) := by
  rw [beginRevoke]
  exact Function.update_self i _ s.phase

/-- The family of a revocation: the rows of the user that are committed when it starts. -/
theorem mem_beginRevoke_family {now : ℕ} {u k : String} :
    k ∈ (s.beginRevoke i now u).family i ↔
      ∃ row, s.db.committed k = some row ∧ row.username = u := by
  rw [beginRevoke]
  simp only [Function.update_self, List.mem_filter, Option.any_eq_true, decide_eq_true_eq]
  refine ⟨And.right, fun h => ⟨?_, h⟩⟩
  obtain ⟨row, hrow, -⟩ := h
  exact Db.mem_keys_of_committed hrow

end RefreshState

variable (hash : String → String) (calls : ι → RefreshCall)

/-- One step of one call. -/
def refreshStep (s : RefreshState ι) : RefreshLabel ι → Option (RefreshState ι)
  | .tick d => some { s with clock := s.clock + d }
  | .start i =>
    match s.phase i with
    | .idle => some (s.move i (.started s.clock))
    | _ => none
  | .select i =>
    match calls i, s.phase i with
    | .rotate rawToken, .started now =>
      match s.db.visible i (hash rawToken) with
      | none => some (s.move i (.raised (authenticationError "Invalid refresh token")))
      | some row =>
        -- a revoked token counts as reused, whether it has expired or not
        if row.revokedAt ≠ none then some (s.move i (.reused now row.username))
        else if row.expiresAt < now then
          some (s.move i (.raised
            (authenticationError "Refresh token expired, please log in again")))
        else some (s.move i (.accepted now row.username))
    | _, _ => none
  | .update i =>
    match calls i, s.phase i with
    | .rotate rawToken, .accepted now u =>
      -- `WHERE token_hash = …` only: the re-check takes a row that is revoked meanwhile
      (s.db.update i (hash rawToken) (fun _ => true) (TokenRow.revoke now)).map
        (s.write i (.updated now u))
    | _, _ => none
  | .insert i newToken =>
    match calls i, s.phase i with
    | .issue u, .started now =>
      (s.db.insert i (hash newToken) (newTokenRow u now)).map
        (s.write i (.issuing u newToken (now + refreshTokenExpiry)))
    | .rotate rawToken, .updated now u =>
      (s.db.insert i (hash newToken) (newTokenRow u now)).map fun db =>
        s.succeed i (.inserted u newToken (now + refreshTokenExpiry)) db (hash rawToken)
          (hash newToken)
    | _, _ => none
  | .revoke i =>
    match calls i, s.phase i with
    | .revokeAll u, .started now => some (s.beginRevoke i now u)
    | .rotate _, .reused now u => some (s.beginRevoke i now u)
    | _, _ => none
  | .revokeRow i k =>
    match s.phase i with
    | .revoking now u todo =>
      if k ∈ todo then
        (s.db.update i k (TokenRow.isLiveOf u) (TokenRow.revoke now)).map
          (s.write i (.revoking now u (todo.erase k)))
      else none
    | _ => none
  | .commit i =>
    match s.phase i with
    | .issuing u rawToken expiresAt =>
      some (s.write i (.returned u rawToken expiresAt) (s.db.commit i))
    | .inserted u rawToken expiresAt =>
      some (s.write i (.returned u rawToken expiresAt) (s.db.commit i))
    -- the `UPDATE` has gone through all the rows it saw
    | .revoking _ u [] => some (s.write i (.revoked u) (s.db.commit i))
    | _ => none

/-- The row that the `SELECT` of a rotation accepts: it is there, not revoked and not expired. -/
def RefreshState.acceptedRow (s : RefreshState ι) (i : ι) : Option TokenRow :=
  match calls i, s.phase i with
  | .rotate rawToken, .started now =>
    (s.db.visible i (hash rawToken)).filter fun row =>
      row.revokedAt.isNone && !decide (row.expiresAt < now)
  | _, _ => none

/-! ### What a step can do -/

/-- Everything a step can do, with the state that it leads to. -/
inductive RefreshEffect (s : RefreshState ι) : RefreshLabel ι → RefreshState ι → Prop
  | tick {d : ℕ} : RefreshEffect s (.tick d) { s with clock := s.clock + d }
  | start {i : ι} (hphase : s.phase i = .idle) :
      RefreshEffect s (.start i) (s.move i (.started s.clock))
  | selectInvalid {i : ι} {rawToken : String} {now : ℕ} (hcall : calls i = .rotate rawToken)
      (hphase : s.phase i = .started now) (hrow : s.db.visible i (hash rawToken) = none) :
      RefreshEffect s (.select i)
        (s.move i (.raised (authenticationError "Invalid refresh token")))
  | selectReused {i : ι} {rawToken : String} {now : ℕ} {row : TokenRow}
      (hcall : calls i = .rotate rawToken) (hphase : s.phase i = .started now)
      (hrow : s.db.visible i (hash rawToken) = some row) (hrevoked : row.revokedAt ≠ none) :
      RefreshEffect s (.select i) (s.move i (.reused now row.username))
  | selectExpired {i : ι} {rawToken : String} {now : ℕ} {row : TokenRow}
      (hcall : calls i = .rotate rawToken) (hphase : s.phase i = .started now)
      (hrow : s.db.visible i (hash rawToken) = some row) (hrevoked : row.revokedAt = none)
      (hexpired : row.expiresAt < now) :
      RefreshEffect s (.select i) (s.move i (.raised
        (authenticationError "Refresh token expired, please log in again")))
  | selectAccepted {i : ι} {rawToken : String} {now : ℕ} {row : TokenRow}
      (hcall : calls i = .rotate rawToken) (hphase : s.phase i = .started now)
      (hrow : s.db.visible i (hash rawToken) = some row) (hrevoked : row.revokedAt = none)
      (hexpired : ¬row.expiresAt < now) :
      RefreshEffect s (.select i) (s.move i (.accepted now row.username))
  | update {i : ι} {rawToken u : String} {now : ℕ} {db : Db ι String TokenRow}
      (hcall : calls i = .rotate rawToken) (hphase : s.phase i = .accepted now u)
      (hdb : s.db.update i (hash rawToken) (fun _ => true) (TokenRow.revoke now) = some db) :
      RefreshEffect s (.update i) (s.write i (.updated now u) db)
  | insertIssued {i : ι} {newToken u : String} {now : ℕ} {db : Db ι String TokenRow}
      (hcall : calls i = .issue u) (hphase : s.phase i = .started now)
      (hdb : s.db.insert i (hash newToken) (newTokenRow u now) = some db) :
      RefreshEffect s (.insert i newToken)
        (s.write i (.issuing u newToken (now + refreshTokenExpiry)) db)
  | insertRotated {i : ι} {rawToken newToken u : String} {now : ℕ} {db : Db ι String TokenRow}
      (hcall : calls i = .rotate rawToken) (hphase : s.phase i = .updated now u)
      (hdb : s.db.insert i (hash newToken) (newTokenRow u now) = some db) :
      RefreshEffect s (.insert i newToken)
        (s.succeed i (.inserted u newToken (now + refreshTokenExpiry)) db (hash rawToken)
          (hash newToken))
  | revokeAll {i : ι} {u : String} {now : ℕ} (hcall : calls i = .revokeAll u)
      (hphase : s.phase i = .started now) : RefreshEffect s (.revoke i) (s.beginRevoke i now u)
  | revokeReused {i : ι} {rawToken u : String} {now : ℕ} (hcall : calls i = .rotate rawToken)
      (hphase : s.phase i = .reused now u) : RefreshEffect s (.revoke i) (s.beginRevoke i now u)
  | revokeRow {i : ι} {k u : String} {now : ℕ} {todo : List String} {db : Db ι String TokenRow}
      (hphase : s.phase i = .revoking now u todo) (hmem : k ∈ todo)
      (hdb : s.db.update i k (TokenRow.isLiveOf u) (TokenRow.revoke now) = some db) :
      RefreshEffect s (.revokeRow i k) (s.write i (.revoking now u (todo.erase k)) db)
  | commitIssued {i : ι} {rawToken u : String} {expiresAt : ℕ}
      (hphase : s.phase i = .issuing u rawToken expiresAt) :
      RefreshEffect s (.commit i) (s.write i (.returned u rawToken expiresAt) (s.db.commit i))
  | commitRotated {i : ι} {rawToken u : String} {expiresAt : ℕ}
      (hphase : s.phase i = .inserted u rawToken expiresAt) :
      RefreshEffect s (.commit i) (s.write i (.returned u rawToken expiresAt) (s.db.commit i))
  | commitRevoked {i : ι} {u : String} {now : ℕ} (hphase : s.phase i = .revoking now u []) :
      RefreshEffect s (.commit i) (s.write i (.revoked u) (s.db.commit i))

variable {hash : String → String} {calls : ι → RefreshCall} {s s' : RefreshState ι}
  {l : RefreshLabel ι}

private theorem select_effect {i : ι} (h : refreshStep hash calls s (.select i) = some s') :
    RefreshEffect hash calls s (.select i) s' := by
  simp only [refreshStep] at h
  split at h
  case h_2 => cases h
  case h_1 rawToken now hcall hphase =>
    split at h
    case h_1 hrow =>
      cases h
      exact .selectInvalid hcall hphase hrow
    case h_2 row hrow =>
      split_ifs at h with hrevoked hexpired
      · cases h
        exact .selectReused hcall hphase hrow hrevoked
      · cases h
        exact .selectExpired hcall hphase hrow (not_not.mp hrevoked) hexpired
      · cases h
        exact .selectAccepted hcall hphase hrow (not_not.mp hrevoked) hexpired

private theorem insert_effect {i : ι} {newToken : String}
    (h : refreshStep hash calls s (.insert i newToken) = some s') :
    RefreshEffect hash calls s (.insert i newToken) s' := by
  simp only [refreshStep] at h
  split at h
  · obtain ⟨db, hdb, rfl⟩ := Option.map_eq_some_iff.mp h
    exact .insertIssued ‹_› ‹_› hdb
  · obtain ⟨db, hdb, rfl⟩ := Option.map_eq_some_iff.mp h
    exact .insertRotated ‹_› ‹_› hdb
  · cases h

/-- **Everything a step can do.** -/
theorem refreshStep_effect (h : refreshStep hash calls s l = some s') :
    RefreshEffect hash calls s l s' := by
  cases l with
  | tick d =>
    cases h
    exact .tick
  | start i =>
    simp only [refreshStep] at h
    split at h
    · cases h
      exact .start ‹_›
    · cases h
  | select i => exact select_effect h
  | update i =>
    simp only [refreshStep] at h
    split at h
    · obtain ⟨db, hdb, rfl⟩ := Option.map_eq_some_iff.mp h
      exact .update ‹_› ‹_› hdb
    · cases h
  | insert i newToken => exact insert_effect h
  | revoke i =>
    simp only [refreshStep] at h
    split at h
    · cases h
      exact .revokeAll ‹_› ‹_›
    · cases h
      exact .revokeReused ‹_› ‹_›
    · cases h
  | revokeRow i k =>
    simp only [refreshStep] at h
    split at h
    · split_ifs at h with hmem
      obtain ⟨db, hdb, rfl⟩ := Option.map_eq_some_iff.mp h
      exact .revokeRow ‹_› hmem hdb
    · cases h
  | commit i =>
    simp only [refreshStep] at h
    split at h
    · cases h
      exact .commitIssued ‹_›
    · cases h
      exact .commitRotated ‹_›
    · cases h
      exact .commitRevoked ‹_›
    · cases h

/-! ### Frames -/

/-- The call that takes the step. -/
def RefreshLabel.actor : RefreshLabel ι → Option ι
  | .tick _ => none
  | .start i | .select i | .update i | .insert i _ | .revoke i | .revokeRow i _ | .commit i =>
    some i

/-- A later version of a row belongs to the same user and is revoked. -/
def Revises (v₀ v : TokenRow) : Prop := v.username = v₀.username ∧ v.revokedAt ≠ none

instance : IsTrans TokenRow Revises where
  trans _ _ _ h₁ h₂ := ⟨h₂.1.trans h₁.1, h₂.2⟩

theorem revises_revoke (now : ℕ) (v : TokenRow) : Revises v (v.revoke now) :=
  ⟨rfl, Option.some_ne_none now⟩

namespace RefreshEffect

/-- A step leaves the phases of the other calls alone. -/
theorem phase_of_ne (h : RefreshEffect hash calls s l s') {j : ι} (hne : l.actor ≠ some j) :
    s'.phase j = s.phase j := by
  cases h with
  | tick => rfl
  | _ =>
    have hj : j ≠ _ := fun e => hne (congrArg some e.symm)
    exact Function.update_of_ne hj _ _

/-- A step leaves the families recorded by the other calls alone. -/
theorem family_of_ne (h : RefreshEffect hash calls s l s') {j : ι} (hne : l.actor ≠ some j) :
    s'.family j = s.family j := by
  cases h with
  | @revokeAll i | @revokeReused i =>
    have hj : j ≠ i := fun e => hne (congrArg some e.symm)
    exact Function.update_of_ne hj _ _
  | _ => rfl

/-- A step executes a statement of the call that takes it, or leaves the table alone. -/
theorem db (h : RefreshEffect hash calls s l s') :
    s'.db = s.db ∨ ∃ i, l.actor = some i ∧ Db.Acts Revises i s.db s'.db := by
  cases h with
  | @update i _ _ now _ _ _ hdb | @revokeRow i _ _ now _ _ _ _ hdb =>
    exact Or.inr ⟨i, rfl, .update (revises_revoke now) hdb⟩
  | @insertIssued i _ _ _ _ _ _ hdb | @insertRotated i _ _ _ _ _ _ _ hdb =>
    exact Or.inr ⟨i, rfl, .insert hdb⟩
  | @commitIssued i | @commitRotated i | @commitRevoked i => exact Or.inr ⟨i, rfl, .commit⟩
  | _ => exact Or.inl rfl

theorem along (h : RefreshEffect hash calls s l s') (halong : Db.Along Revises s.db) :
    Db.Along Revises s'.db := by
  rcases h.db with hdb | ⟨i, -, hacts⟩
  · rw [hdb]
    exact halong
  · exact hacts.along halong

/-- Committed rows keep their user, and stay revoked. -/
theorem evolves (h : RefreshEffect hash calls s l s') (halong : Db.Along Revises s.db) :
    Db.Evolves Revises s.db s'.db := by
  rcases h.db with hdb | ⟨i, -, hacts⟩
  · rw [hdb]
    exact Db.evolves_refl _ _
  · exact hacts.evolves halong

/-- What another call has written stays. -/
theorem dirty (h : RefreshEffect hash calls s l s') {k : String} {j : ι} {v : TokenRow}
    (hne : l.actor ≠ some j) (hdirty : s.db.dirty k = some (j, v)) :
    s'.db.dirty k = some (j, v) := by
  rcases h.db with hdb | ⟨i, hactor, hacts⟩
  · rw [hdb]
    exact hdirty
  · refine hacts.keeps.dirty (fun e => hne ?_) hdirty
    rw [hactor, e]

/-- What another call has written was there before. -/
theorem dirty_of_ne (h : RefreshEffect hash calls s l s') {k : String} {j : ι} {v : TokenRow}
    (hne : l.actor ≠ some j) (hdirty : s'.db.dirty k = some (j, v)) :
    s.db.dirty k = some (j, v) := by
  rcases h.db with hdb | ⟨i, hactor, hacts⟩
  · rw [hdb] at hdirty
    exact hdirty
  · refine hacts.dirty_of_ne (fun e => hne ?_) hdirty
    rw [hactor, e]

end RefreshEffect

/-! ### Well-formed states -/

omit [DecidableEq ι] in
theorem RefreshCall.presents_rotate {i : ι} {rawToken : String} (h : calls i = .rotate rawToken) :
    (calls i).presents hash = some (hash rawToken) := by
  rw [h]
  rfl

/-- What holds in every state that is reached from a table without uncommitted rows. -/
structure RefreshState.Wf (hash : String → String) (calls : ι → RefreshCall)
    (s : RefreshState ι) : Prop where
  along : Db.Along Revises s.db
  owners : ∀ {k i row}, s.db.dirty k = some (i, row) → (s.phase i).writing = true
  rotates : ∀ {i u}, (s.phase i).rotating = some u → ∃ rawToken row,
    calls i = .rotate rawToken ∧ s.db.committed (hash rawToken) = some row ∧ row.username = u
  written : ∀ {i rawToken}, calls i = .rotate rawToken → (s.phase i).hasUpdated = true →
    ∃ row, s.db.dirty (hash rawToken) = some (i, row)
  issues : ∀ {i u newToken expiresAt}, s.phase i = .issuing u newToken expiresAt →
    calls i = .issue u
  raised : ∀ {i e}, s.phase i = .raised e → e.cls = .authenticationError

namespace RefreshState

theorem acceptedRow_eq {i : ι} {rawToken : String} {now : ℕ} {row : TokenRow}
    (hcall : calls i = .rotate rawToken) (hphase : s.phase i = .started now)
    (hrow : s.db.visible i (hash rawToken) = some row) (hrevoked : row.revokedAt = none)
    (hexpired : ¬row.expiresAt < now) : s.acceptedRow hash calls i = some row := by
  simp only [acceptedRow, hcall, hphase, hrow, Option.filter_some, hrevoked, hexpired,
    Option.isNone_none, decide_false, Bool.not_false, Bool.and_true, if_true]

omit [DecidableEq ι] in
theorem wf_initial {db₀ : Db ι String TokenRow} (hclean : ∀ k, db₀.dirty k = none) (clock : ℕ) :
    (initial db₀ clock).Wf hash calls where
  along k _ _ _ hdirty _ := by
    rw [initial, hclean k] at hdirty
    cases hdirty
  owners {k _ _} hdirty := by
    rw [initial, hclean k] at hdirty
    cases hdirty
  rotates h := nomatch h
  written _ h := nomatch h
  issues h := nomatch h
  raised h := nomatch h

namespace Wf

/-- A call that has not written sees the committed rows. -/
theorem visible_eq (hw : s.Wf hash calls) {i : ι} (h : (s.phase i).writing = false) (k : String) :
    s.db.visible i k = s.db.committed k := by
  refine Db.visible_of_not_dirty fun v hdirty => ?_
  rw [hw.owners hdirty] at h
  cases h

omit [DecidableEq ι] in
/-- The uncommitted version of a committed row is revoked. -/
theorem dirty_revoked (hw : s.Wf hash calls) {k : String} {i : ι} {row row₀ : TokenRow}
    (hdirty : s.db.dirty k = some (i, row)) (hcommitted : s.db.committed k = some row₀) :
    row.username = row₀.username ∧ row.revokedAt ≠ none := hw.along k i row row₀ hdirty hcommitted

private theorem owners_step (hw : s.Wf hash calls) (h : RefreshEffect hash calls s l s')
    {k : String} {j : ι} {row : TokenRow} (hdirty : s'.db.dirty k = some (j, row)) :
    (s'.phase j).writing = true := by
  by_cases hj : l.actor = some j
  · -- a step of `j` itself: it goes on writing, or it commits
    have hown {k' : String} {row' : TokenRow} (hd : s.db.dirty k' = some (j, row')) :
        (s.phase j).writing = true := hw.owners hd
    cases h with
    | tick => cases hj
    | start hphase | selectInvalid _ hphase | selectReused _ hphase | selectExpired _ hphase
    | selectAccepted _ hphase =>
      cases hj
      have := hown hdirty
      rw [hphase] at this
      cases this
    | update | insertIssued | insertRotated | revokeAll | revokeReused | revokeRow =>
      cases hj
      simp only [write_phase_self, succeed_phase_self, beginRevoke_phase_self,
        RefreshPhase.writing]
    | commitIssued | commitRotated | commitRevoked =>
      cases hj
      exact absurd hdirty (Db.commit_dirty_own _ _ _ _)
  · rw [h.phase_of_ne hj]
    exact hw.owners (h.dirty_of_ne hj hdirty)

/-- A call is rotating a token from the `SELECT` that accepts it on. -/
theorem rotating_step (hw : s.Wf hash calls) (h : RefreshEffect hash calls s l s') {j : ι}
    {u : String} (hrotating : (s'.phase j).rotating = some u) :
    (s.phase j).rotating = some u ∨
      l = .select j ∧ ∃ rawToken row, calls j = .rotate rawToken ∧
        s.db.committed (hash rawToken) = some row ∧ row.username = u ∧ row.revokedAt = none ∧
        s.acceptedRow hash calls j = some row := by
  by_cases hj : l.actor = some j
  · cases h with
    | tick => cases hj
    | @selectAccepted i rawToken now row hcall hphase hrow hrevoked hexpired =>
      cases hj
      have haccepted := acceptedRow_eq hcall hphase hrow hrevoked hexpired
      rw [move_phase_self] at hrotating
      rw [hw.visible_eq (by rw [hphase]; rfl)] at hrow
      exact Or.inr ⟨rfl, rawToken, row, hcall, hrow, Option.some.inj hrotating, hrevoked, haccepted⟩
    | update _ hphase | insertRotated _ hphase =>
      -- the rotation goes on for the user it was accepted for
      cases hj
      simp only [write_phase_self, succeed_phase_self, RefreshPhase.rotating] at hrotating
      rw [hphase]
      exact Or.inl hrotating
    | _ =>
      cases hj
      simp only [move_phase_self, write_phase_self, beginRevoke_phase_self, RefreshPhase.rotating,
        reduceCtorEq] at hrotating
  · rw [h.phase_of_ne hj] at hrotating
    exact Or.inl hrotating

private theorem rotates_step (hw : s.Wf hash calls) (h : RefreshEffect hash calls s l s') {j : ι}
    {u : String} (hrotating : (s'.phase j).rotating = some u) : ∃ rawToken row,
      calls j = .rotate rawToken ∧ s'.db.committed (hash rawToken) = some row ∧
        row.username = u := by
  have hbefore : ∃ rawToken row, calls j = .rotate rawToken ∧
      s.db.committed (hash rawToken) = some row ∧ row.username = u := by
    rcases hw.rotating_step h hrotating with hr | ⟨_, rawToken, row, hcall, hrow, hu, _⟩
    · exact hw.rotates hr
    · exact ⟨rawToken, row, hcall, hrow, hu⟩
  obtain ⟨rawToken, row, hcall, hrow, hu⟩ := hbefore
  obtain ⟨row', hrow', rfl | hrevises⟩ := h.evolves hw.along _ _ hrow
  · exact ⟨rawToken, row', hcall, hrow', hu⟩
  · exact ⟨rawToken, row', hcall, hrow', hrevises.1.trans hu⟩

private theorem written_step (hw : s.Wf hash calls) (h : RefreshEffect hash calls s l s') {j : ι}
    {rawToken : String} (hcall : calls j = .rotate rawToken)
    (hupdated : (s'.phase j).hasUpdated = true) :
    ∃ row, s'.db.dirty (hash rawToken) = some (j, row) := by
  by_cases hj : l.actor = some j
  · cases h with
    | tick => cases hj
    | @update i _ u _ _ hcall' hphase hdb =>
      cases hj
      obtain rfl := RefreshCall.rotate.inj (hcall'.symm.trans hcall)
      -- the row is committed, so the `UPDATE` does find it
      have hrotating : (s.phase j).rotating = some u := by
        rw [hphase]
        rfl
      obtain ⟨_, _, hcall', hrow, -⟩ := hw.rotates hrotating
      obtain rfl := RefreshCall.rotate.inj (hcall'.symm.trans hcall)
      obtain ⟨row, hvisible⟩ := Db.exists_visible (t := j) hrow
      exact ⟨_, Db.update_dirty hdb hvisible rfl⟩
    | @insertRotated i _ _ _ _ _ _ hphase hdb =>
      cases hj
      have hupdated : (s.phase j).hasUpdated = true := by
        rw [hphase]
        rfl
      obtain ⟨row, hrow⟩ := hw.written hcall hupdated
      exact ⟨row, Db.insert_dirty_of_some hdb hrow⟩
    | _ =>
      cases hj
      simp only [move_phase_self, write_phase_self, beginRevoke_phase_self,
        RefreshPhase.hasUpdated, Bool.false_eq_true] at hupdated
  · rw [h.phase_of_ne hj] at hupdated
    obtain ⟨row, hrow⟩ := hw.written hcall hupdated
    exact ⟨row, h.dirty hj hrow⟩

private theorem issues_step (hw : s.Wf hash calls) (h : RefreshEffect hash calls s l s') {j : ι}
    {u newToken : String} {expiresAt : ℕ} (hphase : s'.phase j = .issuing u newToken expiresAt) :
    calls j = .issue u := by
  by_cases hj : l.actor = some j
  · cases h with
    | tick => cases hj
    | insertIssued hcall =>
      cases hj
      rw [write_phase_self] at hphase
      obtain ⟨rfl, -, -⟩ := RefreshPhase.issuing.inj hphase
      exact hcall
    | _ =>
      cases hj
      simp only [move_phase_self, write_phase_self, succeed_phase_self, beginRevoke_phase_self,
        reduceCtorEq] at hphase
  · rw [h.phase_of_ne hj] at hphase
    exact hw.issues hphase

private theorem raised_step (hw : s.Wf hash calls) (h : RefreshEffect hash calls s l s') {j : ι}
    {e : PyError} (hphase : s'.phase j = .raised e) : e.cls = .authenticationError := by
  by_cases hj : l.actor = some j
  · cases h with
    | tick => cases hj
    | selectInvalid | selectExpired =>
      cases hj
      rw [move_phase_self] at hphase
      obtain rfl := RefreshPhase.raised.inj hphase
      rfl
    | _ =>
      cases hj
      simp only [move_phase_self, write_phase_self, succeed_phase_self, beginRevoke_phase_self,
        reduceCtorEq] at hphase
  · rw [h.phase_of_ne hj] at hphase
    exact hw.raised hphase

/-- A rotation returns by its commit. -/
theorem hasReturned_step (hw : s.Wf hash calls) (h : RefreshEffect hash calls s l s') {j : ι}
    {k : String} (hk : (calls j).presents hash = some k)
    (hreturned : (s'.phase j).hasReturned = true) :
    (s.phase j).hasReturned = true ∨
      (∃ u, (s.phase j).rotating = some u) ∧ (s.phase j).hasUpdated = true ∧
        s'.db = s.db.commit j := by
  by_cases hj : l.actor = some j
  · cases h with
    | tick => cases hj
    | commitIssued hphase =>
      -- an issued token is not presented by the call that issues it
      cases hj
      rw [hw.issues hphase] at hk
      cases hk
    | @commitRotated i t u e hphase =>
      cases hj
      refine Or.inr ⟨⟨u, ?_⟩, ?_, rfl⟩
      · rw [hphase]
        rfl
      · rw [hphase]
        rfl
    | _ =>
      cases hj
      simp only [move_phase_self, write_phase_self, succeed_phase_self, beginRevoke_phase_self,
        RefreshPhase.hasReturned, Bool.false_eq_true] at hreturned
  · rw [h.phase_of_ne hj] at hreturned
    exact Or.inl hreturned

/-- Every step keeps states well-formed. -/
theorem step (hw : s.Wf hash calls) (h : RefreshEffect hash calls s l s') : s'.Wf hash calls where
  along := h.along hw.along
  owners := hw.owners_step h
  rotates := hw.rotates_step h
  written := hw.written_step h
  issues := hw.issues_step h
  raised := hw.raised_step h

end Wf

/-- Reached states are well-formed. -/
theorem wf_of_reach {db₀ : Db ι String TokenRow} {clock : ℕ} (hclean : ∀ k, db₀.dirty k = none)
    (h : Reach (refreshStep hash calls) (initial db₀ clock) s) : s.Wf hash calls :=
  h.invariant (wf_initial hclean clock) fun _ _ _ hw _ hstep => hw.step (refreshStep_effect hstep)

end RefreshState

end

/-! ### Sample data -/

/-- The calls of a sample run. -/
inductive SampleCall
  | first
  | second
  | third
  deriving DecidableEq

instance : Fintype SampleCall where
  elems := {.first, .second, .third}
  complete i := by cases i <;> decide

/-- The SHA-256 digests of three tokens. -/
def sampleDigests : List (String × String) :=
  [("t", "e3b98a4da31a127d4bde6e43033f66ba274cab0eb7eb1c70ec41402bf6273dd8"),
   ("a", "ca978112ca1bbdcafac231b39a23dc4da786eff8147c4e72b9807785afee48bb"),
   ("b", "3e23e8160039594a33894f6564e1b1348bbd7a0088d42c4acb73eeaed59c009d")]

/-- `_hash` on the sample tokens. -/
def sampleHash (rawToken : String) : String := (sampleDigests.lookup rawToken).getD rawToken

end AuditFlow
