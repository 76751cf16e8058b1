import AuditFlow.Auth.Refresh
import AuditFlow.Foundation.Dict
import AuditFlow.Foundation.Exc

/-!
# Rotation accounting

`auth/refresh.py` in sequential use: every call runs to its end before the next one starts, so that
each is one function on the table `refresh_tokens`. A `with _cursor()` block commits if it returns
and is rolled back if it raises (`cursor`); tokens are drawn from a generator.

The purpose of the module is a balance. **Every user has as many live tokens as there were logins
since their family was last revoked** (`balanced_authRun`): a rotation revokes one token and issues
one, a login adds one, and a revocation, by logout or by the reuse of a revoked token, takes all.
`rotate_of_revoked`, `rotate_of_unknown` and `rotate_of_expired` say what presenting a dead token
does, and `rotation_accounting` is all of this for **every sequence of calls**.
-/

namespace AuditFlow

open Foundation

/-- The table, the clock, and how many tokens have been generated. -/
structure AuthState where
  clock : ℕ
  table : Dict String TokenRow
  generated : ℕ

namespace AuthState

/-- The state with another table. -/
def withTable (s : AuthState) (table : Dict String TokenRow) : AuthState := { s with table }

/-- `WHERE username = u AND revoked_at IS NULL`, all of them revoked. -/
def revokeFamily (s : AuthState) (now : ℕ) (u : String) : AuthState :=
  s.withTable (s.table.updateWhere (fun _ row => row.isLiveOf u) (TokenRow.revoke now))

/-- `WHERE token_hash = …`, revoked. -/
def revokeToken (s : AuthState) (now : ℕ) (tokenHash : String) : AuthState :=
  s.withTable (s.table.updateWhere (fun k _ => decide (k = tokenHash)) (TokenRow.revoke now))

/-- `INSERT`; the column `token_hash` is unique. -/
def insertRow (s : AuthState) (tokenHash : String) (row : TokenRow) : Except PyError AuthState :=
  if s.table.contains tokenHash then .error {
    cls := .ingestionError
    message := "Postgres query failed"
    detail := [("pg_error", "duplicate key value violates unique constraint")] }
  else .ok (s.withTable (s.table.set tokenHash row))

/-- How many rows of a user are not revoked. -/
def unrevoked (s : AuthState) (u : String) : ℕ := s.table.countValues (TokenRow.isLiveOf u)

end AuthState

/-- `with document_store._cursor()`: a raise rolls the table back. -/
def cursor {α : Type} (x : Exc PyError AuthState α) : Exc PyError AuthState α := fun s =>
  match x s with
  | (.ok a, s') => (.ok a, s')
  | (.error e, s') => (.error e, s'.withTable s.table)

section

variable (hash : String → String) (fresh : ℕ → String)

/-- `generate_refresh_token`. -/
def generateRefreshToken : Exc PyError AuthState String := fun s =>
  (.ok (fresh s.generated), { s with generated := s.generated + 1 })

/-- The `INSERT` of a new token. -/
def insertToken (username rawToken : String) (now : ℕ) : Exc PyError AuthState Unit :=
  Exc.modifyExcept fun s => s.insertRow (hash rawToken) (newTokenRow username now)

/-- `issue_refresh_token`. -/
def issueRefreshToken (username : String) : Exc PyError AuthState (String × ℕ) := do
  let rawToken ← generateRefreshToken fresh
  let now ← Exc.reads AuthState.clock
  cursor (insertToken hash username rawToken now)
  return (rawToken, now + refreshTokenExpiry)

/-- What the first transaction of a rotation finds. -/
inductive Checked
  | reuseDetected (username : String)
  | rotated (username newRawToken : String)

/-- The first transaction of `rotate_refresh_token`. -/
def checkAndRotate (rawToken : String) (now : ℕ) : Exc PyError AuthState Checked := do
  match ← Exc.reads fun s => s.table.get? (hash rawToken) with
  | none => Exc.raise (authenticationError "Invalid refresh token")
  | some row =>
    -- a revoked token counts as reused, whether it has expired or not
    if row.revokedAt ≠ none then return .reuseDetected row.username
    else if row.expiresAt < now then
      Exc.raise (authenticationError "Refresh token expired, please log in again")
    else
      Exc.modify fun s => s.revokeToken now (hash rawToken)
      let newRawToken ← generateRefreshToken fresh
      insertToken hash row.username newRawToken now
      return .rotated row.username newRawToken

/-- `rotate_refresh_token`. -/
def rotateRefreshToken (rawToken : String) : Exc PyError AuthState (String × String × ℕ) := do
  let now ← Exc.reads AuthState.clock
  match ← cursor (checkAndRotate hash fresh rawToken now) with
  | .reuseDetected username =>
    -- a transaction of its own, committed before the raise
    cursor (Exc.modify fun s => s.revokeFamily now username)
    Exc.raise (authenticationError
      "Refresh token reuse detected; all sessions revoked, please log in again")
  | .rotated username newRawToken => return (username, newRawToken, now + refreshTokenExpiry)

/-- `revoke_all_for_user`. -/
def revokeAllForUser (username : String) : Exc PyError AuthState Unit := do
  let now ← Exc.reads AuthState.clock
  cursor (Exc.modify fun s => s.revokeFamily now username)

end

/-! ### Sequences of calls -/

/-- A call, or time that passes. -/
inductive AuthLabel
  | tick (d : ℕ)
  | call (call : RefreshCall)
  deriving DecidableEq

/-- What a call means for the families. -/
inductive FamilyEvent
  | issued (username : String)
  | familyRevoked (username : String)
  deriving DecidableEq, Repr

/-- The number of `issue_refresh_token` calls for `u` since the last revocation of `u`'s family; the
latest event comes first. -/
def issuesSinceRevocation (u : String) : List FamilyEvent → ℕ
  | [] => 0
  | .issued v :: log => issuesSinceRevocation u log + if v = u then 1 else 0
  | .familyRevoked v :: log => if v = u then 0 else issuesSinceRevocation u log

/-- The state, and what happened to the families, latest first. -/
structure AuthRun where
  state : AuthState
  log : List FamilyEvent := []

section

variable (hash : String → String) (fresh : ℕ → String)

/-- The event of a call that is made in the state `s`: a login, or the revocation of a family, by
logout or because a token is presented that is revoked already. -/
def familyEvent (s : AuthState) : RefreshCall → Option FamilyEvent
  | .issue u => some (.issued u)
  | .revokeAll u => some (.familyRevoked u)
  | .rotate rawToken =>
    match s.table.get? (hash rawToken) with
    | some row => if row.revokedAt ≠ none then some (.familyRevoked row.username) else none
    | none => none

/-- The state after a call. -/
def afterCall (s : AuthState) : RefreshCall → AuthState
  | .issue u => (issueRefreshToken hash fresh u s).2
  | .rotate rawToken => (rotateRefreshToken hash fresh rawToken s).2
  | .revokeAll u => (revokeAllForUser u s).2

/-- One label of a sequence. -/
def authStep (r : AuthRun) : AuthLabel → AuthRun
  | .tick d => { r with state := { r.state with clock := r.state.clock + d } }
  | .call call =>
    { state := afterCall hash fresh r.state call
      log := (familyEvent hash r.state call).toList ++ r.log }

/-- A sequence of calls, from an empty table. -/
def authRun (labels : List AuthLabel) : AuthRun :=
  labels.foldl (authStep hash fresh) { state := { clock := 0, table := .empty, generated := 0 } }

end

/-! ### What a call does -/

section

variable {hash : String → String} {fresh : ℕ → String} {s s' : AuthState} {u rawToken : String}
  {row : TokenRow}

theorem cursor_of_ok {α : Type} {x : Exc PyError AuthState α} {a : α} (h : x s = (.ok a, s')) :
    cursor x s = (.ok a, s') := by
  rw [cursor, h]

theorem cursor_of_error {α : Type} {x : Exc PyError AuthState α} {e : PyError}
    (h : x s = (.error e, s')) : cursor x s = (.error e, s'.withTable s.table) := by
  rw [cursor, h]

/-- A login adds the row of the token that it generates. -/
theorem issueRefreshToken_eq (h : hash (fresh s.generated) ∉ s.table.keys) :
    issueRefreshToken hash fresh u s = (.ok (fresh s.generated, s.clock + refreshTokenExpiry),
      { s with
        table := s.table.set (hash (fresh s.generated)) (newTokenRow u s.clock)
        generated := s.generated + 1 }) := by
  have hfree : s.table.contains (hash (fresh s.generated)) ≠ true := by
    rw [Ne, Dict.contains_iff, ← Dict.mem_keys_iff]
    exact h
  have hinsert : insertToken hash u (fresh s.generated) s.clock
      { s with generated := s.generated + 1 } = (.ok (), { s with
        table := s.table.set (hash (fresh s.generated)) (newTokenRow u s.clock)
        generated := s.generated + 1 }) :=
    Exc.modifyExcept_of_ok (if_neg hfree)
  exact Exc.bind_of_ok (cursor_of_ok hinsert)

/-- A rotation whose check raises has no effect. -/
private theorem rotate_of_check_error {e : PyError}
    (h : checkAndRotate hash fresh rawToken s.clock s = (.error e, s)) :
    rotateRefreshToken hash fresh rawToken s = (.error e, s) :=
  (Exc.bind_of_ok rfl).trans (Exc.bind_of_error (cursor_of_error h))

/-- An unknown token is rejected, and nothing changes. -/
theorem rotate_of_unknown (h : s.table.get? (hash rawToken) = none) :
    rotateRefreshToken hash fresh rawToken s =
      (.error (authenticationError "Invalid refresh token"), s) := by
  have hcheck : checkAndRotate hash fresh rawToken s.clock s =
      (.error (authenticationError "Invalid refresh token"), s) := by
    simp only [checkAndRotate, Exc.bind_apply, Exc.reads_apply, h, Exc.raise_apply]
  exact rotate_of_check_error hcheck

/-- An expired token is rejected, and nothing changes. -/
theorem rotate_of_expired (h : s.table.get? (hash rawToken) = some row)
    (hlive : row.revokedAt = none) (hexpired : row.expiresAt < s.clock) :
    rotateRefreshToken hash fresh rawToken s =
      (.error (authenticationError "Refresh token expired, please log in again"), s) := by
  have hcheck : checkAndRotate hash fresh rawToken s.clock s =
      (.error (authenticationError "Refresh token expired, please log in again"), s) := by
    simp only [checkAndRotate, Exc.bind_apply, Exc.reads_apply, h, hlive, ne_eq, not_true_eq_false,
      if_false, hexpired, if_true, Exc.raise_apply]
  exact rotate_of_check_error hcheck

/-- A revoked token is rejected, and the family of its owner is revoked all the same. -/
theorem rotate_of_revoked (h : s.table.get? (hash rawToken) = some row)
    (hrevoked : row.revokedAt ≠ none) :
    rotateRefreshToken hash fresh rawToken s =
      (.error (authenticationError
        "Refresh token reuse detected; all sessions revoked, please log in again"),
        s.revokeFamily s.clock row.username) := by
  have hcheck : checkAndRotate hash fresh rawToken s.clock s =
      (.ok (.reuseDetected row.username), s) := by
    simp only [checkAndRotate, Exc.bind_apply, Exc.reads_apply, h, hrevoked, ne_eq,
      not_false_eq_true, if_true, Exc.pure_apply]
  exact Exc.bind_of_ok (cursor_of_ok hcheck)

/-- A live token is revoked, and a new one is issued to its owner. -/
theorem rotate_of_live (h : s.table.get? (hash rawToken) = some row)
    (hlive : row.revokedAt = none) (hunexpired : ¬row.expiresAt < s.clock)
    (hfresh : hash (fresh s.generated) ∉ s.table.keys) :
    rotateRefreshToken hash fresh rawToken s =
      (.ok (row.username, fresh s.generated, s.clock + refreshTokenExpiry),
        { s with
          table := (s.revokeToken s.clock (hash rawToken)).table.set (hash (fresh s.generated))
            (newTokenRow row.username s.clock)
          generated := s.generated + 1 }) := by
  have hfree : (s.revokeToken s.clock (hash rawToken)).table.contains
      (hash (fresh s.generated)) ≠ true := by
    rw [Ne, Dict.contains_iff, ← Dict.mem_keys_iff, AuthState.revokeToken, AuthState.withTable,
      Dict.keys_updateWhere]
    exact hfresh
  have hinsert : insertToken hash row.username (fresh s.generated) s.clock
      { s.revokeToken s.clock (hash rawToken) with generated := s.generated + 1 } =
        (.ok (), { s with
          table := (s.revokeToken s.clock (hash rawToken)).table.set (hash (fresh s.generated))
            (newTokenRow row.username s.clock)
          generated := s.generated + 1 }) :=
    Exc.modifyExcept_of_ok (if_neg hfree)
  have hcheck : checkAndRotate hash fresh rawToken s.clock s =
      (.ok (.rotated row.username (fresh s.generated)), { s with
        table := (s.revokeToken s.clock (hash rawToken)).table.set (hash (fresh s.generated))
          (newTokenRow row.username s.clock)
        generated := s.generated + 1 }) := by
    simp only [checkAndRotate, Exc.bind_apply, Exc.reads_apply, h, hlive, ne_eq, not_true_eq_false,
      if_false, hunexpired]
    exact Exc.bind_of_ok hinsert
  exact Exc.bind_of_ok (cursor_of_ok hcheck)

/-! ### What is revoked stays revoked -/

/-- Every revoked row is still there, and revoked. -/
def KeepsRevoked (s s' : AuthState) : Prop :=
  ∀ k row, s.table.get? k = some row → row.revokedAt ≠ none →
    ∃ row', s'.table.get? k = some row' ∧ row'.username = row.username ∧ row'.revokedAt ≠ none

instance : IsPreorder AuthState KeepsRevoked where
  refl _ _ row hrow hrevoked := ⟨row, hrow, rfl, hrevoked⟩
  trans := by
    intro s₁ s₂ s₃ h h' k row hrow hrevoked
    obtain ⟨row₂, hrow₂, hname₂, hrevoked₂⟩ := h k row hrow hrevoked
    obtain ⟨row₃, hrow₃, hname₃, hrevoked₃⟩ := h' k row₂ hrow₂ hrevoked₂
    exact ⟨row₃, hrow₃, hname₃.trans hname₂, hrevoked₃⟩

/-- Revoking rows only adds to what is revoked. -/
private theorem keepsRevoked_updateWhere (s : AuthState) (p : String → TokenRow → Bool) (now : ℕ) :
    KeepsRevoked s (s.withTable (s.table.updateWhere p (TokenRow.revoke now))) := by
  intro k row hrow hrevoked
  refine ⟨if p k row then row.revoke now else row, ?_, ?_, ?_⟩
  · rw [AuthState.withTable, Dict.get?_updateWhere, hrow]
    rfl
  · split_ifs
    · rfl
    · rfl
  · split_ifs
    · exact Option.some_ne_none now
    · exact hrevoked

/-- A rollback restores the rows. -/
theorem cursor_keepsRevoked {α : Type} {x : Exc PyError AuthState α}
    (h : Exc.Moves KeepsRevoked x) : Exc.Moves KeepsRevoked (cursor x) := by
  intro s
  have hs := h s
  rw [cursor]
  rcases hx : x s with ⟨e | a, s'⟩
  · exact fun k row hrow hrevoked => ⟨row, hrow, rfl, hrevoked⟩
  · rwa [hx] at hs

theorem generateRefreshToken_keepsRevoked :
    Exc.Moves KeepsRevoked (generateRefreshToken fresh) :=
  fun _ _ row hrow hrevoked => ⟨row, hrow, rfl, hrevoked⟩

theorem insertToken_keepsRevoked {now : ℕ} :
    Exc.Moves KeepsRevoked (insertToken hash u rawToken now) := by
  intro s k row hrow hrevoked
  refine ⟨row, ?_, rfl, hrevoked⟩
  rw [insertToken, Exc.modifyExcept, AuthState.insertRow]
  split_ifs with hcontains
  · exact hrow
  · -- the new row has a key of its own
    have hne : k ≠ hash rawToken := by
      rintro rfl
      exact hcontains (Dict.contains_iff.mpr ⟨row, hrow⟩)
    dsimp only
    rw [AuthState.withTable, Dict.get?_set, if_neg hne]
    exact hrow

theorem reads_keepsRevoked {α : Type} {f : AuthState → α} :
    Exc.Moves KeepsRevoked (Exc.reads f : Exc PyError AuthState α) :=
  fun _ _ row hrow hrevoked => ⟨row, hrow, rfl, hrevoked⟩

theorem rotateRefreshToken_keepsRevoked :
    Exc.Moves KeepsRevoked (rotateRefreshToken hash fresh rawToken) := by
  unfold rotateRefreshToken
  refine reads_keepsRevoked.bind fun now =>
    Exc.Moves.bind (cursor_keepsRevoked ?_) fun checked => ?_
  · unfold checkAndRotate
    refine reads_keepsRevoked.bind fun found => ?_
    cases found with
    | none => exact Exc.moves_raise _
    | some row =>
      dsimp only
      split_ifs
      · exact Exc.moves_pure _
      · exact Exc.moves_raise _
      · refine Exc.Moves.bind (fun s => keepsRevoked_updateWhere s _ now) fun _ => ?_
        refine generateRefreshToken_keepsRevoked.bind fun newRawToken => ?_
        exact insertToken_keepsRevoked.bind fun _ => Exc.moves_pure _
  · cases checked with
    | reuseDetected username =>
      refine Exc.Moves.bind (cursor_keepsRevoked ?_) fun _ => Exc.moves_raise _
      exact fun s => keepsRevoked_updateWhere s _ now
    | rotated username newRawToken => exact Exc.moves_pure _

theorem afterCall_keepsRevoked (call : RefreshCall) :
    KeepsRevoked s (afterCall hash fresh s call) := by
  cases call with
  | issue u =>
    have hissue : Exc.Moves KeepsRevoked (issueRefreshToken hash fresh u) :=
      generateRefreshToken_keepsRevoked.bind fun rawToken => reads_keepsRevoked.bind fun now =>
        (cursor_keepsRevoked insertToken_keepsRevoked).bind fun _ => Exc.moves_pure _
    exact hissue s
  | rotate rawToken => exact rotateRefreshToken_keepsRevoked s
  | revokeAll u => exact keepsRevoked_updateWhere s _ s.clock

/-! ### How many tokens are generated -/

/-- The `INSERT` generates nothing. -/
private theorem insertToken_generated {now : ℕ} :
    (insertToken hash u rawToken now s).2.generated = s.generated := by
  rw [insertToken, Exc.modifyExcept, AuthState.insertRow]
  split_ifs
  · rfl
  · rfl

private theorem cursor_generated {α : Type} {x : Exc PyError AuthState α} :
    (cursor x s).2.generated = (x s).2.generated := by
  rw [cursor]
  rcases x s with ⟨e | a, s'⟩
  · rfl
  · rfl

theorem issueRefreshToken_generated :
    (issueRefreshToken hash fresh u s).2.generated = s.generated + 1 := by
  have hcursor : (cursor (insertToken hash u (fresh s.generated) s.clock)
      { s with generated := s.generated + 1 }).2.generated = s.generated + 1 := by
    rw [cursor_generated, insertToken_generated]
  have hissue : (issueRefreshToken hash fresh u s).2 = (cursor (insertToken hash u
      (fresh s.generated) s.clock) { s with generated := s.generated + 1 }).2 := by
    simp only [issueRefreshToken, Exc.bind_apply, generateRefreshToken, Exc.reads_apply]
    rcases cursor (insertToken hash u (fresh s.generated) s.clock)
      { s with generated := s.generated + 1 } with ⟨e | a, s'⟩
    · rfl
    · rfl
  rw [hissue, hcursor]

/-- The rotation of a live token generates its successor, whether or not it can be inserted. -/
theorem rotate_generated_of_live (h : s.table.get? (hash rawToken) = some row)
    (hlive : row.revokedAt = none) (hunexpired : ¬row.expiresAt < s.clock) :
    (rotateRefreshToken hash fresh rawToken s).2.generated = s.generated + 1 := by
  have hinsert : (insertToken hash row.username (fresh s.generated) s.clock
      { s.revokeToken s.clock (hash rawToken) with generated := s.generated + 1 }).2.generated =
        s.generated + 1 := insertToken_generated
  have hcheck : checkAndRotate hash fresh rawToken s.clock s =
      (insertToken hash row.username (fresh s.generated) s.clock >>= fun _ =>
        pure (.rotated row.username (fresh s.generated)))
          { s.revokeToken s.clock (hash rawToken) with generated := s.generated + 1 } := by
    simp only [checkAndRotate, Exc.bind_apply, Exc.reads_apply, h, hlive, ne_eq, not_true_eq_false,
      if_false, hunexpired, Exc.modify_apply, generateRefreshToken]
    rfl
  rcases hrun : insertToken hash row.username (fresh s.generated) s.clock
      { s.revokeToken s.clock (hash rawToken) with generated := s.generated + 1 } with
    ⟨e | a, s'⟩
  · rw [hrun] at hinsert
    have herror := hcheck.trans (Exc.bind_of_error hrun)
    have hrotate : rotateRefreshToken hash fresh rawToken s = (.error e, s'.withTable s.table) :=
      (Exc.bind_of_ok rfl).trans (Exc.bind_of_error (cursor_of_error herror))
    rw [hrotate]
    exact hinsert
  · rw [hrun] at hinsert
    have hok := hcheck.trans (Exc.bind_of_ok hrun)
    have hrotate : rotateRefreshToken hash fresh rawToken s =
        (.ok (row.username, fresh s.generated, s.clock + refreshTokenExpiry), s') :=
      Exc.bind_of_ok (cursor_of_ok hok)
    rw [hrotate]
    exact hinsert

end

/-! ### The balance -/

section

variable {hash : String → String} {fresh : ℕ → String} {r : AuthRun} {labels : List AuthLabel}

/-- The first `n` generated tokens have different hashes. -/
def DistinctUpTo (hash : String → String) (fresh : ℕ → String) (n : ℕ) : Prop :=
  ∀ i < n, ∀ j < n, hash (fresh i) = hash (fresh j) → i = j

/-- **The balance**: a user has as many live tokens as logins since the family was last revoked. -/
structure Balanced (hash : String → String) (fresh : ℕ → String) (r : AuthRun) : Prop where
  balance : ∀ u, r.state.unrevoked u = issuesSinceRevocation u r.log
  drawn : ∀ k ∈ r.state.table.keys, ∃ i < r.state.generated, k = hash (fresh i)

/-- A newly generated token has a new hash. -/
private theorem Balanced.fresh_notMem (hb : Balanced hash fresh r)
    (hdistinct : DistinctUpTo hash fresh (r.state.generated + 1)) :
    hash (fresh r.state.generated) ∉ r.state.table.keys := by
  intro hmem
  obtain ⟨i, hi, hsame⟩ := hb.drawn _ hmem
  have heq := hdistinct _ (Nat.lt_succ_self _) i (by omega) hsame
  omega

private theorem isLiveOf_newTokenRow (u v : String) (now : ℕ) :
    (newTokenRow v now).isLiveOf u = decide (v = u) := Bool.and_true _

private theorem isLiveOf_revoke (u : String) (now : ℕ) (row : TokenRow) :
    (row.revoke now).isLiveOf u = false := Bool.and_false _

/-- A family that is revoked has no live row, and the others keep theirs. -/
theorem unrevoked_revokeFamily (s : AuthState) (now : ℕ) (u v : String) :
    (s.revokeFamily now v).unrevoked u = if v = u then 0 else s.unrevoked u := by
  split_ifs with hv
  · rw [hv, AuthState.unrevoked, Dict.countValues_eq_zero_iff]
    intro k row hrow
    rw [AuthState.revokeFamily, AuthState.withTable, Dict.get?_updateWhere] at hrow
    obtain ⟨row₀, -, rfl⟩ := Option.map_eq_some_iff.mp hrow
    split_ifs with hlive
    · exact isLiveOf_revoke u now row₀
    · exact Bool.eq_false_of_not_eq_true hlive
  · refine Dict.countValues_updateWhere_of_keeps fun e _ hlive => ?_
    -- a live row of `v` is not one of `u`, before or after
    have hname : e.2.username = v := of_decide_eq_true (Bool.and_eq_true_iff.mp hlive).1
    have hother : e.2.isLiveOf u = false := by
      rw [TokenRow.isLiveOf, hname, decide_eq_false hv, Bool.false_and]
    rw [isLiveOf_revoke, hother]

private theorem keys_revokeFamily (s : AuthState) (now : ℕ) (u : String) :
    (s.revokeFamily now u).table.keys = s.table.keys := Dict.keys_updateWhere _ _ _

/-- A rotation revokes one live row of the owner and adds one. -/
private theorem unrevoked_rotated {s : AuthState} {k k' : String} {row : TokenRow} {now : ℕ}
    (hget : s.table.get? k = some row) (hlive : row.revokedAt = none) (hfree : k' ∉ s.table.keys)
    (u : String) : ((s.revokeToken now k).table.set k' (newTokenRow row.username now)).countValues
      (TokenRow.isLiveOf u) = s.unrevoked u := by
  have hnew : k' ∉ (s.revokeToken now k).table.keys := by
    rw [AuthState.revokeToken, AuthState.withTable, Dict.keys_updateWhere]
    exact hfree
  rw [Dict.countValues_set hnew, isLiveOf_newTokenRow]
  rcases eq_or_ne row.username u with hu | hne
  · have hbefore : row.isLiveOf u = true := by
      rw [TokenRow.isLiveOf, decide_eq_true hu, hlive]
      rfl
    have hone := Dict.countValues_updateWhere_key hget hbefore (isLiveOf_revoke u now row)
    rw [decide_eq_true hu, if_pos rfl]
    exact hone
  · rw [decide_eq_false hne, if_neg Bool.false_ne_true, Nat.add_zero]
    refine Dict.countValues_updateWhere_of_keeps fun e he hkey => ?_
    -- the revoked row is the one found, which belongs to another user
    have hsame : row = e.2 := by
      have hentry : s.table.get? e.1 = some e.2 := Dict.mem_entries_iff.mp he
      rw [of_decide_eq_true hkey, hget] at hentry
      exact Option.some.inj hentry
    have hother : row.isLiveOf u = false := by
      rw [TokenRow.isLiveOf, decide_eq_false hne, Bool.false_and]
    rw [← hsame, isLiveOf_revoke, hother]

private theorem Balanced.issue (hb : Balanced hash fresh r) {u : String}
    (hdistinct : DistinctUpTo hash fresh (issueRefreshToken hash fresh u r.state).2.generated) :
    Balanced hash fresh
      ⟨(issueRefreshToken hash fresh u r.state).2, .issued u :: r.log⟩ := by
  rw [issueRefreshToken_generated] at hdistinct
  have hfree := hb.fresh_notMem hdistinct
  rw [issueRefreshToken_eq hfree]
  constructor
  · intro v
    change Dict.countValues _ _ = issuesSinceRevocation v r.log + if u = v then 1 else 0
    rw [Dict.countValues_set hfree, isLiveOf_newTokenRow, ← hb.balance v]
    rcases eq_or_ne u v with huv | hne
    · rw [decide_eq_true huv, if_pos rfl, if_pos huv]
      rfl
    · rw [decide_eq_false hne, if_neg Bool.false_ne_true, if_neg hne]
      rfl
  · intro k hk
    rw [Dict.keys_set, if_neg hfree, List.mem_append, List.mem_singleton] at hk
    rcases hk with hold | hnew
    · obtain ⟨i, hi, hkey⟩ := hb.drawn k hold
      exact ⟨i, Nat.lt_succ_of_lt hi, hkey⟩
    · exact ⟨r.state.generated, Nat.lt_succ_self _, hnew⟩

private theorem Balanced.revokeFamily (hb : Balanced hash fresh r) (u : String) :
    Balanced hash fresh
      ⟨r.state.revokeFamily r.state.clock u, .familyRevoked u :: r.log⟩ := by
  constructor
  · intro v
    rw [unrevoked_revokeFamily, issuesSinceRevocation, hb.balance v]
  · intro k hk
    rw [keys_revokeFamily] at hk
    exact hb.drawn k hk

private theorem Balanced.rotate (hb : Balanced hash fresh r) {rawToken : String}
    (hdistinct : DistinctUpTo hash fresh
      (rotateRefreshToken hash fresh rawToken r.state).2.generated) :
    Balanced hash fresh ⟨(rotateRefreshToken hash fresh rawToken r.state).2,
      (familyEvent hash r.state (.rotate rawToken)).toList ++ r.log⟩ := by
  rw [familyEvent]
  rcases hrow : r.state.table.get? (hash rawToken) with - | row
  · rw [rotate_of_unknown hrow]
    exact hb
  · dsimp only
    by_cases hrevoked : row.revokedAt = none
    · rw [if_neg (not_not.mpr hrevoked)]
      by_cases hexpired : row.expiresAt < r.state.clock
      · rw [rotate_of_expired hrow hrevoked hexpired]
        exact hb
      · rw [rotate_generated_of_live hrow hrevoked hexpired] at hdistinct
        have hfree := hb.fresh_notMem hdistinct
        rw [rotate_of_live hrow hrevoked hexpired hfree]
        constructor
        · intro v
          exact (unrevoked_rotated hrow hrevoked hfree v).trans (hb.balance v)
        · intro k hk
          rw [Dict.keys_set, AuthState.revokeToken, AuthState.withTable, Dict.keys_updateWhere,
            if_neg hfree, List.mem_append, List.mem_singleton] at hk
          rcases hk with hold | hnew
          · obtain ⟨i, hi, hkey⟩ := hb.drawn k hold
            exact ⟨i, Nat.lt_succ_of_lt hi, hkey⟩
          · exact ⟨r.state.generated, Nat.lt_succ_self _, hnew⟩
    · rw [if_pos hrevoked, rotate_of_revoked hrow hrevoked]
      exact hb.revokeFamily row.username

/-- **One call** keeps the balance, as long as the generated tokens are distinct. -/
theorem Balanced.step (hb : Balanced hash fresh r) (l : AuthLabel)
    (hdistinct : DistinctUpTo hash fresh (authStep hash fresh r l).state.generated) :
    Balanced hash fresh (authStep hash fresh r l) := by
  cases l with
  | tick d => exact ⟨hb.balance, hb.drawn⟩
  | call call =>
    cases call with
    | issue u => exact hb.issue hdistinct
    | rotate rawToken => exact hb.rotate hdistinct
    | revokeAll u => exact hb.revokeFamily u

theorem authRun_append (labels : List AuthLabel) (l : AuthLabel) :
    authRun hash fresh (labels ++ [l]) = authStep hash fresh (authRun hash fresh labels) l := by
  rw [authRun, List.foldl_append]
  rfl

/-- Tokens are only added to the generated ones. -/
theorem generated_le_authStep (r : AuthRun) (l : AuthLabel) :
    r.state.generated ≤ (authStep hash fresh r l).state.generated := by
  cases l with
  | tick d => exact le_refl _
  | call call =>
    cases call with
    | issue u =>
      have hone : (issueRefreshToken hash fresh u r.state).2.generated = r.state.generated + 1 :=
        issueRefreshToken_generated
      exact (Nat.le_succ _).trans hone.ge
    | rotate rawToken =>
      change r.state.generated ≤ (rotateRefreshToken hash fresh rawToken r.state).2.generated
      rcases hrow : r.state.table.get? (hash rawToken) with - | row
      · rw [rotate_of_unknown hrow]
      · by_cases hrevoked : row.revokedAt = none
        · by_cases hexpired : row.expiresAt < r.state.clock
          · rw [rotate_of_expired hrow hrevoked hexpired]
          · rw [rotate_generated_of_live hrow hrevoked hexpired]
            exact Nat.le_succ _
        · rw [rotate_of_revoked hrow hrevoked]
          exact le_refl _
    | revokeAll u => exact le_refl _

/-- **Every sequence of calls** keeps the balance. -/
theorem balanced_authRun
    (hdistinct : DistinctUpTo hash fresh (authRun hash fresh labels).state.generated) :
    Balanced hash fresh (authRun hash fresh labels) := by
  induction labels using List.reverseRecOn with
  | nil => exact ⟨fun u => rfl, fun k hk => nomatch hk⟩
  | append_singleton labels l ih =>
    rw [authRun_append] at hdistinct ⊢
    have hearlier : DistinctUpTo hash fresh (authRun hash fresh labels).state.generated := by
      have hle : (authRun hash fresh labels).state.generated ≤
          (authStep hash fresh (authRun hash fresh labels) l).state.generated :=
        generated_le_authStep (authRun hash fresh labels) l
      intro i hi j hj
      exact hdistinct i (hi.trans_le hle) j (hj.trans_le hle)
    exact (ih hearlier).step l hdistinct

/-- What was revoked at some point of a sequence stays revoked to its end. -/
theorem keepsRevoked_authRun (before after : List AuthLabel) :
    KeepsRevoked (authRun hash fresh before).state
      (authRun hash fresh (before ++ after)).state := by
  induction after using List.reverseRecOn with
  | nil =>
    rw [List.append_nil]
    exact Std.Refl.refl _
  | append_singleton after l ih =>
    rw [← List.append_assoc, authRun_append]
    refine IsTrans.trans _ _ _ ih ?_
    cases l with
    | tick d => exact fun k row hrow hrevoked => ⟨row, hrow, rfl, hrevoked⟩
    | call call => exact afterCall_keepsRevoked call

/-- Revoking a family leaves the rows of the others alone. -/
theorem get?_revokeFamily_of_ne {s : AuthState} {now : ℕ} {u k : String} {row : TokenRow}
    (h : row.username ≠ u) :
    (s.revokeFamily now u).table.get? k = some row ↔ s.table.get? k = some row := by
  rw [AuthState.revokeFamily, AuthState.withTable, Dict.get?_updateWhere, Option.map_eq_some_iff]
  constructor
  · rintro ⟨row₀, hrow₀, hupdated⟩
    split_ifs at hupdated with hlive
    · have hname : row₀.username = u := of_decide_eq_true (Bool.and_eq_true_iff.mp hlive).1
      rw [← hupdated] at h
      exact absurd hname h
    · rw [hrow₀, hupdated]
  · intro hrow
    refine ⟨row, hrow, if_neg ?_⟩
    rw [TokenRow.isLiveOf, decide_eq_false h, Bool.false_and]
    exact Bool.false_ne_true

/-- **Rotation accounting.** In every sequence of calls whose generated tokens have different
hashes, every user has as many live rows as logins since their family was last revoked. Presenting a
token that was ever revoked raises, leaves its owner without live rows and changes no row of another
user; presenting an unknown or an expired live token raises and changes nothing. -/
theorem rotation_accounting (labels : List AuthLabel)
    (hdistinct : DistinctUpTo hash fresh (authRun hash fresh labels).state.generated) :
    (∀ u, (authRun hash fresh labels).state.unrevoked u =
      issuesSinceRevocation u (authRun hash fresh labels).log) ∧
    (∀ before after rawToken row, labels = before ++ after →
      (authRun hash fresh before).state.table.get? (hash rawToken) = some row →
      row.revokedAt ≠ none →
      ∃ e s', rotateRefreshToken hash fresh rawToken (authRun hash fresh labels).state =
          (.error e, s') ∧ s'.unrevoked row.username = 0 ∧
        ∀ k row', row'.username ≠ row.username → (s'.table.get? k = some row' ↔
          (authRun hash fresh labels).state.table.get? k = some row')) ∧
    ∀ rawToken, ((authRun hash fresh labels).state.table.get? (hash rawToken) = none ∨
        ∃ row, (authRun hash fresh labels).state.table.get? (hash rawToken) = some row ∧
          row.revokedAt = none ∧ row.expiresAt < (authRun hash fresh labels).state.clock) →
      ∃ e, rotateRefreshToken hash fresh rawToken (authRun hash fresh labels).state =
        (.error e, (authRun hash fresh labels).state) := by
  refine ⟨(balanced_authRun hdistinct).balance, ?_, ?_⟩
  · rintro before after rawToken row rfl hrow hrevoked
    obtain ⟨row', hrow', hname, hrevoked'⟩ := keepsRevoked_authRun before after _ _ hrow hrevoked
    refine ⟨_, _, rotate_of_revoked hrow' hrevoked', ?_, ?_⟩
    · rw [hname, unrevoked_revokeFamily, if_pos rfl]
    · intro k row'' hother
      rw [hname]
      exact get?_revokeFamily_of_ne hother
  · rintro rawToken (hunknown | ⟨row, hrow, hlive, hexpired⟩)
    · exact ⟨_, rotate_of_unknown hunknown⟩
    · exact ⟨_, rotate_of_expired hrow hlive hexpired⟩

end

/-- The tokens that are generated in a sample run. -/
def sampleTokens (n : ℕ) : String := ["t", "a", "b"].getD n ""

/-- Alice and Bob log in, and Alice's token is rotated. -/
def sampleLogins : List AuthLabel :=
  [.call (.issue "alice"), .call (.issue "bob"), .tick 60, .call (.rotate "t")]

/-- `rotation_accounting` at the reuse of Alice's first token. -/
theorem rotation_accounting_reuse :
    (authRun sampleHash sampleTokens sampleLogins).state.unrevoked "alice" =
        issuesSinceRevocation "alice" (authRun sampleHash sampleTokens sampleLogins).log ∧
      ∃ e s', rotateRefreshToken sampleHash sampleTokens "t"
          (authRun sampleHash sampleTokens sampleLogins).state = (.error e, s') ∧
        s'.unrevoked "alice" = 0 := by
  have hdistinct : DistinctUpTo sampleHash sampleTokens
      (authRun sampleHash sampleTokens sampleLogins).state.generated := by
    unfold DistinctUpTo
    decide +kernel
  obtain ⟨hbalance, hrevoked, -⟩ := rotation_accounting sampleLogins hdistinct
  refine ⟨hbalance "alice", ?_⟩
  obtain ⟨e, s', hraises, hdead, -⟩ := hrevoked sampleLogins [] "t"
    { username := "alice", issuedAt := 0, expiresAt := refreshTokenExpiry, revokedAt := some 60 }
    rfl (by decide +kernel) (by decide)
  exact ⟨e, s', hraises, hdead⟩

end AuditFlow
