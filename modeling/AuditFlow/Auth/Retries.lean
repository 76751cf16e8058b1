import AuditFlow.Auth.Access

/-!
# Retrying a refresh

`/refresh` rotates the presented token in one transaction and reads the user's account in another.
If the request fails, the client still holds the old cookie. Up to the commit of the rotation every
failure **rolls the rotation back**, and the cookie can be presented again (`rotateToken_cases`).
Once the commit has taken effect the old token is revoked: a failure from then on — of the commit's
own answer, or of reading the account — leaves the client with a cookie whose next use is taken for
theft and costs the user every session (`refresh_of_revoked`).

`refresh_keeps_token_iff` says that **this is the only way** to burn a session.
-/

namespace AuditFlow

open Foundation

/-- The token is there, neither revoked nor expired. -/
def RoutesState.Rotatable (env : AuthEnv) (s : RoutesState) (rawToken : String) : Prop :=
  ∃ row, s.auth.table.get? (env.hash rawToken) = some row ∧ row.revokedAt = none ∧
    ¬row.expiresAt < s.auth.clock

/-- The statements of a rotation work: the three of them, and the new token's hash is not in use. -/
structure StatementsWork (env : AuthEnv) (s : RoutesState) : Prop where
  selects : env.db s.operations = .done
  updates : env.db (s.operations + 1) = .done
  inserts : env.db (s.operations + 2) = .done
  unused : env.hash (env.fresh s.auth.generated) ∉ s.auth.table.keys

/-- The request gets a connection, and reaches the commit of its rotation. -/
structure ReachesCommit (env : AuthEnv) (s : RoutesState) : Prop where
  connects : env.db s.operations = .done
  statements : StatementsWork env s.asked

/-- The account can be read: the connection, the statement and the commit, from the `n`-th operation
on. -/
structure LookupWorks (env : AuthEnv) (n : ℕ) : Prop where
  connects : env.db n = .done
  selects : env.db (n + 1) = .done
  commits : env.db (n + 2) = .done

/-- The request fails after its rotation has taken effect. -/
structure FailsAfterCommit (env : AuthEnv) (s : RoutesState) : Prop where
  reaches : ReachesCommit env s
  fails : (∃ message, env.db (s.operations + 4) = .unacknowledged message) ∨
    env.db (s.operations + 4) = .done ∧ ¬LookupWorks env (s.operations + 5)

section

variable {env : AuthEnv} {s s' : RoutesState} {rawToken : String} {row : TokenRow}

/-! ### The rotation -/

/-- The state in which a rotation asks for its commit. -/
def rotatedState (env : AuthEnv) (s : RoutesState) (rawToken : String) (row : TokenRow) :
    RoutesState :=
  { s with
    auth := {
      clock := s.auth.clock
      table := (s.auth.revokeToken s.auth.clock (env.hash rawToken)).table.set
        (env.hash (env.fresh s.auth.generated))
        { username := row.username, issuedAt := s.auth.clock
          expiresAt := env.refreshExpiry s.auth.clock }
      generated := s.auth.generated + 1 }
    operations := s.operations + 3 }

/-- The part of the first transaction that follows a row that is live. -/
private theorem checkAndRotateToken_of_live {now : ℕ} (hselects : env.db s.operations = .done)
    (hrow : s.auth.table.get? (env.hash rawToken) = some row) (hlive : row.revokedAt = none)
    (hunexpired : ¬row.expiresAt < now) :
    checkAndRotateToken env rawToken now s = (do
      updateRefreshTokens env fun auth => auth.revokeToken now (env.hash rawToken)
      let newRawToken ← drawRefreshToken env
      insertRefreshToken env row.username newRawToken now
      return .rotated row.username newRawToken : Handler Checked) s.asked := by
  have hfound : execute env (Exc.reads fun s => s.auth.table.get? (env.hash rawToken)) s =
      (.ok (some row), s.asked) := by
    rw [execute_of_done hselects, Exc.reads_apply]
    exact congrArg (fun found => (Except.ok found, s.asked)) hrow
  refine (Exc.bind_of_ok hfound).trans ?_
  simp only [hlive, ne_eq, not_true_eq_false, if_false, hunexpired]

/-- An `INSERT` of a hash that is not in use. -/
private theorem insertRefreshToken_of_unused {username : String} {now : ℕ}
    (hdone : env.db s.operations = .done) (hunused : env.hash rawToken ∉ s.auth.table.keys) :
    insertRefreshToken env username rawToken now s = (.ok (), { s.asked with
      auth := s.auth.withTable (s.auth.table.set (env.hash rawToken)
        { username, issuedAt := now, expiresAt := env.refreshExpiry now }) }) := by
  have hfree : s.asked.auth.table.contains (env.hash rawToken) ≠ true := by
    rw [Ne, Dict.contains_iff, ← Dict.mem_keys_iff]
    exact hunused
  rw [insertRefreshToken, execute_of_done hdone]
  refine Exc.modifyExcept_of_ok ?_
  rw [AuthState.insertRow, if_neg hfree]
  rfl

/-- An `INSERT` that returned had a hash that was not in use. -/
private theorem insertRefreshToken_eq_ok {username : String} {now : ℕ}
    (h : insertRefreshToken env username rawToken now s = (.ok (), s')) :
    env.db s.operations = .done ∧ env.hash rawToken ∉ s.auth.table.keys := by
  obtain ⟨hdone, hinsert⟩ := execute_eq_ok h
  refine ⟨hdone, fun hused => ?_⟩
  have hcontains : s.asked.auth.table.contains (env.hash rawToken) = true :=
    Dict.contains_iff.mpr (Dict.mem_keys_iff.mp hused)
  rw [Exc.modifyExcept, AuthState.insertRow, if_pos hcontains] at hinsert
  cases (Prod.mk.inj hinsert).1

/-- Revoking a token leaves the keys alone. -/
private theorem keys_revokeToken (auth : AuthState) (now : ℕ) (key : String) :
    (auth.revokeToken now key).table.keys = auth.table.keys := Dict.keys_updateWhere _ _ _

section

variable (hrow : s.auth.table.get? (env.hash rawToken) = some row) (hlive : row.revokedAt = none)
  (hunexpired : ¬row.expiresAt < s.auth.clock)

include hrow hlive hunexpired

private theorem checkAndRotateToken_of_work (h : StatementsWork env s) :
    checkAndRotateToken env rawToken s.auth.clock s =
      (.ok (.rotated row.username (env.fresh s.auth.generated)),
        rotatedState env s rawToken row) := by
  rw [checkAndRotateToken_of_live h.selects hrow hlive hunexpired]
  have hupdate : updateRefreshTokens env
      (fun auth => auth.revokeToken s.auth.clock (env.hash rawToken)) s.asked =
        (.ok (), { s.asked.asked with
          auth := s.auth.revokeToken s.auth.clock (env.hash rawToken) }) :=
    execute_of_done h.updates
  refine (Exc.bind_of_ok hupdate).trans ((Exc.bind_of_ok rfl).trans ?_)
  have hunused : env.hash (env.fresh s.auth.generated) ∉
      (s.auth.revokeToken s.auth.clock (env.hash rawToken)).table.keys := by
    rw [keys_revokeToken]
    exact h.unused
  exact Exc.bind_of_ok (insertRefreshToken_of_unused h.inserts hunused)

/-- A rotation of a live token whose statements return has made them all. -/
private theorem work_of_checkAndRotateToken {checked : Checked}
    (h : checkAndRotateToken env rawToken s.auth.clock s = (.ok checked, s')) :
    StatementsWork env s := by
  have hselects : env.db s.operations = .done := by
    obtain ⟨found, s₁, hselect, -⟩ := Exc.bind_eq_ok_iff.mp h
    exact (execute_eq_ok hselect).1
  rw [checkAndRotateToken_of_live hselects hrow hlive hunexpired] at h
  obtain ⟨_, s₁, hupdate, h⟩ := Exc.bind_eq_ok_iff.mp h
  obtain ⟨hupdates, hupdate⟩ := execute_eq_ok hupdate
  obtain ⟨-, rfl⟩ := Prod.mk.inj hupdate
  obtain ⟨newRawToken, s₂, hdraw, h⟩ := Exc.bind_eq_ok_iff.mp h
  obtain ⟨hnew, rfl⟩ := Prod.mk.inj hdraw
  obtain rfl := Except.ok.inj hnew
  obtain ⟨_, s₃, hinsert, -⟩ := Exc.bind_eq_ok_iff.mp h
  obtain ⟨hinserts, hunused⟩ := insertRefreshToken_eq_ok hinsert
  refine ⟨hselects, hupdates, hinserts, fun hused => hunused ?_⟩
  have hkeys := keys_revokeToken s.auth s.auth.clock (env.hash rawToken)
  exact hkeys ▸ hused

/-- A rotation that reaches its commit, and is told so. -/
private theorem rotateToken_of_commit (h : ReachesCommit env s)
    (hcommit : env.db (s.operations + 4) = .done) :
    rotateToken env rawToken s =
      (.ok (row.username, { rawToken := env.fresh s.auth.generated
                            expiresAt := env.refreshExpiry s.auth.clock }),
        (rotatedState env s.asked rawToken row).asked) := by
  have hcursor : withCursor env (checkAndRotateToken env rawToken s.auth.clock) s =
      (.ok (.rotated row.username (env.fresh s.auth.generated)),
        (rotatedState env s.asked rawToken row).asked) := by
    have hbody : checkAndRotateToken env rawToken s.auth.clock s.asked = _ :=
      checkAndRotateToken_of_work hrow hlive hunexpired h.statements
    exact withCursor_of_ok h.connects hbody hcommit
  exact (Exc.bind_of_ok rfl).trans (Exc.bind_of_ok hcursor)

/-- A rotation that reaches its commit, and loses the connection. -/
private theorem rotateToken_of_unacknowledged (h : ReachesCommit env s) {message : String}
    (hcommit : env.db (s.operations + 4) = .unacknowledged message) :
    rotateToken env rawToken s =
      (.error (psycopgError message), (rotatedState env s.asked rawToken row).asked) := by
  have hcursor : withCursor env (checkAndRotateToken env rawToken s.auth.clock) s =
      (.error (psycopgError message), (rotatedState env s.asked rawToken row).asked) := by
    have hbody : checkAndRotateToken env rawToken s.auth.clock s.asked = _ :=
      checkAndRotateToken_of_work hrow hlive hunexpired h.statements
    have hlost : env.db (rotatedState env s.asked rawToken row).operations =
        .unacknowledged message := hcommit
    rw [withCursor_of_done h.connects, transaction, hbody]
    dsimp only
    rw [hlost]
    rfl
  exact (Exc.bind_of_ok rfl).trans (Exc.bind_of_error hcursor)

/-- **How the rotation of a live token ends**: without an effect, or with its commit, which is
acknowledged or not. -/
private theorem rotateToken_cases :
    (∃ e s', rotateToken env rawToken s = (.error e, s') ∧ s'.auth.table = s.auth.table) ∨
      ReachesCommit env s ∧ ((∃ message, env.db (s.operations + 4) = .unacknowledged message) ∨
        env.db (s.operations + 4) = .done) := by
  have hreaches {checked : Checked} {s₁ : RoutesState} (hconnects : env.db s.operations = .done)
      (hbody : checkAndRotateToken env rawToken s.auth.clock s.asked = (.ok checked, s₁)) :
      ReachesCommit env s ∧ s₁.operations = s.operations + 4 := by
    have hwork : StatementsWork env s.asked :=
      work_of_checkAndRotateToken hrow hlive hunexpired hbody
    have hrotated := checkAndRotateToken_of_work (s := s.asked) hrow hlive hunexpired hwork
    obtain ⟨-, rfl⟩ := Prod.mk.inj (hbody.symm.trans hrotated)
    exact ⟨⟨hconnects, hwork⟩, rfl⟩
  rcases hcursor : withCursor env (checkAndRotateToken env rawToken s.auth.clock) s with
    ⟨e | checked, s₁⟩
  · rcases withCursor_eq_error hcursor with
      ⟨htable, -⟩ | ⟨message, checked, s₂, hconnects, hbody, hcommit, -, -⟩
    · exact Or.inl ⟨e, s₁, (Exc.bind_of_ok rfl).trans (Exc.bind_of_error hcursor), htable⟩
    · obtain ⟨hcommits, hoperations⟩ := hreaches hconnects hbody
      rw [hoperations] at hcommit
      exact Or.inr ⟨hcommits, Or.inl ⟨message, hcommit⟩⟩
  · obtain ⟨hconnects, s₂, hbody, hcommit, -⟩ := withCursor_eq_ok hcursor
    obtain ⟨hcommits, hoperations⟩ := hreaches hconnects hbody
    rw [hoperations] at hcommit
    exact Or.inr ⟨hcommits, Or.inr hcommit⟩

end

/-- After a rotation the presented token is revoked. -/
private theorem not_rotatable_of_rotated (h : StatementsWork env s)
    (hrow : s.auth.table.get? (env.hash rawToken) = some row)
    (htable : s'.auth.table = (rotatedState env s rawToken row).auth.table) :
    ¬s'.Rotatable env rawToken := by
  rintro ⟨row', hrow', hlive, -⟩
  have hother : env.hash rawToken ≠ env.hash (env.fresh s.auth.generated) := by
    intro hsame
    exact h.unused (hsame ▸ Dict.mem_keys_iff.mpr ⟨row, hrow⟩)
  rw [htable, rotatedState, Dict.get?_set, if_neg hother, AuthState.revokeToken,
    AuthState.withTable, Dict.get?_updateWhere, hrow] at hrow'
  simp only [decide_true, if_true, Option.map_some] at hrow'
  obtain rfl := Option.some.inj hrow'
  cases hlive

/-! ### The lookup of the account -/

private theorem getUserByUsername_of_works (h : LookupWorks env s.operations) (username : String) :
    getUserByUsername env username s =
      (.ok ((s.users.get? username).map fun account => { account with username }),
        s.asked.asked.asked) := by
  rw [getUserByUsername]
  exact withCursor_of_ok h.connects (execute_of_done h.selects) h.commits

/-- A lookup that fails raises an exception of the driver, and leaves the tokens alone. -/
private theorem getUserByUsername_of_fails (h : ¬LookupWorks env s.operations) (username : String) :
    ∃ e s', getUserByUsername env username s = (.error e, s') ∧ e.cls ≠ .authenticationError ∧
      s'.auth.table = s.auth.table := by
  rcases hrun : getUserByUsername env username s with ⟨e | found, s'⟩
  · refine ⟨e, s', rfl, ?_⟩
    rcases withCursor_eq_error hrun with
      ⟨htable, ⟨message, rfl⟩ | ⟨s₁, hbody⟩⟩ | ⟨message, a, s₁, -, hbody, -, rfl, rfl⟩
    · exact ⟨by rintro ⟨⟩, htable⟩
    · rcases execute_eq_error hbody with ⟨message, rfl⟩ | hreads
      · exact ⟨by rintro ⟨⟩, htable⟩
      · cases (Prod.mk.inj hreads).1
    · obtain ⟨-, hselect⟩ := execute_eq_ok hbody
      obtain ⟨-, rfl⟩ := Prod.mk.inj hselect
      exact ⟨by rintro ⟨⟩, rfl⟩
  · obtain ⟨hconnects, s₁, hbody, hcommits, -⟩ := withCursor_eq_ok hrun
    obtain ⟨hselects, hselect⟩ := execute_eq_ok hbody
    obtain ⟨-, rfl⟩ := Prod.mk.inj hselect
    exact absurd ⟨hconnects, hselects, hcommits⟩ h

/-- Once the account has been read and is active, nothing fails. -/
private theorem refreshFor_of_works {username : String} {newRefresh : IssuedRefreshToken}
    {account : Account} (h : LookupWorks env s.operations)
    (haccount : s.users.get? username = some account) (hactive : account.isActive = true) :
    ∃ response s', refreshFor env username newRefresh s = (.ok response, s') := by
  have hfound := getUserByUsername_of_works h username
  rw [haccount] at hfound
  rw [refreshFor, Exc.bind_of_ok hfound]
  dsimp only [Option.map_some]
  rw [if_pos hactive]
  exact ⟨_, _, rfl⟩

/-! ### The request -/

/-- The request goes on after its rotation. -/
private theorem refresh_of_rotated {username : String} {newRefresh : IssuedRefreshToken}
    (hne : rawToken ≠ "") (h : rotateToken env rawToken s = (.ok (username, newRefresh), s')) :
    refresh env (some rawToken) s = refreshFor env username newRefresh s' := by
  have htruthy : truthy (some rawToken) = some rawToken := truthy_eq_some_iff.mpr ⟨rfl, hne⟩
  rw [refresh, htruthy]
  dsimp only
  rw [Exc.bind_of_ok h]

/-- The request raises what its rotation raises. -/
private theorem refresh_of_raised {e : PyError} (hne : rawToken ≠ "")
    (h : rotateToken env rawToken s = (.error e, s')) :
    refresh env (some rawToken) s = (.error e, s') := by
  have htruthy : truthy (some rawToken) = some rawToken := truthy_eq_some_iff.mpr ⟨rfl, hne⟩
  rw [refresh, htruthy]
  dsimp only
  rw [Exc.bind_of_error h]

/-- The tables as they were leave the token as it was. -/
private theorem Rotatable.of_table (h : s.Rotatable env rawToken)
    (htable : s'.auth.table = s.auth.table) (hclock : s'.auth.clock = s.auth.clock) :
    s'.Rotatable env rawToken := by
  obtain ⟨row, hrow, hlive, hunexpired⟩ := h
  exact ⟨row, by rw [htable, hrow], hlive, by rwa [hclock]⟩

/-- The request ends in an exception that is not an `AuthenticationError` only if the presented
token can still be rotated. -/
def KeepsToken (env : AuthEnv) (s : RoutesState) (rawToken : String) : Prop :=
  ∀ e s', refresh env (some rawToken) s = (.error e, s') → e.cls ≠ .authenticationError →
    s'.Rotatable env rawToken

/-- **A failed refresh keeps the session exactly if it does not fail after its commit.** -/
theorem refresh_keeps_token_iff (env : AuthEnv) (s : RoutesState) (rawToken : String)
    (row : TokenRow) (account : Account) (hne : rawToken ≠ "")
    (hrow : s.auth.table.get? (env.hash rawToken) = some row) (hlive : row.revokedAt = none)
    (hunexpired : ¬row.expiresAt < s.auth.clock)
    (haccount : s.users.get? row.username = some account) (hactive : account.isActive = true) :
    KeepsToken env s rawToken ↔ ¬FailsAfterCommit env s := by
  constructor
  · rintro hkeeps ⟨hreaches, ⟨message, hcommit⟩ | ⟨hcommit, hlookup⟩⟩
    · have hrun := rotateToken_of_unacknowledged hrow hlive hunexpired hreaches hcommit
      have hcls : (psycopgError message).cls ≠ .authenticationError := by rintro ⟨⟩
      have hkept := hkeeps _ _ (refresh_of_raised hne hrun) hcls
      exact not_rotatable_of_rotated hreaches.statements hrow rfl hkept
    · have hrun := rotateToken_of_commit hrow hlive hunexpired hreaches hcommit
      obtain ⟨e, s', hfails, hcls, htable⟩ := getUserByUsername_of_fails
        (s := (rotatedState env s.asked rawToken row).asked) hlookup row.username
      have hraises : refresh env (some rawToken) s = (.error e, s') :=
        (refresh_of_rotated hne hrun).trans (Exc.bind_of_error hfails)
      exact not_rotatable_of_rotated hreaches.statements hrow htable (hkeeps e s' hraises hcls)
  · intro hsafe e s' hraises _
    have hclock : s'.auth.clock = s.auth.clock := by
      have hserves : Serves env s (refresh env (some rawToken) s).2 :=
        afterRequest_serves s (.refresh (some rawToken))
      rw [hraises] at hserves
      exact hserves.clock
    rcases rotateToken_cases hrow hlive hunexpired with
      ⟨e', s₁, hrun, htable⟩ | ⟨hreaches, hcommit | hcommit⟩
    · rw [refresh_of_raised hne hrun] at hraises
      obtain ⟨-, rfl⟩ := Prod.mk.inj hraises
      exact Rotatable.of_table ⟨row, hrow, hlive, hunexpired⟩ htable hclock
    · exact absurd ⟨hreaches, Or.inl hcommit⟩ hsafe
    · have hworks : LookupWorks env (s.operations + 5) := by
        by_contra hfails
        exact hsafe ⟨hreaches, Or.inr ⟨hcommit, hfails⟩⟩
      have hrun := rotateToken_of_commit hrow hlive hunexpired hreaches hcommit
      obtain ⟨response, s₂, hreturns⟩ := refreshFor_of_works
        (s := (rotatedState env s.asked rawToken row).asked) hworks haccount hactive
      rw [refresh_of_rotated hne hrun, hreturns] at hraises
      cases (Prod.mk.inj hraises).1

end

/-! ### A burnt session -/

/-- **Presenting a revoked token costs the user every session**, when the database works. -/
theorem refresh_of_revoked {env : AuthEnv} {s : RoutesState} {rawToken : String} {row : TokenRow}
    (hne : rawToken ≠ "") (hrow : s.auth.table.get? (env.hash rawToken) = some row)
    (hrevoked : row.revokedAt ≠ none) (hdone : ∀ n, env.db n = .done) :
    ∃ s', refresh env (some rawToken) s = (.error (authenticationError
        "Refresh token reuse detected; all sessions revoked, please log in again"), s') ∧
      s'.auth.table = (s.auth.revokeFamily s.auth.clock row.username).table := by
  have hfound : execute env (Exc.reads fun s => s.auth.table.get? (env.hash rawToken)) s.asked =
      (.ok (some row), s.asked.asked) := by
    rw [execute_of_done (hdone _), Exc.reads_apply]
    exact congrArg (fun found => (Except.ok found, s.asked.asked)) hrow
  have hbody : checkAndRotateToken env rawToken s.auth.clock s.asked =
      (.ok (.reuseDetected row.username), s.asked.asked) := by
    refine (Exc.bind_of_ok hfound).trans ?_
    dsimp only
    rw [if_pos hrevoked]
    rfl
  have hcursor : withCursor env (checkAndRotateToken env rawToken s.auth.clock) s =
      (.ok (.reuseDetected row.username), s.asked.asked.asked) :=
    withCursor_of_ok (hdone _) hbody (hdone _)
  have hrevokes : withCursor env (updateRefreshTokens env fun auth =>
      auth.revokeFamily s.auth.clock row.username) s.asked.asked.asked = (.ok (), _) :=
    withCursor_of_ok (hdone _) (execute_of_done (hdone _)) (hdone _)
  have hrun : rotateToken env rawToken s = (.error (authenticationError
      "Refresh token reuse detected; all sessions revoked, please log in again"), _) :=
    (Exc.bind_of_ok rfl).trans ((Exc.bind_of_ok hcursor).trans (Exc.bind_of_ok hrevokes))
  exact ⟨_, refresh_of_raised hne hrun, rfl⟩

/-- The database refuses the operation with the given number. -/
def refusingAt (n : ℕ) : AuthEnv :=
  { aliceEnv with db := fun k => if k = n then .refused "connection reset" else .done }

/-- The state after a login of `alice`, which takes six operations. -/
def aliceState (env : AuthEnv) : RoutesState :=
  routesRun env 0 aliceUsers [.call (.login "alice" "secret")]

/-- The row of the token that `alice` was given. -/
def aliceRow : TokenRow := { username := "alice", issuedAt := 0, expiresAt := 6048000 }

/-- `refresh_keeps_token_iff` where the `INSERT` of the rotation is refused. -/
theorem refresh_keeps_token_iff_refused :
    KeepsToken (refusingAt 9) (aliceState (refusingAt 9)) "token-0" ↔
      ¬FailsAfterCommit (refusingAt 9) (aliceState (refusingAt 9)) :=
  refresh_keeps_token_iff (refusingAt 9) (aliceState (refusingAt 9)) "token-0" aliceRow
    { passwordHash := "bcrypt:secret", role := "employee", isActive := true } (by decide)
    (by decide +kernel) rfl (by decide +kernel) (by decide +kernel) rfl

/-- **A failed lookup burns the session.** The token of `alice` is live; the `SELECT` of her account
is refused after the rotation was committed; her retry is taken for theft, and she has no live token
left. -/
theorem refresh_burns_session :
    (aliceState (refusingAt 12)).Rotatable (refusingAt 12) "token-0" ∧
      ¬KeepsToken (refusingAt 12) (aliceState (refusingAt 12)) "token-0" ∧
      (refresh (refusingAt 12) (some "token-0")
          (refresh (refusingAt 12) (some "token-0") (aliceState (refusingAt 12))).2).1 =
        .error (authenticationError
          "Refresh token reuse detected; all sessions revoked, please log in again") ∧
      (refresh (refusingAt 12) (some "token-0")
        (refresh (refusingAt 12) (some "token-0")
          (aliceState (refusingAt 12))).2).2.auth.unrevoked "alice" = 0 := by
  have hrow : (aliceState (refusingAt 12)).auth.table.get? ((refusingAt 12).hash "token-0") =
      some aliceRow := by
    decide +kernel
  have hunexpired : ¬aliceRow.expiresAt < (aliceState (refusingAt 12)).auth.clock := by
    decide +kernel
  have hraises : (refresh (refusingAt 12) (some "token-0") (aliceState (refusingAt 12))).1 =
      .error (queryFailed "connection reset") := by
    decide +kernel
  have hrevoked : (refresh (refusingAt 12) (some "token-0")
      (aliceState (refusingAt 12))).2.auth.table.get? ((refusingAt 12).hash "token-0") =
        some { aliceRow with revokedAt := some 0 } := by
    decide +kernel
  refine ⟨⟨aliceRow, hrow, rfl, hunexpired⟩, fun hkeeps => ?_, ?_, ?_⟩
  · have hcls : (queryFailed "connection reset").cls ≠ .authenticationError := by rintro ⟨⟩
    obtain ⟨row, hget, hlive, -⟩ := hkeeps _ _ (Exc.eq_of_fst hraises) hcls
    obtain rfl := Option.some.inj (hget.symm.trans hrevoked)
    cases hlive
  · decide +kernel
  · decide +kernel

end AuditFlow
