import AuditFlow.Auth.Accounting
import AuditFlow.Foundation.Text

/-!
# The authentication routes

`auth/routes.py`, `auth/security.py` and `auth/dependencies.py`: `/login`, `/refresh` and `/logout`
over the tables `users` and `refresh_tokens`, and the check that guards every other route. A
request runs to its end before the next one starts, and each of its database operations — taking a
connection, a statement, a commit — **may fail**: the `n`-th operation of the server does what
`AuthEnv.db n` says. A failed statement rolls its transaction back; a commit may fail before or
after it has taken effect.

Moments are finer than the whole seconds of a JWT. The hash, the password check, the JWT library
and the policy are parameters. `RoutesState.minted` is bookkeeping: the claims that `issue_token`
has signed.
-/

namespace AuditFlow

open Foundation

/-! ### The environment -/

/-- What an operation of the database does. -/
inductive DbOutcome
  | done
  /-- It fails, without an effect. -/
  | refused (message : String)
  /-- It has its effect, and the connection is lost before the answer. -/
  | unacknowledged (message : String)
  deriving DecidableEq

/-- The payload of an access token, in seconds. -/
structure AccessClaims where
  sub : String
  role : String
  iat : ℕ
  exp : ℕ
  deriving DecidableEq

/-- What `jwt.decode` raises. -/
inductive JwtError
  | expiredSignature
  | invalidToken
  deriving DecidableEq

/-- The JWT library with the server's secret; decoding depends on the moment. -/
structure Jwt where
  encode : AccessClaims → String
  decode : ℕ → String → Except JwtError AccessClaims

structure AuthEnv where
  /-- `_hash`. -/
  hash : String → String
  /-- The tokens that `generate_refresh_token` draws. -/
  fresh : ℕ → String
  /-- How many moments a second has. -/
  ticksPerSecond : ℕ
  /-- `bcrypt.checkpw`. -/
  checkpw : String → String → Except PyError Bool
  jwt : Jwt
  /-- `get_enforcer().enforce`. -/
  enforce : String → String → String → Bool
  db : ℕ → DbOutcome

/-- A row of `users` but for its primary key, the username. -/
structure Account where
  passwordHash : String
  role : String
  isActive : Bool
  deriving DecidableEq

/-- A row of `users`. -/
structure UserRow extends Account where
  username : String
  deriving DecidableEq

structure RoutesState where
  /-- The clock, the table `refresh_tokens`, and how many tokens have been generated. -/
  auth : AuthState
  users : Dict String Account
  /-- How many operations the database has been asked for. -/
  operations : ℕ := 0
  minted : List AccessClaims := []

/-- A stage of a request. -/
abbrev Handler (α : Type) : Type := Exc PyError RoutesState α

/-- An exception of the driver, as it is. -/
def psycopgError (message : String) : PyError :=
  { cls := .external "psycopg2.Error", message }

/-- An exception of the driver, as `_cursor` labels it. -/
def queryFailed (message : String) : PyError :=
  { cls := .ingestionError, message := "Postgres query failed", detail := [("pg_error", message)] }

section

variable (env : AuthEnv)

/-- Ask the database for an operation. -/
def dbOperation : Handler DbOutcome := fun s =>
  (.ok (env.db s.operations), { s with operations := s.operations + 1 })

/-- `cur.execute(…)`: a failure loses the transaction in either case. -/
def execute {α : Type} (statement : Handler α) : Handler α := do
  match ← dbOperation env with
  | .done => statement
  | .refused message => Exc.raise (queryFailed message)
  | .unacknowledged message => Exc.raise (queryFailed message)

/-- The tables as they were in `s`. -/
def RoutesState.rollback (s' s : RoutesState) : RoutesState :=
  { s' with auth := s'.auth.withTable s.auth.table, users := s.users }

/-- `with conn:` — commit if the body returns, roll back if it raises. -/
def transaction {α : Type} (body : Handler α) : Handler α := fun s =>
  match body s with
  | (.error e, s') => (.error e, s'.rollback s)
  | (.ok a, s') =>
    match env.db s'.operations with
    | .done => (.ok a, { s' with operations := s'.operations + 1 })
    | .refused message =>
      (.error (psycopgError message),
        { s' with operations := s'.operations + 1 }.rollback s)
    | .unacknowledged message =>
      (.error (psycopgError message), { s' with operations := s'.operations + 1 })

/-- `with document_store._cursor()`: take a connection and run a transaction on it. -/
def withCursor {α : Type} (body : Handler α) : Handler α := do
  match ← dbOperation env with
  | .done => transaction env body
  | .refused message => Exc.raise (psycopgError message)
  | .unacknowledged message => Exc.raise (psycopgError message)

/-! ### `document_store`, `security` and `refresh` -/

/-- `datetime.now`. -/
def currentMoment : Handler ℕ := Exc.reads fun s => s.auth.clock

/-- `get_user_by_username`. -/
def getUserByUsername (username : String) : Handler (Option UserRow) :=
  withCursor env (execute env (Exc.reads fun s =>
    (s.users.get? username).map fun account => { account with username }))

/-- `ACCESS_TOKEN_EXPIRY_SECONDS`. -/
def accessTokenExpirySeconds : ℕ := 15 * 60

/-- `issue_token`: the moment of issue is truncated to whole seconds. -/
def issueToken (username role : String) (ttl : Option ℕ := none) : Handler String := fun s =>
  let now := s.auth.clock / env.ticksPerSecond
  let expirySeconds := ttl.getD accessTokenExpirySeconds
  let claims := { sub := username, role, iat := now, exp := now + expirySeconds }
  (.ok (env.jwt.encode claims), { s with minted := claims :: s.minted })

/-- `decode_token`. -/
def decodeToken (now : ℕ) (token : String) : Except PyError AccessClaims :=
  match env.jwt.decode now token with
  | .ok claims => .ok claims
  | .error .expiredSignature =>
    .error (authenticationError "Session expired, please log in again")
  | .error .invalidToken => .error (authenticationError "Invalid authentication token")

structure IssuedRefreshToken where
  rawToken : String
  expiresAt : ℕ

/-- `REFRESH_TOKEN_EXPIRY` after a moment. -/
def AuthEnv.refreshExpiry (now : ℕ) : ℕ := now + refreshTokenExpiry * env.ticksPerSecond

/-- `generate_refresh_token`. -/
def drawRefreshToken : Handler String := fun s =>
  (.ok (env.fresh s.auth.generated),
    { s with auth := { s.auth with generated := s.auth.generated + 1 } })

/-- `INSERT INTO refresh_tokens`. -/
def insertRefreshToken (username rawToken : String) (now : ℕ) : Handler Unit :=
  execute env (Exc.modifyExcept fun s =>
    (s.auth.insertRow (env.hash rawToken)
      { username, issuedAt := now, expiresAt := env.refreshExpiry now }).map fun auth =>
        { s with auth })

/-- `issue_refresh_token`. -/
def issueRefresh (username : String) : Handler IssuedRefreshToken := do
  let rawToken ← drawRefreshToken env
  let now ← currentMoment
  withCursor env (insertRefreshToken env username rawToken now)
  return { rawToken, expiresAt := env.refreshExpiry now }

/-- `UPDATE refresh_tokens SET revoked_at = now`, for the token or for the family. -/
def updateRefreshTokens (revoke : AuthState → AuthState) : Handler Unit :=
  execute env (Exc.modify fun s => { s with auth := revoke s.auth })

/-- The first transaction of `rotate_refresh_token`. -/
def checkAndRotateToken (rawToken : String) (now : ℕ) : Handler Checked := do
  match ← execute env (Exc.reads fun s => s.auth.table.get? (env.hash rawToken)) with
  | none => Exc.raise (authenticationError "Invalid refresh token")
  | some row =>
    if row.revokedAt ≠ none then return .reuseDetected row.username
    else if row.expiresAt < now then
      Exc.raise (authenticationError "Refresh token expired, please log in again")
    else
      updateRefreshTokens env fun auth => auth.revokeToken now (env.hash rawToken)
      let newRawToken ← drawRefreshToken env
      insertRefreshToken env row.username newRawToken now
      return .rotated row.username newRawToken

/-- `rotate_refresh_token`. -/
def rotateToken (rawToken : String) : Handler (String × IssuedRefreshToken) := do
  let now ← currentMoment
  match ← withCursor env (checkAndRotateToken env rawToken now) with
  | .reuseDetected username =>
    withCursor env (updateRefreshTokens env fun auth => auth.revokeFamily now username)
    Exc.raise (authenticationError
      "Refresh token reuse detected; all sessions revoked, please log in again")
  | .rotated username newRawToken =>
    return (username, { rawToken := newRawToken, expiresAt := env.refreshExpiry now })

/-- `revoke_all_for_user`. -/
def revokeAll (username : String) : Handler Unit := do
  let now ← currentMoment
  withCursor env (updateRefreshTokens env fun auth => auth.revokeFamily now username)

/-! ### The routes -/

/-- `set_cookie` or `delete_cookie` for `auditflow_refresh_token`. -/
inductive RefreshCookie
  | set (value : String) (maxAge : ℕ)
  | delete
  deriving DecidableEq

/-- `LoginResponse` and `RefreshResponse`, with the cookie that goes with them. -/
structure TokenResponse where
  accessToken : String
  tokenType : String := "bearer"
  role : String
  cookie : RefreshCookie
  deriving DecidableEq

/-- `_set_refresh_cookie`. -/
def setRefreshCookie (token : IssuedRefreshToken) : Handler RefreshCookie := do
  let now ← currentMoment
  return .set token.rawToken ((token.expiresAt - now) / env.ticksPerSecond)

/-- The password check of `login`, made only for an active account. -/
def passwordAccepted (password : String) : Option UserRow → Handler (Option UserRow)
  | none => pure none
  | some row =>
    if row.isActive then do
      let accepted ← Exc.ofExcept (env.checkpw password row.passwordHash)
      return if accepted then some row else none
    else pure none

/-- `POST /login`. -/
def login (username password : String) : Handler TokenResponse := do
  let userRow ← getUserByUsername env username
  match ← passwordAccepted env password userRow with
  | none => Exc.raise (authenticationError "Invalid username or password")
  | some row =>
    let accessToken ← issueToken env row.username row.role
    let token ← issueRefresh env row.username
    let cookie ← setRefreshCookie env token
    return { accessToken, role := row.role, cookie }

/-- The rest of `/refresh`, after the rotation. -/
def refreshFor (username : String) (newRefresh : IssuedRefreshToken) : Handler TokenResponse := do
  match ← getUserByUsername env username with
  | none =>
    revokeAll env username
    -- the cookie that is cleared here is lost with the response
    Exc.raise (authenticationError "Account no longer active, please log in again")
  | some row =>
    if row.isActive then
      let accessToken ← issueToken env username row.role
      let cookie ← setRefreshCookie env newRefresh
      return { accessToken, role := row.role, cookie }
    else
      revokeAll env username
      Exc.raise (authenticationError "Account no longer active, please log in again")

/-- `POST /refresh`, with the cookie that the request carries. -/
def refresh (cookie : Option String) : Handler TokenResponse :=
  match truthy cookie with
  | none => Exc.raise (authenticationError "No refresh token provided")
  | some rawToken => do
    let (username, newRefresh) ← rotateToken env rawToken
    refreshFor env username newRefresh

/-- `_resolve_owner_for_logout`. -/
def resolveOwnerForLogout (rawToken : String) : Handler (Option String) :=
  withCursor env (execute env (Exc.reads fun s =>
    (s.auth.table.get? (env.hash rawToken)).map TokenRow.username))

/-- `POST /logout`. -/
def logout (cookie : Option String) : Handler RefreshCookie :=
  match truthy cookie with
  | none => pure .delete
  | some rawToken => do
    match ← resolveOwnerForLogout env rawToken with
    | none => return .delete
    | some owner =>
      revokeAll env owner
      return .delete

/-! ### The guard of the other routes -/

/-- `CurrentUser`. -/
structure CurrentUser where
  username : String
  role : String
  deriving DecidableEq

/-- `get_current_user`. -/
def getCurrentUser (now : ℕ) (authorization : Option String) : Except PyError CurrentUser :=
  match truthy authorization with
  | none => .error (authenticationError "Missing or malformed Authorization header")
  | some header =>
    if "Bearer ".toList.isPrefixOf header.toList then do
      let token := String.ofList (Text.strip (header.toList.drop "Bearer ".length))
      let claims ← decodeToken env now token
      return { username := claims.sub, role := claims.role }
    else .error (authenticationError "Missing or malformed Authorization header")

/-- `require_permission(resource, action)`. -/
def requirePermission (resource action : String) (now : ℕ) (authorization : Option String) :
    Except PyError CurrentUser := do
  let user ← getCurrentUser env now authorization
  if env.enforce user.role resource action then return user
  else .error {
    cls := .authorizationError
    message := s!"Role '{user.role}' is not permitted to {action} on {resource}"
    detail := [("role", user.role), ("resource", resource), ("action", action)] }

/-! ### Runs -/

/-- A request to one of the routes. -/
inductive RouteCall
  | login (username password : String)
  | refresh (cookie : Option String)
  | logout (cookie : Option String)

/-- Time passes, a request is served, or somebody changes, adds or deletes an account. -/
inductive RouteLabel
  | tick (d : ℕ)
  | call (call : RouteCall)
  | setAccount (username : String) (account : Option Account)

/-- The state after a request. -/
def afterRequest (s : RoutesState) : RouteCall → RoutesState
  | .login username password => (login env username password s).2
  | .refresh cookie => (refresh env cookie s).2
  | .logout cookie => (logout env cookie s).2

/-- One label of a run. -/
def routeStep (s : RoutesState) : RouteLabel → RoutesState
  | .tick d => { s with auth := { s.auth with clock := s.auth.clock + d } }
  | .call call => afterRequest env s call
  | .setAccount username (some account) => { s with users := s.users.set username account }
  | .setAccount username none => { s with users := s.users.erase username }

/-- No token has been issued yet. -/
def RoutesState.start (clock : ℕ) (users : Dict String Account) : RoutesState :=
  { auth := { clock, table := .empty, generated := 0 }, users }

/-- A run of labels. -/
def routesRun (clock : ℕ) (users : Dict String Account) (labels : List RouteLabel) : RoutesState :=
  labels.foldl (routeStep env) (.start clock users)

end

/-! ### Operations of the database -/

section

variable {env : AuthEnv} {α : Type} {s : RoutesState}

/-- The state after one more operation. -/
def RoutesState.asked (s : RoutesState) : RoutesState := { s with operations := s.operations + 1 }

private theorem dbOperation_bind (f : DbOutcome → Handler α) :
    (dbOperation env >>= f) s = f (env.db s.operations) s.asked := rfl

theorem execute_of_done {statement : Handler α} (h : env.db s.operations = .done) :
    execute env statement s = statement s.asked := by
  rw [execute, dbOperation_bind, h]

theorem execute_of_failed {statement : Handler α} (h : env.db s.operations ≠ .done) :
    ∃ message, execute env statement s = (.error (queryFailed message), s.asked) := by
  rw [execute, dbOperation_bind]
  rcases hdb : env.db s.operations with - | message | message
  · exact absurd hdb h
  · exact ⟨message, rfl⟩
  · exact ⟨message, rfl⟩

/-- A statement that returned was let through by the database. -/
theorem execute_eq_ok {statement : Handler α} {a : α} {s' : RoutesState}
    (h : execute env statement s = (.ok a, s')) :
    env.db s.operations = .done ∧ statement s.asked = (.ok a, s') := by
  by_cases hdone : env.db s.operations = .done
  · rw [execute_of_done hdone] at h
    exact ⟨hdone, h⟩
  · obtain ⟨message, hfailed⟩ := execute_of_failed hdone
    rw [hfailed] at h
    cases (Prod.mk.inj h).1

/-- What a statement raises: a failed query, or an exception of its own. -/
theorem execute_eq_error {statement : Handler α} {e : PyError} {s' : RoutesState}
    (h : execute env statement s = (.error e, s')) :
    (∃ message, e = queryFailed message) ∨ statement s.asked = (.error e, s') := by
  by_cases hdone : env.db s.operations = .done
  · rw [execute_of_done hdone] at h
    exact Or.inr h
  · obtain ⟨message, hfailed⟩ := execute_of_failed hdone
    rw [hfailed] at h
    exact Or.inl ⟨message, (Except.error.inj (Prod.mk.inj h).1).symm⟩

theorem withCursor_of_done {body : Handler α} (h : env.db s.operations = .done) :
    withCursor env body s = transaction env body s.asked := by
  rw [withCursor, dbOperation_bind, h]

theorem withCursor_of_failed {body : Handler α} (h : env.db s.operations ≠ .done) :
    ∃ message, withCursor env body s = (.error (psycopgError message), s.asked) := by
  rw [withCursor, dbOperation_bind]
  rcases hdb : env.db s.operations with - | message | message
  · exact absurd hdb h
  · exact ⟨message, rfl⟩
  · exact ⟨message, rfl⟩

/-- A transaction that returned has returned from its body and is committed. -/
theorem transaction_eq_ok {body : Handler α} {a : α} {s' : RoutesState}
    (h : transaction env body s = (.ok a, s')) :
    ∃ s₁, body s = (.ok a, s₁) ∧ env.db s₁.operations = .done ∧ s' = s₁.asked := by
  rw [transaction] at h
  rcases hbody : body s with ⟨e | b, s₁⟩
  · rw [hbody] at h
    cases (Prod.mk.inj h).1
  · rw [hbody] at h
    dsimp only at h
    split at h
    · rename_i hdone
      obtain ⟨hb, rfl⟩ := Prod.mk.inj h
      obtain rfl := Except.ok.inj hb
      exact ⟨s₁, rfl, hdone, rfl⟩
    · cases (Prod.mk.inj h).1
    · cases (Prod.mk.inj h).1

/-- A block whose connection, body and commit work. -/
theorem withCursor_of_ok {body : Handler α} {a : α} {s₁ : RoutesState}
    (hconnect : env.db s.operations = .done) (hbody : body s.asked = (.ok a, s₁))
    (hcommit : env.db s₁.operations = .done) : withCursor env body s = (.ok a, s₁.asked) := by
  rw [withCursor_of_done hconnect, transaction, hbody]
  dsimp only
  rw [hcommit]
  rfl

theorem withCursor_eq_ok {body : Handler α} {a : α} {s' : RoutesState}
    (h : withCursor env body s = (.ok a, s')) : env.db s.operations = .done ∧
      ∃ s₁, body s.asked = (.ok a, s₁) ∧ env.db s₁.operations = .done ∧ s' = s₁.asked := by
  by_cases hdone : env.db s.operations = .done
  · rw [withCursor_of_done hdone] at h
    exact ⟨hdone, transaction_eq_ok h⟩
  · obtain ⟨message, hfailed⟩ := withCursor_of_failed hdone
    rw [hfailed] at h
    cases (Prod.mk.inj h).1

/-- How a block on a connection raises: its tables are as before, or its commit has taken effect
without an answer. -/
theorem withCursor_eq_error {body : Handler α} {e : PyError} {s' : RoutesState}
    (h : withCursor env body s = (.error e, s')) :
    (s'.auth.table = s.auth.table ∧
        ((∃ message, e = psycopgError message) ∨ ∃ s₁, body s.asked = (.error e, s₁))) ∨
      ∃ message a s₁, env.db s.operations = .done ∧ body s.asked = (.ok a, s₁) ∧
        env.db s₁.operations = .unacknowledged message ∧ e = psycopgError message ∧
        s' = s₁.asked := by
  by_cases hdone : env.db s.operations = .done
  · rw [withCursor_of_done hdone, transaction] at h
    rcases hbody : body s.asked with ⟨e' | a, s₁⟩
    · rw [hbody] at h
      obtain ⟨he, rfl⟩ := Prod.mk.inj h
      obtain rfl := Except.error.inj he
      exact Or.inl ⟨rfl, Or.inr ⟨s₁, rfl⟩⟩
    · rw [hbody] at h
      dsimp only at h
      split at h
      · cases (Prod.mk.inj h).1
      · rename_i message _
        obtain ⟨he, rfl⟩ := Prod.mk.inj h
        exact Or.inl ⟨rfl, Or.inl ⟨message, (Except.error.inj he).symm⟩⟩
      · rename_i message hcommit
        obtain ⟨he, rfl⟩ := Prod.mk.inj h
        exact Or.inr ⟨message, a, s₁, hdone, rfl, hcommit, (Except.error.inj he).symm, rfl⟩
  · obtain ⟨message, hfailed⟩ := withCursor_of_failed hdone
    rw [hfailed] at h
    obtain ⟨he, rfl⟩ := Prod.mk.inj h
    exact Or.inl ⟨rfl, Or.inl ⟨message, (Except.error.inj he).symm⟩⟩

/-- The row that `get_user_by_username` returns is in the table. -/
theorem getUserByUsername_eq_ok {username : String} {found : Option UserRow} {s' : RoutesState}
    (h : getUserByUsername env username s = (.ok found, s')) :
    found = (s.users.get? username).map fun account => { account with username } := by
  obtain ⟨-, s₁, hbody, -, -⟩ := withCursor_eq_ok h
  obtain ⟨-, hselect⟩ := execute_eq_ok hbody
  exact (Except.ok.inj (Prod.mk.inj hselect).1).symm

end

end AuditFlow
