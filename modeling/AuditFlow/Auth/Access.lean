import AuditFlow.Auth.Routes

/-!
# How long access outlives an account

Access tokens are checked without a look at the table `users`. What bounds the loss is that a token
is **signed only for an account read in the same request** — at login and at every refresh — and
expires a quarter of an hour later: `mintedFor_of_run` is that invariant along every run, whatever
the database does. So a request that is accepted as a user with a role has a moment in the last
fifteen minutes at which the account was active with that role, `accepted_within_window`.
-/

namespace AuditFlow

open Foundation

/-- The account exists, is active and has the role. -/
def RoutesState.ActiveAs (s : RoutesState) (username role : String) : Prop :=
  ∃ account, s.users.get? username = some account ∧ account.isActive = true ∧ account.role = role

/-- The claims are those of an account that is active now, and expire in a quarter of an hour, from
the whole second that has begun. -/
def MintedFor (env : AuthEnv) (s : RoutesState) (claims : AccessClaims) : Prop :=
  s.ActiveAs claims.sub claims.role ∧
    claims.exp = s.auth.clock / env.ticksPerSecond + accessTokenExpirySeconds

/-- The accounts and the clock are untouched, and tokens are signed for active accounts only. -/
structure Serves (env : AuthEnv) (s s' : RoutesState) : Prop where
  users : s'.users = s.users
  clock : s'.auth.clock = s.auth.clock
  minted : ∀ claims ∈ s'.minted, claims ∈ s.minted ∨ MintedFor env s claims

section

variable {env : AuthEnv} {α : Type} {s s' : RoutesState}

theorem Serves.mintedFor (h : Serves env s s') {claims : AccessClaims} :
    MintedFor env s' claims ↔ MintedFor env s claims := by
  rw [MintedFor, MintedFor, RoutesState.ActiveAs, RoutesState.ActiveAs, h.users, h.clock]

instance : IsPreorder RoutesState (Serves env) where
  refl s := ⟨rfl, rfl, fun _ h => Or.inl h⟩
  trans := by
    intro s₁ s₂ s₃ h h'
    refine ⟨h'.users.trans h.users, h'.clock.trans h.clock, fun claims hclaims => ?_⟩
    rcases h'.minted claims hclaims with hold | hnew
    · exact h.minted claims hold
    · exact Or.inr (h.mintedFor.mp hnew)

/-! ### What the operations do -/

/-- A step that signs nothing, and leaves the accounts and the clock alone. -/
private theorem serves_of_eq (husers : s'.users = s.users) (hclock : s'.auth.clock = s.auth.clock)
    (hminted : s'.minted = s.minted) : Serves env s s' :=
  ⟨husers, hclock, fun _ h => Or.inl (hminted ▸ h)⟩

private theorem reads_serves {f : RoutesState → α} :
    Exc.Moves (Serves env) (Exc.reads f : Handler α) := fun s => Std.Refl.refl s

private theorem dbOperation_serves : Exc.Moves (Serves env) (dbOperation env) :=
  fun _ => serves_of_eq rfl rfl rfl

theorem execute_serves {statement : Handler α} (h : Exc.Moves (Serves env) statement) :
    Exc.Moves (Serves env) (execute env statement) := by
  unfold execute
  refine dbOperation_serves.bind fun outcome => ?_
  cases outcome with
  | done => exact h
  | refused | unacknowledged => exact Exc.moves_raise _

private theorem transaction_serves {body : Handler α} (h : Exc.Moves (Serves env) body) :
    Exc.Moves (Serves env) (transaction env body) := by
  intro s
  have hbody := h s
  rw [transaction]
  rcases hrun : body s with ⟨e | a, s₁⟩
  · rw [hrun] at hbody
    exact ⟨rfl, hbody.clock, hbody.minted⟩
  · rw [hrun] at hbody
    dsimp only
    split
    · exact ⟨hbody.users, hbody.clock, hbody.minted⟩
    · exact ⟨rfl, hbody.clock, hbody.minted⟩
    · exact ⟨hbody.users, hbody.clock, hbody.minted⟩

theorem withCursor_serves {body : Handler α} (h : Exc.Moves (Serves env) body) :
    Exc.Moves (Serves env) (withCursor env body) := by
  unfold withCursor
  refine dbOperation_serves.bind fun outcome => ?_
  cases outcome with
  | done => exact transaction_serves h
  | refused | unacknowledged => exact Exc.moves_raise _

theorem getUserByUsername_serves {username : String} :
    Exc.Moves (Serves env) (getUserByUsername env username) :=
  withCursor_serves (execute_serves reads_serves)

private theorem insertRefreshToken_serves {username rawToken : String} {now : ℕ} :
    Exc.Moves (Serves env) (insertRefreshToken env username rawToken now) := by
  refine execute_serves fun s => ?_
  rw [Exc.modifyExcept, AuthState.insertRow]
  split_ifs
  · exact Std.Refl.refl s
  · exact serves_of_eq rfl rfl rfl

private theorem updateRefreshTokens_serves {revoke : AuthState → AuthState}
    (h : ∀ auth, (revoke auth).clock = auth.clock) :
    Exc.Moves (Serves env) (updateRefreshTokens env revoke) :=
  execute_serves fun s => serves_of_eq rfl (h s.auth) rfl

private theorem drawRefreshToken_serves : Exc.Moves (Serves env) (drawRefreshToken env) :=
  fun _ => serves_of_eq rfl rfl rfl

private theorem issueRefresh_serves {username : String} :
    Exc.Moves (Serves env) (issueRefresh env username) :=
  drawRefreshToken_serves.bind fun _ => reads_serves.bind fun _ =>
    (withCursor_serves insertRefreshToken_serves).bind fun _ => Exc.moves_pure _

private theorem revokeAll_serves {username : String} :
    Exc.Moves (Serves env) (revokeAll env username) :=
  reads_serves.bind fun _ => withCursor_serves (updateRefreshTokens_serves fun _ => rfl)

private theorem checkAndRotateToken_serves {rawToken : String} {now : ℕ} :
    Exc.Moves (Serves env) (checkAndRotateToken env rawToken now) := by
  unfold checkAndRotateToken
  refine (execute_serves reads_serves).bind fun found => ?_
  cases found with
  | none => exact Exc.moves_raise _
  | some row =>
    dsimp only
    split_ifs
    · exact Exc.moves_pure _
    · exact Exc.moves_raise _
    · refine Exc.Moves.bind (updateRefreshTokens_serves ?_) fun _ => ?_
      · exact fun _ => rfl
      · exact drawRefreshToken_serves.bind fun _ => insertRefreshToken_serves.bind fun _ =>
          Exc.moves_pure _

theorem rotateToken_serves {rawToken : String} :
    Exc.Moves (Serves env) (rotateToken env rawToken) := by
  unfold rotateToken
  refine reads_serves.bind fun now => (withCursor_serves checkAndRotateToken_serves).bind ?_
  intro checked
  cases checked with
  | reuseDetected username =>
    refine Exc.Moves.bind (withCursor_serves (updateRefreshTokens_serves ?_)) fun _ => ?_
    · exact fun _ => rfl
    · exact Exc.moves_raise _
  | rotated username newRawToken => exact Exc.moves_pure _

private theorem setRefreshCookie_serves {token : IssuedRefreshToken} :
    Exc.Moves (Serves env) (setRefreshCookie env token) :=
  reads_serves.bind fun _ => Exc.moves_pure _

/-- A token is signed for an account that is active where it is signed. -/
private theorem issueToken_serves {username role : String} (h : s.ActiveAs username role) :
    Serves env s (issueToken env username role none s).2 := by
  refine ⟨rfl, rfl, fun claims hclaims => ?_⟩
  rcases List.mem_cons.mp hclaims with rfl | hold
  · exact Or.inr ⟨h, rfl⟩
  · exact Or.inl hold

/-! ### What the routes do -/

/-- The account that `get_user_by_username` found is active with its role afterwards. -/
theorem activeAs_of_getUserByUsername {username : String} {row : UserRow}
    (h : getUserByUsername env username s = (.ok (some row), s')) (hactive : row.isActive = true) :
    s'.ActiveAs username row.role := by
  have husers : s'.users = s.users := (getUserByUsername_serves.run h).users
  obtain ⟨account, haccount, rfl⟩ := Option.map_eq_some_iff.mp (getUserByUsername_eq_ok h).symm
  exact ⟨account, by rw [husers, haccount], hactive, rfl⟩

/-- Only an active account passes the password check. -/
theorem passwordAccepted_eq_ok {password : String} {found : Option UserRow} {row : UserRow}
    (h : passwordAccepted env password found s = (.ok (some row), s')) :
    found = some row ∧ row.isActive = true ∧ s' = s := by
  cases found with
  | none => cases (Prod.mk.inj h).1
  | some row' =>
    rw [passwordAccepted] at h
    split_ifs at h with hactive
    · obtain ⟨accepted, s₁, hcheck, h⟩ := Exc.bind_eq_ok_iff.mp h
      obtain ⟨-, rfl⟩ := Prod.mk.inj hcheck
      obtain ⟨hrow, rfl⟩ := Prod.mk.inj h
      cases accepted with
      | false => cases hrow
      | true =>
        obtain rfl := Option.some.inj (Except.ok.inj hrow)
        exact ⟨rfl, hactive, rfl⟩
    · cases (Prod.mk.inj h).1

private theorem passwordAccepted_serves {password : String} {found : Option UserRow} :
    Exc.Moves (Serves env) (passwordAccepted env password found) := by
  cases found with
  | none => exact Exc.moves_pure _
  | some row =>
    rw [passwordAccepted]
    split_ifs
    · exact Exc.Moves.bind (fun s => Std.Refl.refl s) fun _ => Exc.moves_pure _
    · exact Exc.moves_pure _

private theorem login_serves {username password : String} :
    Exc.Moves (Serves env) (login env username password) := by
  intro s
  refine Exc.rel_bind (getUserByUsername_serves s) fun found s₁ hfound => ?_
  refine Exc.rel_bind (passwordAccepted_serves s₁) fun accepted s₂ haccepted => ?_
  cases accepted with
  | none => exact Std.Refl.refl s₂
  | some row =>
    obtain ⟨rfl, hactive, rfl⟩ := passwordAccepted_eq_ok haccepted
    have hname : row.username = username := by
      obtain ⟨account, -, rfl⟩ := Option.map_eq_some_iff.mp (getUserByUsername_eq_ok hfound).symm
      rfl
    have hissued : s₂.ActiveAs row.username row.role := by
      rw [hname]
      exact activeAs_of_getUserByUsername hfound hactive
    refine Exc.rel_bind (issueToken_serves hissued) fun accessToken s₃ _ => ?_
    exact (issueRefresh_serves.bind fun _ => setRefreshCookie_serves.bind fun _ =>
      Exc.moves_pure _) s₃

private theorem refreshFor_serves {username : String} {newRefresh : IssuedRefreshToken} :
    Exc.Moves (Serves env) (refreshFor env username newRefresh) := by
  intro s
  refine Exc.rel_bind (getUserByUsername_serves s) fun found s₁ hfound => ?_
  cases found with
  | none => exact (revokeAll_serves.bind fun _ => Exc.moves_raise _) s₁
  | some row =>
    dsimp only
    split_ifs with hactive
    · refine Exc.rel_bind (issueToken_serves (activeAs_of_getUserByUsername hfound hactive)) ?_
      intro accessToken s₂ _
      exact (setRefreshCookie_serves.bind fun _ => Exc.moves_pure _) s₂
    · exact (revokeAll_serves.bind fun _ => Exc.moves_raise _) s₁

private theorem refresh_serves {cookie : Option String} :
    Exc.Moves (Serves env) (refresh env cookie) := by
  unfold refresh
  split
  · exact Exc.moves_raise _
  · exact rotateToken_serves.bind fun _ => refreshFor_serves

private theorem logout_serves {cookie : Option String} :
    Exc.Moves (Serves env) (logout env cookie) := by
  unfold logout
  split
  · exact Exc.moves_pure _
  · refine Exc.Moves.bind (withCursor_serves (execute_serves reads_serves)) fun owner => ?_
    cases owner with
    | none => exact Exc.moves_pure _
    | some owner => exact revokeAll_serves.bind fun _ => Exc.moves_pure _

/-- **Every request signs tokens for active accounts only.** -/
theorem afterRequest_serves (s : RoutesState) (call : RouteCall) :
    Serves env s (afterRequest env s call) := by
  cases call with
  | login username password => exact login_serves s
  | refresh cookie => exact refresh_serves s
  | logout cookie => exact logout_serves s

/-! ### Runs -/

section

variable {clock : ℕ} {users : Dict String Account} {labels : List RouteLabel}

theorem routesRun_append (labels : List RouteLabel) (l : RouteLabel) :
    routesRun env clock users (labels ++ [l]) =
      routeStep env (routesRun env clock users labels) l := by
  rw [routesRun, List.foldl_append]
  rfl

/-- Time does not go back. -/
theorem clock_le_routeStep (s : RoutesState) (l : RouteLabel) :
    s.auth.clock ≤ (routeStep env s l).auth.clock := by
  cases l with
  | tick d => exact Nat.le_add_right _ d
  | call call => exact (afterRequest_serves s call).clock.ge
  | setAccount username account =>
    cases account with
    | none => exact Nat.le_refl _
    | some account => exact Nat.le_refl _

theorem clock_le_of_prefix {before : List RouteLabel} (after : List RouteLabel) :
    (routesRun env clock users before).auth.clock ≤
      (routesRun env clock users (before ++ after)).auth.clock := by
  induction after using List.reverseRecOn with
  | nil => rw [List.append_nil]
  | append_singleton after l ih =>
    rw [← List.append_assoc, routesRun_append]
    exact ih.trans (clock_le_routeStep _ l)

/-- **Every token was signed for an account that was active then.** -/
theorem mintedFor_of_run (labels : List RouteLabel) :
    ∀ claims ∈ (routesRun env clock users labels).minted, ∃ before after,
      labels = before ++ after ∧ MintedFor env (routesRun env clock users before) claims := by
  induction labels using List.reverseRecOn with
  | nil =>
    intro claims hclaims
    cases hclaims
  | append_singleton labels l ih =>
    intro claims hclaims
    have hold (h : claims ∈ (routesRun env clock users labels).minted) : ∃ before after,
        labels ++ [l] = before ++ after ∧
          MintedFor env (routesRun env clock users before) claims := by
      obtain ⟨before, after, rfl, hminted⟩ := ih claims h
      exact ⟨before, after ++ [l], List.append_assoc before after [l], hminted⟩
    rw [routesRun_append] at hclaims
    cases l with
    | tick d => exact hold hclaims
    | call call =>
      rcases (afterRequest_serves _ call).minted claims hclaims with h | hminted
      · exact hold h
      · exact ⟨labels, [.call call], rfl, hminted⟩
    | setAccount username account =>
      cases account with
      | none => exact hold hclaims
      | some account => exact hold hclaims

end

/-! ### Acceptance -/

/-- What is relied on of the JWT library and of the secrecy of the server's key: a token that
decodes carries claims that `issue_token` has signed, and has not expired. -/
structure Jwt.Trusted (jwt : Jwt) (ticksPerSecond : ℕ) (s : RoutesState) : Prop where
  minted : ∀ token claims, jwt.decode s.auth.clock token = .ok claims → claims ∈ s.minted
  unexpired : ∀ token claims, jwt.decode s.auth.clock token = .ok claims →
    s.auth.clock < claims.exp * ticksPerSecond

/-- The request is let through as the user with the role. -/
def LetsThrough (env : AuthEnv) (s : RoutesState) (resource action : String)
    (authorization : Option String) (username role : String) : Prop :=
  requirePermission env resource action s.auth.clock authorization = .ok { username, role }

/-- What is let through presents a token that decodes. -/
theorem decode_of_letsThrough {resource action : String} {authorization : Option String}
    {username role : String} (h : LetsThrough env s resource action authorization username role) :
    ∃ token claims, env.jwt.decode s.auth.clock token = .ok claims ∧ claims.sub = username ∧
      claims.role = role := by
  have huser : getCurrentUser env s.auth.clock authorization = .ok { username, role } := by
    rw [LetsThrough, requirePermission] at h
    rcases hcurrent : getCurrentUser env s.auth.clock authorization with e | user
    · rw [hcurrent] at h
      cases h
    · simp only [hcurrent, bind, Except.bind] at h
      split_ifs at h
      exact h
  rw [getCurrentUser] at huser
  split at huser
  · cases huser
  · rename_i header _
    split_ifs at huser
    dsimp only at huser
    refine ⟨String.ofList (Text.strip (header.toList.drop "Bearer ".length)), ?_⟩
    rw [decodeToken] at huser
    rcases hdecode : env.jwt.decode s.auth.clock
        (String.ofList (Text.strip (header.toList.drop "Bearer ".length))) with e | claims
    · rw [hdecode] at huser
      cases e <;> cases huser
    · rw [hdecode] at huser
      cases huser
      exact ⟨claims, rfl, rfl, rfl⟩

/-- A token outlives its issue by less than the expiry, whole seconds being rounded down. -/
theorem lt_of_unexpired {now issued ticks : ℕ}
    (h : now < (issued / ticks + accessTokenExpirySeconds) * ticks) :
    now < issued + accessTokenExpirySeconds * ticks := by
  have hfloor : issued / ticks * ticks ≤ issued := Nat.div_mul_le_self issued ticks
  rw [Nat.add_mul] at h
  omega

/-- **Bounded loss of access.** Whoever is let through as a user with a role was an active account
with that role at a moment of the last fifteen minutes; so an account that has been inactive or had
another role for that long is not let through, however many refresh tokens it holds. -/
theorem accepted_within_window (env : AuthEnv) (clock : ℕ) (users : Dict String Account)
    (labels : List RouteLabel) (resource action : String) (authorization : Option String)
    (username role : String)
    (hjwt : env.jwt.Trusted env.ticksPerSecond (routesRun env clock users labels)) :
    (LetsThrough env (routesRun env clock users labels) resource action authorization username
        role →
      ∃ before after, labels = before ++ after ∧
        (routesRun env clock users labels).auth.clock <
          (routesRun env clock users before).auth.clock +
            accessTokenExpirySeconds * env.ticksPerSecond ∧
        (routesRun env clock users before).auth.clock ≤
          (routesRun env clock users labels).auth.clock ∧
        (routesRun env clock users before).ActiveAs username role) ∧
    ((∀ before after, labels = before ++ after →
        (routesRun env clock users labels).auth.clock <
          (routesRun env clock users before).auth.clock +
            accessTokenExpirySeconds * env.ticksPerSecond →
        ¬(routesRun env clock users before).ActiveAs username role) →
      ¬LetsThrough env (routesRun env clock users labels) resource action authorization username
        role) := by
  have hwindow (h : LetsThrough env (routesRun env clock users labels) resource action authorization
      username role) : ∃ before after, labels = before ++ after ∧
        (routesRun env clock users labels).auth.clock <
          (routesRun env clock users before).auth.clock +
            accessTokenExpirySeconds * env.ticksPerSecond ∧
        (routesRun env clock users before).ActiveAs username role := by
    obtain ⟨token, claims, hdecode, rfl, rfl⟩ := decode_of_letsThrough h
    obtain ⟨before, after, hsplit, hactive, hexp⟩ :=
      mintedFor_of_run labels claims (hjwt.minted token claims hdecode)
    have hunexpired := hjwt.unexpired token claims hdecode
    rw [hexp] at hunexpired
    exact ⟨before, after, hsplit, lt_of_unexpired hunexpired, hactive⟩
  constructor
  · intro h
    obtain ⟨before, after, rfl, hlt, hactive⟩ := hwindow h
    exact ⟨before, after, rfl, hlt, clock_le_of_prefix after, hactive⟩
  · intro hnever h
    obtain ⟨before, after, hsplit, hlt, hactive⟩ := hwindow h
    exact hnever before after hsplit hlt hactive

end

/-! ### A concrete run -/

/-- The claims of a token for `alice`, an employee, signed in the second second. -/
def aliceClaims : AccessClaims := { sub := "alice", role := "employee", iat := 2, exp := 902 }

/-- A server whose clock ticks ten times a second, and whose database does not fail. -/
def aliceEnv : AuthEnv where
  hash token := "sha256:" ++ token
  fresh n := s!"token-{n}"
  ticksPerSecond := 10
  checkpw password passwordHash := .ok (decide ("bcrypt:" ++ password = passwordHash))
  jwt := {
    encode := fun claims => if claims = aliceClaims then "h.p.s" else "h.x.s"
    decode := fun now token =>
      if token = "h.p.s" then
        if now < aliceClaims.exp * 10 then .ok aliceClaims else .error .expiredSignature
      else .error .invalidToken }
  enforce role resource action :=
    decide (role = "employee") && decide (resource = "ask") && decide (action = "execute")
  db _ := .done

/-- `alice` logs in after 2.5 seconds, is deactivated, and asks ten minutes later. -/
def aliceLabels : List RouteLabel :=
  [.tick 25, .call (.login "alice" "secret"),
   .setAccount "alice" (some
     { passwordHash := "bcrypt:secret", role := "employee", isActive := false }),
   .tick 6000]

def aliceUsers : Dict String Account :=
  Dict.empty.set "alice" { passwordHash := "bcrypt:secret", role := "employee", isActive := true }

/-- Nothing but the sample token decodes. -/
theorem trusted_alice {s : RoutesState} (hminted : s.minted = [aliceClaims]) :
    aliceEnv.jwt.Trusted aliceEnv.ticksPerSecond s := by
  have hdecodes {now : ℕ} {token : String} {claims : AccessClaims}
      (h : aliceEnv.jwt.decode now token = .ok claims) :
      claims = aliceClaims ∧ now < aliceClaims.exp * 10 := by
    simp only [aliceEnv] at h
    split_ifs at h with htoken hnow
    exact ⟨(Except.ok.inj h).symm, hnow⟩
  constructor
  · intro token claims h
    rw [hminted, (hdecodes h).1]
    exact List.mem_singleton_self aliceClaims
  · intro token claims h
    obtain ⟨rfl, hnow⟩ := hdecodes h
    exact hnow

/-- `accepted_within_window` for a request after ten minutes, which is let through. -/
theorem accepted_within_window_alice :
    LetsThrough aliceEnv (routesRun aliceEnv 0 aliceUsers aliceLabels) "ask" "execute"
        (some "Bearer h.p.s") "alice" "employee" ∧
      ∃ before after, aliceLabels = before ++ after ∧
        (routesRun aliceEnv 0 aliceUsers aliceLabels).auth.clock <
          (routesRun aliceEnv 0 aliceUsers before).auth.clock +
            accessTokenExpirySeconds * aliceEnv.ticksPerSecond ∧
        (routesRun aliceEnv 0 aliceUsers before).auth.clock ≤
          (routesRun aliceEnv 0 aliceUsers aliceLabels).auth.clock ∧
        (routesRun aliceEnv 0 aliceUsers before).ActiveAs "alice" "employee" := by
  have hminted : (routesRun aliceEnv 0 aliceUsers aliceLabels).minted = [aliceClaims] := by
    decide +kernel
  have hthrough : LetsThrough aliceEnv (routesRun aliceEnv 0 aliceUsers aliceLabels) "ask" "execute"
      (some "Bearer h.p.s") "alice" "employee" := by
    rw [LetsThrough]
    decide +kernel
  exact ⟨hthrough, (accepted_within_window aliceEnv 0 aliceUsers aliceLabels "ask" "execute"
    (some "Bearer h.p.s") "alice" "employee" (trusted_alice hminted)).1 hthrough⟩

end AuditFlow
