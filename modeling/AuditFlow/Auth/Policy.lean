import AuditFlow.Auth.Access
import AuditFlow.Foundation.Hierarchy
import AuditFlow.Store.Migrations

/-!
# The policy

Who may do what is written in `RBAC/policy.csv`, and `RBAC/casbin_model.conf` says how it is read:
the roles inherit along the `g` lines, and the matcher compares a request with a `p` line. The
enforcer is Casbin's own, and `Enforces` is what is relied on of it.

The four roles are ranked by what they inherit from, and a permission requires a rank — those that
the file does not list require the highest. **An enforcer compares the two** (`policy_permits_iff`),
for whatever strings it is asked about.

With this policy the guard of the routes is tied to the accounts from both sides: who is let through
has been an active account of the last quarter of an hour with a sufficient rank
(`least_privilege`), and a token that has been handed out opens, as long, exactly what the rank of
its account suffices for (`token_opens_permitted`).
-/

namespace AuditFlow

open Foundation

/-! ### The files -/

/-- A request, and a `p` line: `sub, obj, act`. -/
structure Rule where
  sub : String
  obj : String
  act : String
  deriving DecidableEq

/-- `m` of `casbin_model.conf`. -/
def matcher (g : String → String → Prop) (r p : Rule) : Prop :=
  g r.sub p.sub ∧ (p.obj = "*" ∨ r.obj = p.obj) ∧ (p.act = "*" ∨ r.act = p.act)

instance (g : String → String → Prop) [DecidableRel g] (r p : Rule) : Decidable (matcher g r p) :=
  inferInstanceAs (Decidable (_ ∧ _))

/-- A policy file: its `g` lines and its `p` lines. -/
structure PolicyFile where
  g : List (String × String)
  p : List Rule

/-- `RBAC/policy.csv`. -/
def policyCsv : PolicyFile where
  g := [("employee", "viewer"), ("ceo", "employee"), ("admin", "ceo")]
  p := [⟨"viewer", "ask", "execute"⟩, ⟨"viewer", "history", "read_own"⟩,
    ⟨"admin", "history", "read_all"⟩, ⟨"employee", "documents", "read"⟩,
    ⟨"employee", "documents", "write"⟩, ⟨"ceo", "documents", "delete"⟩,
    ⟨"ceo", "reports", "read"⟩, ⟨"admin", "*", "*"⟩]

/-- A `p` line of the file matches the request, where by `g` a role is itself and all that it
inherits from: `some(where (p.eft == allow))`. -/
def PolicyFile.Allows (policy : PolicyFile) (r : Rule) : Prop :=
  ∃ p ∈ policy.p, matcher (Inherits policy.g) r p

instance (policy : PolicyFile) (r : Rule) : Decidable (policy.Allows r) :=
  inferInstanceAs (Decidable (∃ p ∈ policy.p, matcher (Inherits policy.g) r p))

/-- **What is relied on of Casbin**: an enforcer that is made of `casbin_model.conf` and a policy
file, of no more links than it follows, permits what the file allows. -/
def Enforces (enforce : String → String → String → Bool) (policy : PolicyFile) : Prop :=
  ∀ sub obj act, enforce sub obj act = true ↔ policy.Allows ⟨sub, obj, act⟩

/-! ### Ranks -/

/-- The object and the action of a rule. -/
structure Permission where
  obj : String
  act : String
  deriving DecidableEq

/-- The rank of a role. -/
def rank (role : String) : Option ℕ := validRoles.idxOf? role

/-- What requires the first ranks. -/
def permissionsByRank : List (List Permission) :=
  [[⟨"ask", "execute"⟩, ⟨"history", "read_own"⟩],
    [⟨"documents", "read"⟩, ⟨"documents", "write"⟩],
    [⟨"documents", "delete"⟩, ⟨"reports", "read"⟩]]

/-- The rank that a permission requires: if it is not listed, the one of an admin. -/
def requiredRank (obj act : String) : ℕ :=
  permissionsByRank.findIdx fun permissions => decide (⟨obj, act⟩ ∈ permissions)

/-- The role has the rank that is required. -/
def Permitted (role obj act : String) : Prop :=
  ∃ r, rank role = some r ∧ requiredRank obj act ≤ r

instance (role obj act : String) : Decidable (Permitted role obj act) :=
  inferInstanceAs (Decidable (∃ r ∈ rank role, requiredRank obj act ≤ r))

/-- A link goes to the rank below. -/
private theorem rank_of_link : ∀ l ∈ policyCsv.g,
    ∃ i ∈ List.range 4, ∃ j ∈ List.range 4, rank l.1 = some i ∧ rank l.2 = some j ∧ j ≤ i := by
  decide +kernel

/-- From a rank the links lead to all ranks below. -/
private theorem inherits_of_rank : ∀ a ∈ validRoles, ∀ b ∈ validRoles, ∀ i ∈ rank a, ∀ j ∈ rank b,
    j ≤ i → Inherits policyCsv.g a b := by
  decide +kernel

/-- A rule is for a rank that what it is about requires, or is the one about everything. -/
private theorem rank_of_rule : ∀ p ∈ policyCsv.p, ∃ j ∈ List.range 4,
    rank p.sub = some j ∧ (j = 3 ∨ p.obj ≠ "*" ∧ p.act ≠ "*" ∧ requiredRank p.obj p.act ≤ j) := by
  decide +kernel

/-- What requires a rank has a rule for the role of this rank. -/
private theorem rule_of_rank : ∀ k < 3, ∀ permission ∈ (permissionsByRank[k]?).getD [],
    ∃ role ∈ validRoles, rank role = some k ∧
      ⟨role, permission.obj, permission.act⟩ ∈ policyCsv.p := by
  decide +kernel

private theorem mem_of_rank {role : String} {i : ℕ} (h : rank role = some i) :
    role ∈ validRoles ∧ i < 4 := by
  obtain ⟨hlt, heq, -⟩ := List.idxOf?_eq_some_iff.mp h
  exact ⟨heq ▸ List.getElem_mem hlt, hlt⟩

/-- **A role inherits from the ranks below.** -/
private theorem inherits_iff {a b : String} : Inherits policyCsv.g a b ↔
    a = b ∨ ∃ i j, rank a = some i ∧ rank b = some j ∧ j ≤ i := by
  constructor
  · intro h
    refine h.rank_le fun l hl => ?_
    obtain ⟨i, -, j, -, hranks⟩ := rank_of_link l hl
    exact ⟨i, j, hranks⟩
  · rintro (rfl | ⟨i, j, hi, hj, hle⟩)
    · exact Relation.ReflTransGen.refl
    · exact inherits_of_rank a (mem_of_rank hi).1 b (mem_of_rank hj).1 i hi j hj hle

private theorem requiredRank_le (obj act : String) : requiredRank obj act ≤ 3 :=
  List.findIdx_le_length

/-- **What the file allows** are the ranks that suffice. -/
private theorem allows_iff {sub obj act : String} :
    policyCsv.Allows ⟨sub, obj, act⟩ ↔ Permitted sub obj act := by
  constructor
  · rintro ⟨p, hp, hrole, hobj, hact⟩
    obtain ⟨j, -, hj, hrequired⟩ := rank_of_rule p hp
    have hle : requiredRank obj act ≤ j := by
      rcases hrequired with rfl | ⟨hstarObj, hstarAct, hle⟩
      · exact requiredRank_le obj act
      · obtain rfl : obj = p.obj := hobj.resolve_left hstarObj
        obtain rfl : act = p.act := hact.resolve_left hstarAct
        exact hle
    rcases inherits_iff.mp hrole with heq | ⟨i, j', hi, hj', hij⟩
    · obtain rfl : sub = p.sub := heq
      exact ⟨j, hj, hle⟩
    · obtain rfl : j = j' := Option.some.inj (hj.symm.trans hj')
      exact ⟨i, hi, hle.trans hij⟩
  · rintro ⟨i, hi, hle⟩
    rcases (requiredRank_le obj act).eq_or_lt with hadmin | hlisted
    · -- the highest rank is that of an admin, who has the rule about everything
      have hinherits : Inherits policyCsv.g sub "admin" :=
        inherits_iff.mpr (Or.inr ⟨i, 3, hi, rfl, hadmin ▸ hle⟩)
      exact ⟨⟨"admin", "*", "*"⟩, by decide, hinherits, Or.inl rfl, Or.inl rfl⟩
    · have hmem : (⟨obj, act⟩ : Permission) ∈
          (permissionsByRank[requiredRank obj act]?).getD [] := by
        rw [List.getElem?_eq_getElem hlisted]
        exact of_decide_eq_true (List.findIdx_getElem (w := hlisted))
      obtain ⟨role, -, hrole, hrule⟩ := rule_of_rank (requiredRank obj act) hlisted ⟨obj, act⟩ hmem
      exact ⟨⟨role, obj, act⟩, hrule, inherits_iff.mpr (Or.inr ⟨i, _, hi, hrole, hle⟩),
        Or.inr rfl, Or.inr rfl⟩

/-- The same of an enforcer of the file. -/
private theorem permits_iff_permitted {enforce : String → String → String → Bool}
    (hcasbin : Enforces enforce policyCsv) {sub obj act : String} :
    enforce sub obj act = true ↔ Permitted sub obj act :=
  (hcasbin sub obj act).trans allows_iff

/-- **The enforcer compares ranks.** For whatever role, object and action, an enforcer of the policy
file permits the request exactly if the role is one of the four and its rank is the required one or
a higher one. -/
theorem policy_permits_iff (enforce : String → String → String → Bool)
    (hcasbin : Enforces enforce policyCsv) (sub obj act : String) :
    enforce sub obj act = true ↔ Permitted sub obj act :=
  permits_iff_permitted hcasbin

/-- An enforcer that goes through the lines. -/
def enforceCsv (sub obj act : String) : Bool := decide (policyCsv.Allows ⟨sub, obj, act⟩)

theorem enforces_enforceCsv : Enforces enforceCsv policyCsv := fun _ _ _ => decide_eq_true_iff

/-- `policy_permits_iff` for the deletion of a document, by a ceo and by an employee. -/
theorem policy_permits_iff_delete : enforceCsv "ceo" "documents" "delete" = true ∧
    ¬enforceCsv "employee" "documents" "delete" = true := by
  constructor
  · exact (policy_permits_iff enforceCsv enforces_enforceCsv _ _ _).mpr ⟨2, by decide, by decide⟩
  · rw [policy_permits_iff enforceCsv enforces_enforceCsv]
    decide

/-! ### Who is let through -/

section

variable {env : AuthEnv} {s s' : RoutesState}

private theorem permitted_of_letsThrough {resource action : String} {authorization : Option String}
    {username role : String} (hcasbin : Enforces env.enforce policyCsv)
    (h : LetsThrough env s resource action authorization username role) :
    Permitted role resource action := by
  rw [LetsThrough, requirePermission] at h
  rcases hcurrent : getCurrentUser env s.auth.clock authorization with e | user
  · rw [hcurrent] at h
    cases h
  · simp only [hcurrent, bind, Except.bind] at h
    split_ifs at h with henforce
    obtain rfl : user = { username, role } := Except.ok.inj h
    exact (permits_iff_permitted hcasbin).mp henforce

/-- **Least privilege.** Whoever is let through to an action on a resource has, by the policy, a
role of the required rank, and was an active account with this very role at a moment of the last
fifteen minutes. -/
theorem least_privilege (env : AuthEnv) (clock : ℕ) (users : Dict String Account)
    (labels : List RouteLabel) (resource action : String) (authorization : Option String)
    (username role : String) (hcasbin : Enforces env.enforce policyCsv)
    (hjwt : env.jwt.Trusted env.ticksPerSecond (routesRun env clock users labels))
    (h : LetsThrough env (routesRun env clock users labels) resource action authorization username
      role) :
    ∃ before after r, labels = before ++ after ∧ rank role = some r ∧
      requiredRank resource action ≤ r ∧
      (routesRun env clock users before).ActiveAs username role ∧
      (routesRun env clock users labels).auth.clock <
        (routesRun env clock users before).auth.clock +
          accessTokenExpirySeconds * env.ticksPerSecond := by
  obtain ⟨r, hr, hle⟩ := permitted_of_letsThrough hcasbin h
  obtain ⟨token, claims, hdecode, rfl, rfl⟩ := decode_of_letsThrough h
  obtain ⟨before, after, hsplit, hactive, hexp⟩ :=
    mintedFor_of_run labels claims (hjwt.minted token claims hdecode)
  have hunexpired := hjwt.unexpired token claims hdecode
  rw [hexp] at hunexpired
  exact ⟨before, after, r, hsplit, hr, hle, hactive, lt_of_unexpired hunexpired⟩

/-- The server of the sample, with an enforcer of the policy. -/
def aliceServer : AuthEnv := { aliceEnv with enforce := enforceCsv }

/-- `least_privilege` for a request after ten minutes: an employee who is inactive by then asks. -/
theorem least_privilege_alice :
    ∃ before after r, aliceLabels = before ++ after ∧ rank "employee" = some r ∧
      requiredRank "ask" "execute" ≤ r ∧
      (routesRun aliceServer 0 aliceUsers before).ActiveAs "alice" "employee" ∧
      (routesRun aliceServer 0 aliceUsers aliceLabels).auth.clock <
        (routesRun aliceServer 0 aliceUsers before).auth.clock +
          accessTokenExpirySeconds * aliceServer.ticksPerSecond := by
  have hminted : (routesRun aliceServer 0 aliceUsers aliceLabels).minted = [aliceClaims] := by
    decide +kernel
  have hthrough : LetsThrough aliceServer (routesRun aliceServer 0 aliceUsers aliceLabels) "ask"
      "execute" (some "Bearer h.p.s") "alice" "employee" := by
    rw [LetsThrough]
    decide +kernel
  exact least_privilege aliceServer 0 aliceUsers aliceLabels "ask" "execute"
    (some "Bearer h.p.s") "alice" "employee" enforces_enforceCsv (trusted_alice hminted) hthrough

/-! ### What a token opens -/

/-- What is relied on of the JWT library: the token that it makes of the claims decodes, from the
second of its issue until it expires, and it has no blanks. -/
structure Jwt.Carries (jwt : Jwt) (ticksPerSecond : ℕ) (claims : AccessClaims) : Prop where
  decodes : ∀ now, claims.iat * ticksPerSecond ≤ now → now < claims.exp * ticksPerSecond →
    jwt.decode now (jwt.encode claims) = .ok claims
  noSpace : ∀ c ∈ (jwt.encode claims).toList, Text.isSpace c = false

/-- What `issue_token` signs at this moment. -/
def AuthEnv.claimsAt (env : AuthEnv) (s : RoutesState) (username role : String) : AccessClaims where
  sub := username
  role := role
  iat := s.auth.clock / env.ticksPerSecond
  exp := s.auth.clock / env.ticksPerSecond + accessTokenExpirySeconds

/-- The token in the response has been issued to an account that is active with the role of the
response. -/
private theorem login_eq_ok {username password : String} {response : TokenResponse}
    (h : login env username password s = (.ok response, s')) :
    s.ActiveAs username response.role ∧
      response.accessToken = env.jwt.encode (env.claimsAt s username response.role) := by
  obtain ⟨found, s₁, hfound, hcheck⟩ := Exc.bind_eq_ok_iff.mp h
  obtain ⟨accepted, s₂, haccepted, hrest⟩ := Exc.bind_eq_ok_iff.mp hcheck
  cases accepted with
  | none => cases (Prod.mk.inj hrest).1
  | some row =>
    obtain ⟨rfl, hactive, rfl⟩ := passwordAccepted_eq_ok haccepted
    have hserves := getUserByUsername_serves.run hfound
    have hname : row.username = username := by
      obtain ⟨account, -, rfl⟩ := Option.map_eq_some_iff.mp (getUserByUsername_eq_ok hfound).symm
      rfl
    obtain ⟨accessToken, s₃, hissue, hrefresh⟩ := Exc.bind_eq_ok_iff.mp hrest
    obtain ⟨token, s₄, -, hcookie⟩ := Exc.bind_eq_ok_iff.mp hrefresh
    obtain ⟨cookie, s₅, -, hreturn⟩ := Exc.bind_eq_ok_iff.mp hcookie
    obtain ⟨hresponse, -⟩ := Prod.mk.inj hreturn
    obtain rfl := Except.ok.inj hresponse
    obtain ⟨hencoded, -⟩ := Prod.mk.inj hissue
    refine ⟨?_, ?_⟩
    · obtain ⟨account, haccount, hrest⟩ := activeAs_of_getUserByUsername hfound hactive
      exact ⟨account, by rw [← hserves.users, haccount], hrest⟩
    · dsimp only
      rw [← Except.ok.inj hencoded, hname, AuthEnv.claimsAt, ← hserves.clock]
      rfl

private theorem refresh_eq_ok {cookie : Option String} {response : TokenResponse}
    (h : refresh env cookie s = (.ok response, s')) :
    ∃ username, s.ActiveAs username response.role ∧
      response.accessToken = env.jwt.encode (env.claimsAt s username response.role) := by
  rcases hcookie : truthy cookie with - | rawToken
  · rw [refresh, hcookie] at h
    cases (Prod.mk.inj h).1
  · rw [refresh, hcookie] at h
    obtain ⟨⟨username, newRefresh⟩, s₁, hrotate, h⟩ := Exc.bind_eq_ok_iff.mp h
    obtain ⟨found, s₂, hfound, h⟩ := Exc.bind_eq_ok_iff.mp h
    have hserves : Serves env s s₂ := Trans.trans (rotateToken_serves.run hrotate)
      (getUserByUsername_serves.run hfound)
    cases found with
    | none =>
      obtain ⟨-, s₃, -, h⟩ := Exc.bind_eq_ok_iff.mp h
      cases (Prod.mk.inj h).1
    | some row =>
      dsimp only at h
      split_ifs at h with hactive
      · obtain ⟨accessToken, s₃, hissue, h⟩ := Exc.bind_eq_ok_iff.mp h
        obtain ⟨cookie', s₄, -, h⟩ := Exc.bind_eq_ok_iff.mp h
        obtain ⟨hresponse, -⟩ := Prod.mk.inj h
        obtain rfl := Except.ok.inj hresponse
        obtain ⟨hencoded, -⟩ := Prod.mk.inj hissue
        refine ⟨username, ?_, ?_⟩
        · obtain ⟨account, haccount, hrest⟩ := activeAs_of_getUserByUsername hfound hactive
          exact ⟨account, by rw [← hserves.users, haccount], hrest⟩
        · dsimp only
          rw [← Except.ok.inj hencoded, AuthEnv.claimsAt, ← hserves.clock]
          rfl
      · obtain ⟨-, s₃, -, h⟩ := Exc.bind_eq_ok_iff.mp h
        cases (Prod.mk.inj h).1

/-- A header with a token that decodes. -/
private theorem getCurrentUser_bearer {claims : AccessClaims} {now : ℕ}
    (hjwt : env.jwt.Carries env.ticksPerSecond claims)
    (hissued : claims.iat * env.ticksPerSecond ≤ now)
    (hnow : now < claims.exp * env.ticksPerSecond) :
    getCurrentUser env now (some ("Bearer " ++ env.jwt.encode claims)) =
      .ok { username := claims.sub, role := claims.role } := by
  have hheader : truthy (some ("Bearer " ++ env.jwt.encode claims)) =
      some ("Bearer " ++ env.jwt.encode claims) := by
    refine truthy_eq_some_iff.mpr ⟨rfl, fun hempty => ?_⟩
    have hlist := congrArg String.toList hempty
    simp at hlist
  have htoken : Text.strip (("Bearer " ++ env.jwt.encode claims).toList.drop "Bearer ".length) =
      (env.jwt.encode claims).toList := by
    rw [String.toList_append, List.drop_left' (by decide)]
    exact Text.stripBy_eq_self hjwt.noSpace
  have hprefix : "Bearer ".toList.isPrefixOf ("Bearer " ++ env.jwt.encode claims).toList =
      true := by
    rw [String.toList_append, List.isPrefixOf_iff_prefix]
    exact List.prefix_append _ _
  rw [getCurrentUser, hheader]
  dsimp only
  rw [if_pos hprefix, htoken, String.ofList_toList, decodeToken, hjwt.decodes now hissued hnow]
  rfl

/-- **What a token opens.** The token that a login or a refresh hands out belongs to an account that
was active then; until it expires, whatever becomes of the account, it opens exactly the actions
that the rank of this account's role suffices for, and is refused all others by name. -/
theorem token_opens_permitted {response : TokenResponse}
    (hcasbin : Enforces env.enforce policyCsv)
    (hjwt : ∀ username role, s.ActiveAs username role →
      env.jwt.Carries env.ticksPerSecond (env.claimsAt s username role))
    (h : (∃ username password, login env username password s = (.ok response, s')) ∨
      ∃ cookie, refresh env cookie s = (.ok response, s')) :
    ∃ username, s.ActiveAs username response.role ∧
      ∀ now resource action, s.auth.clock ≤ now →
        now < (s.auth.clock / env.ticksPerSecond + accessTokenExpirySeconds) * env.ticksPerSecond →
        requirePermission env resource action now
            (some ("Bearer " ++ response.accessToken)) =
          if Permitted response.role resource action then
            .ok { username, role := response.role }
          else .error {
            cls := .authorizationError
            message :=
              s!"Role '{response.role}' is not permitted to {action} on {resource}"
            detail := [("role", response.role), ("resource", resource), ("action", action)] } := by
  obtain ⟨username, hactive, htoken⟩ : ∃ username, s.ActiveAs username response.role ∧
      response.accessToken =
        env.jwt.encode (env.claimsAt s username response.role) := by
    rcases h with ⟨username, password, hlogin⟩ | ⟨cookie, hrefresh⟩
    · exact ⟨username, login_eq_ok hlogin⟩
    · exact refresh_eq_ok hrefresh
  refine ⟨username, hactive, fun now resource action hissued hnow => ?_⟩
  have hiat : (env.claimsAt s username response.role).iat * env.ticksPerSecond ≤ now :=
    (Nat.div_mul_le_self _ _).trans hissued
  have hcurrent : getCurrentUser env now
      (some ("Bearer " ++ response.accessToken)) = .ok { username, role := response.role } := by
    rw [htoken]
    have hcarries : env.jwt.Carries env.ticksPerSecond
        (env.claimsAt s username response.role) := hjwt username response.role hactive
    exact getCurrentUser_bearer hcarries hiat hnow
  rw [requirePermission, hcurrent]
  by_cases hpermitted : Permitted response.role resource action
  · rw [if_pos hpermitted]
    have henforce := (permits_iff_permitted hcasbin).mpr hpermitted
    simp only [bind, Except.bind, henforce, if_true]
    rfl
  · rw [if_neg hpermitted]
    have henforce := mt (permits_iff_permitted hcasbin).mp hpermitted
    simp only [bind, Except.bind, henforce]
    rfl

end

/-- The state at which `alice` logs in. -/
def aliceBefore : RoutesState := routesRun aliceServer 0 aliceUsers [.tick 25]

/-- What `alice` is handed out. -/
def aliceLoggedIn : TokenResponse where
  accessToken := "h.p.s"
  role := "employee"
  cookie := .set "token-0" refreshTokenExpiry

/-- `token_opens_permitted` ten minutes after a login: the token opens the documents for writing,
but not for deleting. -/
theorem token_opens_permitted_alice : ∃ username,
    requirePermission aliceServer "documents" "write" 6025 (some "Bearer h.p.s") =
        .ok { username, role := "employee" } ∧
      requirePermission aliceServer "documents" "delete" 6025 (some "Bearer h.p.s") =
        .error {
          cls := .authorizationError
          message := "Role 'employee' is not permitted to delete on documents"
          detail := [("role", "employee"), ("resource", "documents"), ("action", "delete")] } := by
  have hjwt : ∀ username role, aliceBefore.ActiveAs username role →
      aliceServer.jwt.Carries aliceServer.ticksPerSecond
        (aliceServer.claimsAt aliceBefore username role) := by
    rintro username role ⟨account, haccount, -, rfl⟩
    have hmem : (username, account) ∈ aliceBefore.users.entries := Dict.mem_entries_iff.mpr haccount
    obtain ⟨rfl, rfl⟩ := Prod.mk.inj (List.mem_singleton.mp hmem)
    have htoken : aliceServer.jwt.encode (aliceServer.claimsAt aliceBefore "alice" "employee") =
        "h.p.s" := by
      decide +kernel
    have hclaims : aliceServer.claimsAt aliceBefore "alice" "employee" = aliceClaims := by
      decide +kernel
    refine ⟨fun now _ hnow => ?_, fun c hc => ?_⟩
    · rw [htoken, hclaims] at *
      exact if_pos hnow
    · have hall : ("h.p.s".toList.all fun c => !Text.isSpace c) = true := by decide +kernel
      rw [htoken] at hc
      simpa using List.all_eq_true.mp hall c hc
  have hlogin : (login aliceServer "alice" "secret" aliceBefore).1 = .ok aliceLoggedIn := by
    decide +kernel
  obtain ⟨username, -, hopens⟩ := token_opens_permitted enforces_enforceCsv hjwt
    (Or.inl ⟨"alice", "secret", Prod.ext hlogin rfl⟩)
  have hheader : "Bearer " ++ aliceLoggedIn.accessToken = "Bearer h.p.s" := by decide
  rw [hheader] at hopens
  refine ⟨username, ?_, ?_⟩
  · exact (hopens 6025 "documents" "write" (by decide) (by decide)).trans
      (if_pos ⟨1, by decide, by decide⟩)
  · refine (hopens 6025 "documents" "delete" (by decide) (by decide)).trans (if_neg ?_)
    rintro ⟨r, hr, hle⟩
    obtain rfl : 1 = r := Option.some.inj hr
    exact absurd hle (by decide)

end AuditFlow
