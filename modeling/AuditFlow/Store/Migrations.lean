import AuditFlow.Foundation.Ddl

/-!
# Migrations

The tables of the application have two owners: `ingest/store/schema.sql`, which `apply_schema`
executes on every build, and the revisions of Alembic (`alembic/versions/*.py`), of which `upgrade`
and `downgrade` execute those between the revision that the database is at and the one that is asked
for. A command is one transaction: it does everything or nothing.

**The two never get into each other's way** (`migrations_reach`): whatever commands and writes come
in whatever order, the relations of Alembic are those of the current revision and the others those
of the schema; applying the schema and going back a revision always succeed, and an upgrade fails on
nothing but a user with a role outside the four. So at the head revision each user has one of the
four roles (`role_valid_at_head`), and the statements of the application fit the tables exactly from
the revision on that adds the history (`statements_fit_iff`).
-/

namespace AuditFlow

open Foundation Foundation.Ddl

/-! ### The schema of the ingestion -/

/-- `TEXT NOT NULL`. -/
def textColumn (name : String) : Column := { name, type := .text }

/-- `TEXT NOT NULL DEFAULT ''`. -/
def defaultTextColumn (name : String) : Column := { name, type := .text, hasDefault := true }

def documentsTable : Table where
  columns := [textColumn "document_id", textColumn "raw_title", textColumn "document_title",
    textColumn "content_hash", defaultTextColumn "company_name",
    defaultTextColumn "counterparty_name", defaultTextColumn "contract_type",
    defaultTextColumn "identity_source", defaultTextColumn "identity_confidence",
    defaultTextColumn "self_declared_hint",
    { name := "updated_at", type := .timestamptz, hasDefault := true }]
  primaryKey := "document_id"

def chunksTable : Table where
  columns := [textColumn "chunk_id", textColumn "document_id",
    { name := "chunk_index", type := .integer }, textColumn "raw_chunk_text",
    textColumn "embedding_text", textColumn "content_hash",
    { name := "is_preamble", type := .boolean, hasDefault := true }]
  primaryKey := "chunk_id"
  references := ["documents"]

/-- `schema.sql`. -/
def schemaSql : List Statement :=
  [.createTable true "documents" documentsTable, .createTable true "chunks" chunksTable,
    .createIndex true "idx_chunks_document_id" "chunks" ["document_id"] none]

/-! ### The revisions -/

structure Revision where
  revision : String
  downRevision : Option String
  upgrade : List Statement
  downgrade : List Statement
  deriving DecidableEq

/-- `sa.BigInteger(), primary_key=True, autoincrement=True`. -/
def idColumn : Column := { name := "id", type := .bigint, hasDefault := true }

/-- `server_default=sa.func.now()`. -/
def nowColumn (name : String) : Column := { name, type := .timestamptz, hasDefault := true }

def usersTable : Table where
  columns := [textColumn "username", textColumn "password_hash", textColumn "role",
    { name := "is_active", type := .boolean, hasDefault := true }, nowColumn "created_at"]
  primaryKey := "username"

def addUsersTable : Revision where
  revision := "0001_add_users_table"
  downRevision := none
  upgrade := [.createTable false "users" usersTable]
  downgrade := [.dropTable "users"]

def refreshTokensTable : Table where
  columns := [idColumn, textColumn "username", textColumn "token_hash", nowColumn "issued_at",
    { name := "expires_at", type := .timestamptz },
    { name := "revoked_at", type := .timestamptz, nullable := true }]
  primaryKey := "id"
  unique := ["token_hash"]

def addRefreshTokens : Revision where
  revision := "0002_add_refresh_tokens"
  downRevision := some "0001_add_users_table"
  upgrade := [.createTable false "refresh_tokens" refreshTokensTable,
    .createIndex false "idx_refresh_tokens_hash_active" "refresh_tokens" ["token_hash"]
      (some "revoked_at IS NULL"),
    .createIndex false "idx_refresh_tokens_username" "refresh_tokens" ["username"] none]
  downgrade := [.dropIndex "idx_refresh_tokens_username",
    .dropIndex "idx_refresh_tokens_hash_active", .dropTable "refresh_tokens"]

/-- The columns of `conversation_turns`, and of `audit_log`. -/
def historyTable : Table where
  columns := [idColumn, textColumn "username", textColumn "question",
    textColumn "response_status", { name := "document_id", type := .text, nullable := true },
    { name := "claims_summary", type := .jsonb, nullable := true }, nowColumn "created_at"]
  primaryKey := "id"

def addHistoryTables : Revision where
  revision := "0003_add_history_tables"
  downRevision := some "0002_add_refresh_tokens"
  upgrade := [.createTable false "conversation_turns" historyTable,
    .createIndex false "idx_conversation_turns_username" "conversation_turns" ["username"] none,
    .createIndex false "idx_conversation_turns_created_at" "conversation_turns" ["created_at"] none,
    .createTable false "audit_log" historyTable,
    .createIndex false "idx_audit_log_created_at" "audit_log" ["created_at"] none]
  downgrade := [.dropIndex "idx_audit_log_created_at", .dropTable "audit_log",
    .dropIndex "idx_conversation_turns_created_at", .dropIndex "idx_conversation_turns_username",
    .dropTable "conversation_turns"]

/-- `VALID_ROLES`. -/
def validRoles : List String := ["viewer", "employee", "ceo", "admin"]

/-- The constraint `ck_users_role_valid`. -/
def roleCheck : Check := { name := "ck_users_role_valid", column := "role", allowed := validRoles }

def addRoleCheckConstraint : Revision where
  revision := "0004_add_role_check_constraint"
  downRevision := some "0003_add_history_tables"
  upgrade := [.addCheck "users" roleCheck]
  downgrade := [.dropCheck "users" "ck_users_role_valid"]

/-- The scripts of `alembic/versions`. -/
def revisions : List Revision :=
  [addUsersTable, addRefreshTokens, addHistoryTables, addRoleCheckConstraint]

/-! ### Commands -/

/-- A database with the row of its table `alembic_version`. -/
structure MigratedDb where
  db : Database := {}
  version : Option String := none

/-- Why a command fails. -/
inductive MigrationError
  | ddl (e : DdlError)
  /-- There is no revision to go to. -/
  | noRevision
  deriving DecidableEq, Repr

/-- The revision that revises the current one. -/
def nextRevision (version : Option String) : Option Revision :=
  revisions.find? fun r => decide (r.downRevision = version)

/-- The current revision. -/
def currentRevision (version : Option String) : Option Revision :=
  revisions.find? fun r => decide (some r.revision = version)

/-- A script within a transaction. -/
def executeScript (db : Database) (script : List Statement) : Except MigrationError Database :=
  match runAll db script with
  | .ok db' => .ok db'
  | .error e => .error (.ddl e)

/-- `alembic upgrade +1`. -/
def upgradeOne (s : MigratedDb) : Except MigrationError MigratedDb :=
  match nextRevision s.version with
  | none => .error .noRevision
  | some r => (executeScript s.db r.upgrade).map fun db => ⟨db, some r.revision⟩

/-- Revision after revision, as long as there is a next one. -/
def upgradeAll : ℕ → MigratedDb → Except MigrationError MigratedDb
  | 0, s => .ok s
  | n + 1, s =>
    match nextRevision s.version with
    | none => .ok s
    | some _ => do upgradeAll n (← upgradeOne s)

/-- `alembic upgrade head`. -/
def upgradeHead (s : MigratedDb) : Except MigrationError MigratedDb :=
  upgradeAll revisions.length s

/-- `alembic downgrade -1`. -/
def downgradeOne (s : MigratedDb) : Except MigrationError MigratedDb :=
  match currentRevision s.version with
  | none => .error .noRevision
  | some r => (executeScript s.db r.downgrade).map fun db => ⟨db, r.downRevision⟩

/-- Back from revision to revision, as long as there is one. -/
def downgradeAll : ℕ → MigratedDb → Except MigrationError MigratedDb
  | 0, s => .ok s
  | n + 1, s =>
    match currentRevision s.version with
    | none => .ok s
    | some _ => do downgradeAll n (← downgradeOne s)

/-- `alembic downgrade base`. -/
def downgradeBase (s : MigratedDb) : Except MigrationError MigratedDb :=
  downgradeAll revisions.length s

/-- What is done to a database: `apply_schema`, the commands of Alembic, and writes of any rows. -/
inductive DbCommand
  | applySchema
  | upgradeOne
  | upgradeHead
  | downgradeOne
  | downgradeBase
  | upsert (table : String) (row : Row)
  | delete (table : String) (p : Row → Bool)

/-- The outcome of a command. -/
def command (s : MigratedDb) : DbCommand → Except MigrationError MigratedDb
  | .applySchema => (executeScript s.db schemaSql).map fun db => { s with db }
  | .upgradeOne => AuditFlow.upgradeOne s
  | .upgradeHead => AuditFlow.upgradeHead s
  | .downgradeOne => AuditFlow.downgradeOne s
  | .downgradeBase => AuditFlow.downgradeBase s
  | .upsert table row =>
    match Ddl.upsert s.db table row with
    | .ok db => .ok { s with db }
    | .error e => .error (.ddl e)
  | .delete table p => .ok { s with db := Ddl.delete s.db table p }

/-- A command that fails is rolled back. -/
def afterCommand (s : MigratedDb) (c : DbCommand) : MigratedDb :=
  match command s c with
  | .ok s' => s'
  | .error _ => s

/-- Commands one after the other, on a new database. -/
def commandsRun (commands : List DbCommand) : MigratedDb := commands.foldl afterCommand {}

/-! ### Catalogs -/

/-- The relations of the revisions. -/
def alembicNames : List String :=
  ["users", "refresh_tokens", "idx_refresh_tokens_hash_active", "idx_refresh_tokens_username",
    "conversation_turns", "idx_conversation_turns_username", "idx_conversation_turns_created_at",
    "audit_log", "idx_audit_log_created_at"]

/-- The relation belongs to Alembic. -/
def isAlembic (name : String) : Bool := decide (name ∈ alembicNames)

/-- The relation belongs to somebody else. -/
def isOther (name : String) : Bool := !isAlembic name

/-- What a script makes of a catalog without rows. -/
def catalogAfter (catalog : Catalog) (script : List Statement) : Catalog :=
  match runAll { catalog } script with
  | .ok db => db.catalog
  | .error _ => catalog

/-- The relations of Alembic at the revision with a number. -/
def catalogAt (k : ℕ) : Catalog :=
  (revisions.take k).foldl (fun catalog r => catalogAfter catalog r.upgrade) .empty

/-- The relations of the schema. -/
def schemaCatalog : Catalog := catalogAfter .empty schemaSql

/-- The identifier of the revision with a number. -/
def versionAt (k : ℕ) : Option String := (revisions.take k).getLast?.map (·.revision)

/-- The database is at the revision with the number. -/
structure AtRevision (s : MigratedDb) (k : ℕ) : Prop where
  le : k ≤ 4
  version : s.version = versionAt k
  catalog : (s.db.restrict isAlembic).catalog = catalogAt k

/-- The other relations are those of the schema, if it has been applied. -/
def SchemaOrNone (s : MigratedDb) : Prop :=
  (s.db.restrict isOther).catalog = .empty ∨ (s.db.restrict isOther).catalog = schemaCatalog

/-- What holds of a database that is only changed by the commands. -/
structure Migrated (s : MigratedDb) : Prop where
  sound : Sound s.db
  separated : Separated isAlembic s.db.catalog
  revision : ∃ k, AtRevision s k
  schema : SchemaOrNone s

/-- Every user has one of the roles. -/
def RolesValid (s : MigratedDb) : Prop := (s.db.rows "users").all roleCheck.passes = true

instance (s : MigratedDb) : Decidable (RolesValid s) :=
  inferInstanceAs (Decidable (_ = true))

/-! ### Scripts on their catalogs -/

private theorem nextRevision_versionAt : ∀ k < 5, nextRevision (versionAt k) = revisions[k]? := by
  decide +kernel

private theorem currentRevision_versionAt :
    ∀ k < 4, currentRevision (versionAt (k + 1)) = revisions[k]? := by
  decide +kernel

private theorem currentRevision_none : currentRevision (versionAt 0) = none := by decide +kernel

/-- The scripts of the revisions are about relations of Alembic. -/
private theorem scripts_within : ∀ r ∈ revisions,
    (∀ statement ∈ r.upgrade, statement.Within isAlembic) ∧
      ∀ statement ∈ r.downgrade, statement.Within isAlembic := by
  decide +kernel

private theorem schemaSql_within : ∀ statement ∈ schemaSql, statement.Within isOther := by
  decide +kernel

/-- A script succeeds on a catalog and makes another one of it. -/
def Leads (script : List Statement) (before after : Catalog) : Prop :=
  (∀ statement ∈ script, statement.ignoresRows = true) ∧
    (runAll { catalog := before } script).toOption.map (·.catalog.entries) = some after.entries

instance (script : List Statement) (before after : Catalog) :
    Decidable (Leads script before after) :=
  inferInstanceAs (Decidable (_ ∧ _))

private theorem upgrade_leads : ∀ k < 3, ∀ r ∈ revisions[k]?,
    Leads r.upgrade (catalogAt k) (catalogAt (k + 1)) := by
  decide +kernel

private theorem downgrade_leads : ∀ k < 4, ∀ r ∈ revisions[k]?,
    Leads r.downgrade (catalogAt (k + 1)) (catalogAt k) := by
  decide +kernel

private theorem schema_leads :
    Leads schemaSql .empty schemaCatalog ∧ Leads schemaSql schemaCatalog schemaCatalog := by
  decide +kernel

/-- The versions before and after a revision. -/
private theorem versionAt_succ : ∀ k < 4, ∀ r ∈ revisions[k]?,
    r.downRevision = versionAt k ∧ some r.revision = versionAt (k + 1) := by
  decide +kernel

/-- Only going back drops tables. -/
private theorem drops_eq_none :
    (∀ r ∈ revisions, ∀ statement ∈ r.upgrade, statement.drops = none) ∧
      ∀ statement ∈ schemaSql, statement.drops = none := by
  decide +kernel

/-- The tables of the third revision, and with the check. -/
private theorem catalogAt_four :
    (catalogAt 3).table? "users" = some usersTable ∧
      (catalogAt 4).entries = ((catalogAt 3).set "users"
        (.table { usersTable with checks := usersTable.checks ++ [roleCheck] })).entries := by
  decide +kernel

/-! ### Scripts on a database -/

/-- A script of one owner has made `db'` of `db`: the owner has the catalog, and the others have
what they had. -/
private structure Reaches (K : String → Bool) (db db' : Database) (catalog : Catalog) : Prop where
  sound : Sound db'
  separated : Separated K db'.catalog
  own : (db'.restrict K).catalog = catalog
  others : (db'.restrict fun n => !K n) = db.restrict fun n => !K n

section

variable {K : String → Bool} {db : Database} {s s' : MigratedDb} {k : ℕ}

/-- **Scripts do on any database what they do on their catalog.** -/
private theorem reaches_of_leads {script : List Statement} {before after : Catalog}
    (hsound : Sound db) (hsep : Separated K db.catalog)
    (hwithin : ∀ statement ∈ script, statement.Within K) (hleads : Leads script before after)
    (hbefore : (db.restrict K).catalog = before) :
    ∃ db', runAll db script = .ok db' ∧ Reaches K db db' after := by
  obtain ⟨hignores, hafter⟩ := hleads
  have halone : (runAll (db.restrict K) script).map Database.catalog =
      (runAll { catalog := before } script).map Database.catalog :=
    catalog_runAll hbefore hignores
  rw [restrict_runAll hsep hwithin] at halone
  rcases hrun : runAll { catalog := before } script with e | db₁
  · rw [hrun] at hafter
    cases hafter
  · rw [hrun] at hafter halone
    rcases hdb : runAll db script with e | db'
    · rw [hdb] at halone
      cases halone
    · rw [hdb] at halone
      obtain ⟨hothers, hsep'⟩ := frame_runAll hsep hwithin hdb
      have hown : (db'.restrict K).catalog = db₁.catalog := Except.ok.inj halone
      exact ⟨db', rfl, sound_runAll hsound hdb, hsep',
        hown.trans (Dict.eq_of_entries (Option.some.inj hafter)), hothers⟩

/-- The check is added exactly if every user passes it. -/
private theorem reaches_roleCheck (hsound : Sound db) (hsep : Separated isAlembic db.catalog)
    (hcatalog : (db.restrict isAlembic).catalog = catalogAt 3) :
    if (db.rows "users").all roleCheck.passes then
      ∃ db', runAll db addRoleCheckConstraint.upgrade = .ok db' ∧
        Reaches isAlembic db db' (catalogAt 4)
    else runAll db addRoleCheckConstraint.upgrade = .error (.checkViolation roleCheck.name) := by
  have hwithin := (scripts_within addRoleCheckConstraint (by decide)).1
  have husers : isAlembic "users" = true := by decide
  have htable : ∀ db' : Database, (db'.restrict isAlembic).catalog = catalogAt 3 →
      db'.catalog.table? "users" = some usersTable := by
    intro db' h
    rw [← table?_restrict husers, h]
    exact catalogAt_four.1
  have hone : ∀ db' : Database, runAll db' addRoleCheckConstraint.upgrade =
      run db' (.addCheck "users" roleCheck) := fun db' => bind_pure (run db' _)
  have hrun : run db (.addCheck "users" roleCheck) = _ :=
    run_addCheck (htable db hcatalog) (by decide) (by decide)
  rw [hone]
  split_ifs with hvalid
  · rw [if_pos hvalid] at hrun
    have hrun' : runAll db addRoleCheckConstraint.upgrade = _ := (hone db).trans hrun
    obtain ⟨hothers, hsep'⟩ := frame_runAll hsep hwithin hrun'
    refine ⟨_, hrun, sound_run hsound hrun, hsep', ?_, hothers⟩
    refine Dict.eq_of_entries (Eq.trans ?_ catalogAt_four.2.symm)
    rw [← hcatalog]
    exact congrArg Dict.entries
      (Dict.filter_set_of_pass (p := fun name _ => isAlembic name) husers fun _ _ => husers)
  · rw [hrun, if_neg hvalid]

private theorem restrict_isOther (db : Database) :
    (db.restrict fun n => !isOther n) = db.restrict isAlembic := by
  simp only [isOther, Bool.not_not]

/-- The relations of the others are separated too. -/
private theorem separated_isOther {catalog : Catalog} :
    Separated isOther catalog ↔ Separated isAlembic catalog := by
  simp only [Separated, isOther, Bool.not_inj_iff]

/-! ### Commands keep the tables apart -/

private theorem migrated_of_reaches {db' : Database} {k' : ℕ} {version : Option String}
    (hs : Migrated s) (hreaches : Reaches isAlembic s.db db' (catalogAt k')) (hle : k' ≤ 4)
    (hversion : version = versionAt k') :
    Migrated ⟨db', version⟩ ∧ AtRevision ⟨db', version⟩ k' := by
  have hat : AtRevision ⟨db', version⟩ k' := ⟨hle, hversion, hreaches.own⟩
  have hothers : db'.restrict isOther = s.db.restrict isOther := hreaches.others
  refine ⟨⟨hreaches.sound, hreaches.separated, ⟨k', hat⟩, ?_⟩, hat⟩
  rw [SchemaOrNone, hothers]
  exact hs.schema

/-- **What a next revision does**: it fails on a user with another role only. -/
private theorem upgradeOne_spec (hs : Migrated s) (hat : AtRevision s k) (hk : k < 4) :
    (∃ s', upgradeOne s = .ok s' ∧ Migrated s' ∧ AtRevision s' (k + 1) ∧
        s'.db.rows = s.db.rows ∧ (k = 3 → RolesValid s)) ∨
      k = 3 ∧ ¬RolesValid s ∧
        upgradeOne s = .error (.ddl (.checkViolation "ck_users_role_valid")) := by
  obtain ⟨r, hr⟩ : ∃ r, revisions[k]? = some r := ⟨_, List.getElem?_eq_getElem hk⟩
  have hmem : r ∈ revisions := List.mem_of_getElem? hr
  have hnext : nextRevision s.version = some r := by
    rw [hat.version, nextRevision_versionAt k (by omega), hr]
  obtain ⟨-, hversion⟩ := versionAt_succ k hk r hr
  -- what the upgrade makes of a script that succeeds
  have hok : ∀ db', runAll s.db r.upgrade = .ok db' →
      Reaches isAlembic s.db db' (catalogAt (k + 1)) →
      ∃ s', upgradeOne s = .ok s' ∧ Migrated s' ∧ AtRevision s' (k + 1) ∧
        s'.db.rows = s.db.rows := by
    intro db' hrun hreaches
    obtain ⟨hmigrated, hat'⟩ := migrated_of_reaches hs hreaches (by omega) hversion
    refine ⟨⟨db', some r.revision⟩, ?_, hmigrated, hat', funext fun name => ?_⟩
    · simp only [upgradeOne, hnext, executeScript, hrun, Except.map]
    · refine rows_runAll_of_kept hs.sound hrun fun statement hstatement => ?_
      rw [drops_eq_none.1 r hmem statement hstatement]
      exact (Option.some_ne_none name).symm
  rcases Nat.lt_or_ge k 3 with hlt | hge
  · obtain ⟨db', hrun, hreaches⟩ := reaches_of_leads hs.sound hs.separated
      (scripts_within r hmem).1 (upgrade_leads k hlt r hr) hat.catalog
    obtain ⟨s', hs'⟩ := hok db' hrun hreaches
    exact Or.inl ⟨s', hs'.1, hs'.2.1, hs'.2.2.1, hs'.2.2.2, fun h => absurd h (by omega)⟩
  · obtain rfl : k = 3 := by omega
    obtain rfl : addRoleCheckConstraint = r := Option.some.inj hr
    have hcheck := reaches_roleCheck hs.sound hs.separated hat.catalog
    split_ifs at hcheck with hvalid
    · obtain ⟨db', hrun, hreaches⟩ := hcheck
      obtain ⟨s', hs'⟩ := hok db' hrun hreaches
      exact Or.inl ⟨s', hs'.1, hs'.2.1, hs'.2.2.1, hs'.2.2.2, fun _ => hvalid⟩
    · refine Or.inr ⟨rfl, hvalid, ?_⟩
      simp only [upgradeOne, hnext, executeScript, hcheck, Except.map]
      rfl

/-- The last revision has no next one. -/
private theorem nextRevision_head (hat : AtRevision s 4) : nextRevision s.version = none := by
  rw [hat.version, nextRevision_versionAt 4 (by omega)]
  rfl

/-- **What a run through the next revisions does.** -/
private theorem upgradeAll_spec {n : ℕ} (hs : Migrated s) (hat : AtRevision s k)
    (hn : 4 ≤ n + k) :
    if k = 4 ∨ RolesValid s then
      ∃ s', upgradeAll n s = .ok s' ∧ Migrated s' ∧ AtRevision s' 4 ∧ s'.db.rows = s.db.rows
    else upgradeAll n s = .error (.ddl (.checkViolation "ck_users_role_valid")) := by
  induction n generalizing s k with
  | zero =>
    obtain rfl : k = 4 := Nat.le_antisymm hat.le (by omega)
    rw [if_pos (Or.inl rfl)]
    exact ⟨s, rfl, hs, hat, rfl⟩
  | succ n ih =>
    rcases hat.le.eq_or_lt with rfl | hk
    · rw [if_pos (Or.inl rfl)]
      refine ⟨s, ?_, hs, hat, rfl⟩
      rw [upgradeAll, nextRevision_head hat]
    · obtain ⟨r, hr⟩ : ∃ r, revisions[k]? = some r := ⟨_, List.getElem?_eq_getElem hk⟩
      have hnext : nextRevision s.version = some r := by
        rw [hat.version, nextRevision_versionAt k (by omega), hr]
      rcases upgradeOne_spec hs hat hk with
        ⟨s₁, hone, hs₁, hat₁, hrows, hroles⟩ | ⟨rfl, hinvalid, hone⟩
      · have hall : upgradeAll (n + 1) s = upgradeAll n s₁ := by
          simp only [upgradeAll, hnext, hone]
          rfl
        have hsame : RolesValid s₁ ↔ RolesValid s := by rw [RolesValid, RolesValid, hrows]
        have hrest := ih hs₁ hat₁ (by omega)
        rw [hall]
        by_cases hvalid : RolesValid s
        · rw [if_pos (Or.inr hvalid)]
          rw [if_pos (Or.inr (hsame.mpr hvalid))] at hrest
          obtain ⟨s', hrun, hs', hat', hrows'⟩ := hrest
          exact ⟨s', hrun, hs', hat', hrows'.trans hrows⟩
        · have hne : k ≠ 3 := fun h => hvalid (hroles h)
          rw [if_neg (by simp only [hvalid, or_false]; omega)]
          rwa [if_neg (by simp only [hsame, hvalid, or_false]; omega)] at hrest
      · rw [if_neg (by simp only [hinvalid, or_false]; omega)]
        simp only [upgradeAll, hnext, hone]
        rfl

/-- **What going back does**: it always succeeds. -/
private theorem downgradeOne_spec (hs : Migrated s) (hat : AtRevision s (k + 1)) :
    ∃ s', downgradeOne s = .ok s' ∧ Migrated s' ∧ AtRevision s' k := by
  have hk : k < 4 := hat.le
  obtain ⟨r, hr⟩ : ∃ r, revisions[k]? = some r := ⟨_, List.getElem?_eq_getElem hk⟩
  have hcurrent : currentRevision s.version = some r := by
    rw [hat.version, currentRevision_versionAt k hk, hr]
  obtain ⟨hversion, -⟩ := versionAt_succ k hk r hr
  obtain ⟨db', hrun, hreaches⟩ := reaches_of_leads hs.sound hs.separated
    (scripts_within r (List.mem_of_getElem? hr)).2 (downgrade_leads k hk r hr) hat.catalog
  obtain ⟨hmigrated, hat'⟩ := migrated_of_reaches hs hreaches (by omega) hversion
  refine ⟨⟨db', r.downRevision⟩, ?_, hmigrated, hat'⟩
  simp only [downgradeOne, hcurrent, executeScript, hrun, Except.map]

private theorem downgradeAll_spec {n : ℕ} (hs : Migrated s) (hat : AtRevision s k)
    (hn : k ≤ n) : ∃ s', downgradeAll n s = .ok s' ∧ Migrated s' ∧ AtRevision s' 0 := by
  induction n generalizing s k with
  | zero =>
    obtain rfl : k = 0 := by omega
    exact ⟨s, rfl, hs, hat⟩
  | succ n ih =>
    cases k with
    | zero =>
      refine ⟨s, ?_, hs, hat⟩
      rw [downgradeAll, hat.version, currentRevision_none]
    | succ k =>
      have hk : k < 4 := hat.le
      obtain ⟨r, hr⟩ : ∃ r, revisions[k]? = some r := ⟨_, List.getElem?_eq_getElem hk⟩
      obtain ⟨s₁, hone, hs₁, hat₁⟩ := downgradeOne_spec hs hat
      obtain ⟨s', hall, hs', hat'⟩ := ih hs₁ hat₁ (by omega)
      refine ⟨s', ?_, hs', hat'⟩
      simp only [downgradeAll, hat.version, currentRevision_versionAt k hk, hr, hone]
      exact hall

/-- **What applying the schema does**: it always succeeds, and loses nothing. -/
private theorem applySchema_spec (hs : Migrated s) (hat : AtRevision s k) :
    ∃ s', command s .applySchema = .ok s' ∧ Migrated s' ∧ AtRevision s' k ∧
      (s'.db.restrict isOther).catalog = schemaCatalog ∧ s'.db.rows = s.db.rows := by
  obtain ⟨before, hbefore, hleads⟩ : ∃ before, (s.db.restrict isOther).catalog = before ∧
      Leads schemaSql before schemaCatalog := by
    rcases hs.schema with hnone | happlied
    · exact ⟨_, hnone, schema_leads.1⟩
    · exact ⟨_, happlied, schema_leads.2⟩
  obtain ⟨db', hrun, hreaches⟩ := reaches_of_leads hs.sound (separated_isOther.mpr hs.separated)
    schemaSql_within hleads hbefore
  have hothers := hreaches.others
  rw [restrict_isOther, restrict_isOther] at hothers
  have hat' : AtRevision ⟨db', s.version⟩ k :=
    ⟨hat.le, hat.version, (congrArg Database.catalog hothers).trans hat.catalog⟩
  refine ⟨⟨db', s.version⟩, ?_, ⟨hreaches.sound, separated_isOther.mp hreaches.separated,
    ⟨k, hat'⟩, Or.inr hreaches.own⟩, hat', hreaches.own, funext fun name => ?_⟩
  · simp only [command, executeScript, hrun, Except.map]
  · refine rows_runAll_of_kept hs.sound hrun fun statement hstatement => ?_
    rw [drops_eq_none.2 statement hstatement]
    exact (Option.some_ne_none name).symm

/-- Writes of rows change no relation. -/
private theorem migrated_of_catalog {db' : Database} (hs : Migrated s) (hsound : Sound db')
    (hcatalog : db'.catalog = s.db.catalog) : Migrated { s with db := db' } := by
  obtain ⟨k, hat⟩ := hs.revision
  have hrestrict : ∀ K, (db'.restrict K).catalog = (s.db.restrict K).catalog := fun K =>
    congrArg (fun catalog : Catalog => catalog.filter fun name _ => K name) hcatalog
  refine ⟨hsound, ?_, ⟨k, hat.le, hat.version, (hrestrict _).trans hat.catalog⟩, ?_⟩
  · dsimp only
    rw [hcatalog]
    exact hs.separated
  · rw [SchemaOrNone, hrestrict]
    exact hs.schema

/-- **Step lemma.** -/
private theorem migrated_afterCommand (hs : Migrated s) (c : DbCommand) :
    Migrated (afterCommand s c) := by
  obtain ⟨k, hat⟩ := hs.revision
  have hof : ∀ s', command s c = .ok s' → Migrated s' := by
    intro s' h
    cases c with
    | applySchema =>
      obtain ⟨s₁, hrun, hs₁, -⟩ := applySchema_spec hs hat
      obtain rfl := Except.ok.inj (hrun.symm.trans h)
      exact hs₁
    | upgradeOne =>
      rw [command] at h
      rcases hat.le.eq_or_lt with rfl | hk
      · rw [AuditFlow.upgradeOne, nextRevision_head hat] at h
        cases h
      · rcases upgradeOne_spec hs hat hk with ⟨s₁, hrun, hs₁, -⟩ | ⟨-, -, hrun⟩
        · obtain rfl := Except.ok.inj (hrun.symm.trans h)
          exact hs₁
        · rw [hrun] at h
          cases h
    | upgradeHead =>
      rw [command] at h
      have hspec := upgradeAll_spec (n := 4) hs hat (by omega)
      split_ifs at hspec
      · obtain ⟨s₁, hrun, hs₁, -⟩ := hspec
        obtain rfl := Except.ok.inj (hrun.symm.trans h)
        exact hs₁
      · have hrun : AuditFlow.upgradeHead s = _ := hspec
        rw [hrun] at h
        cases h
    | downgradeOne =>
      rw [command] at h
      cases k with
      | zero =>
        rw [AuditFlow.downgradeOne, hat.version, currentRevision_none] at h
        cases h
      | succ k =>
        obtain ⟨s₁, hrun, hs₁, -⟩ := downgradeOne_spec hs hat
        obtain rfl := Except.ok.inj (hrun.symm.trans h)
        exact hs₁
    | downgradeBase =>
      rw [command] at h
      obtain ⟨s₁, hrun, hs₁, -⟩ := downgradeAll_spec (n := 4) hs hat hat.le
      obtain rfl := Except.ok.inj (hrun.symm.trans h)
      exact hs₁
    | upsert table row =>
      simp only [command] at h
      split at h
      · rename_i db' hupsert
        obtain rfl := Except.ok.inj h
        exact migrated_of_catalog hs (sound_upsert hs.sound hupsert) (catalog_upsert hupsert)
      · cases h
    | delete table p =>
      obtain rfl := Except.ok.inj h
      exact migrated_of_catalog hs (sound_delete hs.sound table p) rfl
  rw [afterCommand]
  rcases hcommand : command s c with e | s'
  · exact hs
  · exact hof s' hcommand

private theorem migrated_empty : Migrated {} where
  sound := sound_empty
  separated := fun _ _ h => nomatch h
  revision := ⟨0, Nat.zero_le 4, rfl, rfl⟩
  schema := Or.inl rfl

/-- **Run lemma.** -/
theorem migrated_commandsRun (commands : List DbCommand) : Migrated (commandsRun commands) := by
  suffices ∀ s, Migrated s → Migrated (commands.foldl afterCommand s) from this _ migrated_empty
  induction commands with
  | nil => exact fun s hs => hs
  | cons c commands ih => exact fun s hs => ih _ (migrated_afterCommand hs c)

end

/-- **Schema and revisions do not get into each other's way.** Whatever is done to a database, its
relations are those of a revision and, if it has been applied, of the schema. From there
`apply_schema` succeeds and loses no row, going back succeeds, and so does an upgrade — unless the
check on roles is still to come and a user has another role: then it fails, with that check. -/
theorem migrations_reach (commands : List DbCommand) :
    ∃ k, AtRevision (commandsRun commands) k ∧ SchemaOrNone (commandsRun commands) ∧
      (∃ s', command (commandsRun commands) .applySchema = .ok s' ∧ AtRevision s' k ∧
        (s'.db.restrict isOther).catalog = schemaCatalog ∧
        s'.db.rows = (commandsRun commands).db.rows) ∧
      (k = 4 ∨ RolesValid (commandsRun commands) →
        ∃ s', command (commandsRun commands) .upgradeHead = .ok s' ∧ AtRevision s' 4 ∧
          SchemaOrNone s' ∧ s'.db.rows = (commandsRun commands).db.rows) ∧
      (k ≠ 4 → ¬RolesValid (commandsRun commands) →
        command (commandsRun commands) .upgradeHead =
          .error (.ddl (.checkViolation "ck_users_role_valid"))) ∧
      (∃ s', command (commandsRun commands) .downgradeBase = .ok s' ∧ AtRevision s' 0 ∧
        SchemaOrNone s') ∧
      (0 < k → ∃ s', command (commandsRun commands) .downgradeOne = .ok s' ∧
        AtRevision s' (k - 1) ∧ SchemaOrNone s') := by
  have hs := migrated_commandsRun commands
  obtain ⟨k, hat⟩ := hs.revision
  have hupgrade := upgradeAll_spec (n := 4) hs hat (by omega)
  refine ⟨k, hat, hs.schema, ?_, fun hvalid => ?_, fun hne hinvalid => ?_, ?_, fun hpos => ?_⟩
  · obtain ⟨s', hrun, -, hat', hschema, hrows⟩ := applySchema_spec hs hat
    exact ⟨s', hrun, hat', hschema, hrows⟩
  · rw [if_pos hvalid] at hupgrade
    obtain ⟨s', hrun, hs', hat', hrows⟩ := hupgrade
    exact ⟨s', hrun, hat', hs'.schema, hrows⟩
  · rwa [if_neg (not_or.mpr ⟨hne, hinvalid⟩)] at hupgrade
  · obtain ⟨s', hrun, hs', hat'⟩ := downgradeAll_spec (n := 4) hs hat hat.le
    exact ⟨s', hrun, hat', hs'.schema⟩
  · obtain ⟨k, rfl⟩ := Nat.exists_eq_succ_of_ne_zero hpos.ne'
    obtain ⟨s', hrun, hs', hat'⟩ := downgradeOne_spec hs hat
    exact ⟨s', hrun, hat', hs'.schema⟩

/-- A user of the application, with a role. -/
def userRow (username role : String) : Row :=
  [("username", username), ("password_hash", "$2b$"), ("role", role)]

/-- A user with another role keeps the database below the head revision, until it is deleted. -/
example :
    (commandsRun [.applySchema, .upgradeOne, .upsert "users" (userRow "mallory" "superadmin"),
      .upgradeHead]).version = some "0001_add_users_table" ∧
    (commandsRun [.applySchema, .upgradeOne, .upsert "users" (userRow "mallory" "superadmin"),
      .upgradeHead, .delete "users" (fun _ => true), .upgradeHead]).version =
        some "0004_add_role_check_constraint" := by
  decide +kernel

/-! ### Roles -/

private theorem eq_four_of_version :
    ∀ k ≤ 4, versionAt k = some "0004_add_role_check_constraint" → k = 4 := by
  decide +kernel

/-- The tables of Alembic are those of its catalog. -/
private theorem table?_of_atRevision {s : MigratedDb} {k : ℕ} {name : String}
    (hat : AtRevision s k) (h : isAlembic name = true) :
    s.db.catalog.table? name = (catalogAt k).table? name := by
  rw [← table?_restrict h, hat.catalog]

/-- **At the head revision, each user has one of the roles**: in whatever way the rows came into the
table, before or after the revision. -/
theorem role_valid_at_head (commands : List DbCommand)
    (h : (commandsRun commands).version = some "0004_add_role_check_constraint") :
    ∀ row ∈ (commandsRun commands).db.rows "users",
      ∃ role ∈ validRoles, row.lookup "role" = some role := by
  intro row hrow
  have hs := migrated_commandsRun commands
  obtain ⟨k, hat⟩ := hs.revision
  obtain rfl := eq_four_of_version k hat.le (hat.version.symm.trans h)
  have htable : (commandsRun commands).db.catalog.table? "users" =
      some { usersTable with checks := usersTable.checks ++ [roleCheck] } := by
    rw [table?_of_atRevision hat (by decide)]
    decide +kernel
  have haccepts := hs.sound.accepted "users" _ (table?_eq_some_iff.mp htable) row hrow
  rw [Table.accepts, Bool.and_eq_true, List.all_eq_true, List.all_eq_true] at haccepts
  -- the column has no default, so there is a value
  have hfilled := haccepts.1 (textColumn "role") (by decide)
  have hpasses := haccepts.2 roleCheck (by decide)
  simp only [Column.filled, textColumn, Bool.false_or] at hfilled
  obtain ⟨role, hrole⟩ := Option.isSome_iff_exists.mp hfilled
  rw [Check.passes, show roleCheck.column = "role" from rfl, hrole] at hpasses
  exact ⟨role, of_decide_eq_true hpasses, hrole⟩

/-- A user from before the revision, who changes the role after it, and one with another role. -/
def bothUsers : List DbCommand :=
  [.upgradeOne, .upsert "users" (userRow "ada" "viewer"), .upgradeHead,
    .upsert "users" (userRow "grace" "superadmin"), .upsert "users" (userRow "ada" "ceo")]

/-- `role_valid_at_head` on a table with one user. -/
theorem role_valid_at_head_bothUsers :
    (commandsRun bothUsers).db.rows "users" = [userRow "ada" "ceo"] ∧
      ∀ row ∈ (commandsRun bothUsers).db.rows "users",
        ∃ role ∈ validRoles, row.lookup "role" = some role :=
  ⟨by decide +kernel, role_valid_at_head bothUsers (by decide +kernel)⟩

/-! ### Statements of the application -/

/-- A statement of the application about one table. -/
structure Query where
  table : String
  /-- The columns that it names, or that are read from its rows. -/
  columns : List String
  /-- The columns of an `INSERT`. -/
  inserts : List String := []
  /-- The column of `ON CONFLICT`. -/
  conflict : Option String := none
  deriving DecidableEq

/-- The table has what the statement needs: the columns, values for those that must not be null, and
a unique column for the conflict. -/
def Query.fits (catalog : Catalog) (q : Query) : Bool :=
  match catalog.table? q.table with
  | none => false
  | some definition =>
    (q.columns ++ q.inserts).all definition.has &&
      (q.inserts.isEmpty || definition.columns.all fun c =>
        c.nullable || c.hasDefault || decide (c.name ∈ q.inserts)) &&
      q.conflict.all fun c => decide (c = definition.primaryKey ∨ c ∈ definition.unique)

/-- The columns of a `DocumentRecord`. -/
def documentColumns : List String :=
  ["document_id", "raw_title", "document_title", "content_hash", "company_name",
    "counterparty_name", "contract_type", "identity_source", "identity_confidence",
    "self_declared_hint"]

/-- The columns of a `ChunkRecord`. -/
def chunkColumns : List String :=
  ["chunk_id", "document_id", "chunk_index", "raw_chunk_text", "embedding_text", "content_hash",
    "is_preamble"]

/-- `get_document`, `list_documents`, `upsert_document_row` and `delete_document_row`. -/
def documentQueries : List Query :=
  [{ table := "documents", columns := documentColumns },
    { table := "chunks", columns := chunkColumns },
    { table := "documents", columns := "updated_at" :: documentColumns,
      inserts := documentColumns ++ ["updated_at"], conflict := some "document_id" },
    { table := "documents", columns := ["document_id"] }]

/-- `get_chunk_ids_for_document`, `insert_chunks` and `delete_chunks`. -/
def chunkQueries : List Query :=
  [{ table := "chunks", columns := ["chunk_id", "document_id"] },
    { table := "chunks", columns := [], inserts := chunkColumns, conflict := some "chunk_id" },
    { table := "chunks", columns := ["chunk_id"] }]

/-- `get_user_by_username`, of which `login` reads the row, and `upsert_user`. -/
def userQueries : List Query :=
  [{ table := "users", columns := ["username", "password_hash", "role", "is_active"] },
    { table := "users", columns := ["password_hash", "role", "is_active"],
      inserts := ["username", "password_hash", "role"], conflict := some "username" }]

/-- `issue_refresh_token`, `rotate_refresh_token`, `revoke_all_for_user` and
`_resolve_owner_for_logout`. -/
def refreshTokenQueries : List Query :=
  [{ table := "refresh_tokens", columns := [],
      inserts := ["username", "token_hash", "issued_at", "expires_at"] },
    { table := "refresh_tokens",
      columns := ["username", "expires_at", "revoked_at", "token_hash"] },
    { table := "refresh_tokens", columns := ["revoked_at", "token_hash"] },
    { table := "refresh_tokens", columns := ["revoked_at", "username"] },
    { table := "refresh_tokens", columns := ["username", "token_hash"] }]

/-- `record_turn` and `write_history_and_audit`. -/
def historyQueries : List Query :=
  ["conversation_turns", "audit_log"].map fun table =>
    { table, columns := [],
      inserts := ["username", "question", "response_status", "document_id", "claims_summary"] }

/-- The statements of the application. -/
def queries : List Query :=
  documentQueries ++ chunkQueries ++ userQueries ++ refreshTokenQueries ++ historyQueries

private theorem fits_congr {catalog catalog' : Catalog} {q : Query}
    (h : catalog.table? q.table = catalog'.table? q.table) : q.fits catalog = q.fits catalog' := by
  simp only [Query.fits, h]

private theorem fits_alembic : ∀ k ≤ 4, ∀ q ∈ queries, isAlembic q.table = true →
    q.fits (catalogAt k) = ((catalogAt k).table? q.table).isSome := by
  decide +kernel

private theorem fits_schema : ∀ q ∈ queries, isOther q.table = true →
    q.fits schemaCatalog = (schemaCatalog.table? q.table).isSome ∧
      q.fits .empty = (Catalog.table? .empty q.table).isSome := by
  decide +kernel

/-- From which revision on the tables of all the statements are there. -/
private theorem tables_alembic : ∀ k ≤ 4,
    ((∀ q ∈ queries, isAlembic q.table = true → ((catalogAt k).table? q.table).isSome = true) ↔
      versionAt k = some "0003_add_history_tables" ∨
        versionAt k = some "0004_add_role_check_constraint") := by
  decide +kernel

private theorem tables_schema :
    (∀ q ∈ queries, isOther q.table = true → (schemaCatalog.table? q.table).isSome = true) ∧
      (schemaCatalog.table? "documents").isSome = true := by
  decide +kernel

/-- **The statements of the application fit the tables.** Whatever is done to a database, a
statement fits as soon as its table is there, at this and all later revisions; so all of them do
exactly if the schema has been applied and the database is at the revision that adds the history, or
the next. -/
theorem statements_fit_iff (commands : List DbCommand) :
    (∀ q ∈ queries, q.fits (commandsRun commands).db.catalog =
        ((commandsRun commands).db.catalog.table? q.table).isSome) ∧
      ((∀ q ∈ queries, q.fits (commandsRun commands).db.catalog = true) ↔
        ((commandsRun commands).db.catalog.table? "documents").isSome = true ∧
          ((commandsRun commands).version = some "0003_add_history_tables" ∨
            (commandsRun commands).version = some "0004_add_role_check_constraint")) := by
  have hs := migrated_commandsRun commands
  obtain ⟨k, hat⟩ := hs.revision
  generalize commandsRun commands = s at hs hat ⊢
  have halembic : ∀ {name}, isAlembic name = true →
      s.db.catalog.table? name = (catalogAt k).table? name := fun h => table?_of_atRevision hat h
  have hother : ∀ {name}, isOther name = true →
      s.db.catalog.table? name = (s.db.restrict isOther).catalog.table? name := fun h =>
    (table?_restrict h).symm
  have hfits : ∀ q ∈ queries, q.fits s.db.catalog = (s.db.catalog.table? q.table).isSome := by
    intro q hq
    by_cases hown : isAlembic q.table = true
    · rw [fits_congr (halembic hown), halembic hown]
      exact fits_alembic k hat.le q hq hown
    · have hown' : isOther q.table = true := by simpa [isOther] using hown
      rw [fits_congr (hother hown'), hother hown']
      rcases hs.schema with h | h
      · rw [h]
        exact (fits_schema q hq hown').2
      · rw [h]
        exact (fits_schema q hq hown').1
  refine ⟨hfits, ?_⟩
  rw [hat.version, ← tables_alembic k hat.le]
  constructor
  · intro h
    have hthere : ∀ q ∈ queries, (s.db.catalog.table? q.table).isSome = true := fun q hq =>
      (hfits q hq).symm.trans (h q hq)
    refine ⟨hthere { table := "documents", columns := documentColumns } (by decide),
      fun q hq hown => ?_⟩
    rw [← halembic hown]
    exact hthere q hq
  · rintro ⟨hdocuments, hrevision⟩ q hq
    rw [hfits q hq]
    by_cases hown : isAlembic q.table = true
    · rw [halembic hown]
      exact hrevision q hq hown
    · have hown' : isOther q.table = true := by simpa [isOther] using hown
      rw [hother (by decide)] at hdocuments
      rw [hother hown']
      rcases hs.schema with h | h
      · rw [h] at hdocuments
        cases hdocuments
      · rw [h]
        exact tables_schema.1 q hq hown'

end AuditFlow
