import AuditFlow.Foundation.Dict
import Mathlib.Data.List.Find
import Mathlib.Logic.Function.Basic

/-!
# Data definition

A database is a catalog of relations — tables and indexes share one space of names — and the rows of
its tables. A `Statement` creates, alters or drops a relation; it is refused if a name is taken or
missing, if something depends on what it drops, or if the rows violate a new constraint. Rows are
written against the constraints of their table.

* `sound_run`, `sound_upsert`: **every row meets the constraints** of its table, whatever statements
  and writes are executed.
* `restrict_run`, `frame_run`: statements that mention names of one owner only **neither see nor
  change the relations of other owners**, so that scripts of different owners may run in any order.
-/

namespace Foundation.Ddl

/-! ### Relations -/

inductive ColumnType
  | text
  | boolean
  | integer
  | bigint
  | timestamptz
  | jsonb
  deriving DecidableEq, Repr

structure Column where
  name : String
  type : ColumnType
  nullable : Bool := false
  hasDefault : Bool := false
  deriving DecidableEq, Repr

/-- `CHECK (column IN (…))`. -/
structure Check where
  name : String
  column : String
  allowed : List String
  deriving DecidableEq, Repr

structure Table where
  columns : List Column
  primaryKey : String
  /-- Columns declared unique. -/
  unique : List String := []
  /-- Tables that a foreign key refers to. -/
  references : List String := []
  checks : List Check := []
  deriving DecidableEq, Repr

inductive Relation
  | table (definition : Table)
  | index (on : String) (columns : List String) (predicate : Option String)
  deriving DecidableEq, Repr

/-- The relations that a relation belongs or refers to. -/
def Relation.refersTo : Relation → List String
  | .table definition => definition.references
  | .index on _ _ => [on]

/-- A row: the columns that are not null. -/
abbrev Row := List (String × String)

/-- The check holds of a row; it does of a null. -/
def Check.passes (check : Check) (row : Row) : Bool :=
  match row.lookup check.column with
  | none => true
  | some value => decide (value ∈ check.allowed)

/-- The column has a value in the row, or needs none. -/
def Column.filled (column : Column) (row : Row) : Bool :=
  column.nullable || column.hasDefault || (row.lookup column.name).isSome

/-- The constraints on a single row. -/
def Table.accepts (definition : Table) (row : Row) : Bool :=
  definition.columns.all (·.filled row) && definition.checks.all (·.passes row)

/-- The table has the column. -/
def Table.has (definition : Table) (column : String) : Bool :=
  definition.columns.any fun c => decide (c.name = column)

abbrev Catalog := Dict String Relation

/-- The table under a name. -/
def Catalog.table? (catalog : Catalog) (name : String) : Option Table :=
  match catalog.get? name with
  | some (.table definition) => some definition
  | _ => none

/-- Another table refers to the name. -/
def Catalog.referenced (catalog : Catalog) (name : String) : Bool :=
  catalog.entries.any fun e => match e.2 with
    | .table definition =>
      decide (e.1 ≠ name) && definition.references.any fun r => decide (r = name)
    | .index _ _ _ => false

structure Database where
  catalog : Catalog := .empty
  rows : String → List Row := fun _ => []

/-! ### Statements -/

inductive Statement
  | createTable (ifNotExists : Bool) (name : String) (definition : Table)
  | createIndex (ifNotExists : Bool) (name on : String) (columns : List String)
      (predicate : Option String)
  | dropTable (name : String)
  | dropIndex (name : String)
  | addCheck (table : String) (check : Check)
  | dropCheck (table name : String)
  deriving DecidableEq, Repr

/-- Why a statement or a write is refused. -/
inductive DdlError
  | duplicate (name : String)
  | undefined (name : String)
  | dependent (name : String)
  | notNull (table : String)
  | checkViolation (name : String)
  deriving DecidableEq, Repr

/-- What a statement does to the catalog and to the rows. -/
inductive Edit
  | keep
  | create (name : String) (relation : Relation)
  | alter (name : String) (definition : Table)
  | eraseIndex (name : String)
  | eraseTable (name : String)

/-- What a statement is going to do, or why it is refused. -/
def plan (db : Database) : Statement → Except DdlError Edit
  | .createTable ifNotExists name definition =>
    if db.catalog.contains name then
      if ifNotExists then .ok .keep else .error (.duplicate name)
    else match definition.references.find? fun r => (db.catalog.table? r).isNone with
      | some r => .error (.undefined r)
      | none => .ok (.create name (.table definition))
  | .createIndex ifNotExists name on columns predicate =>
    match db.catalog.table? on with
    | none => .error (.undefined on)
    | some definition => match columns.find? fun c => !definition.has c with
      | some c => .error (.undefined c)
      | none =>
        if db.catalog.contains name then
          if ifNotExists then .ok .keep else .error (.duplicate name)
        else .ok (.create name (.index on columns predicate))
  | .dropTable name =>
    match db.catalog.table? name with
    | none => .error (.undefined name)
    | some _ =>
      if db.catalog.referenced name then .error (.dependent name) else .ok (.eraseTable name)
  | .dropIndex name =>
    match db.catalog.get? name with
    | some (.index _ _ _) => .ok (.eraseIndex name)
    | _ => .error (.undefined name)
  | .addCheck table check =>
    match db.catalog.table? table with
    | none => .error (.undefined table)
    | some definition =>
      if definition.checks.any fun c => decide (c.name = check.name) then
        .error (.duplicate check.name)
      else if !definition.has check.column then .error (.undefined check.column)
      else if (db.rows table).all check.passes then
        .ok (.alter table { definition with checks := definition.checks ++ [check] })
      else .error (.checkViolation check.name)
  | .dropCheck table name =>
    match db.catalog.table? table with
    | none => .error (.undefined table)
    | some definition =>
      if definition.checks.any fun c => decide (c.name = name) then
        .ok (.alter table
          { definition with checks := definition.checks.filter fun c => decide (c.name ≠ name) })
      else .error (.undefined name)

/-- A table is created and erased without rows; its indexes go with it. -/
def Edit.apply (db : Database) : Edit → Database
  | .keep => db
  | .create name relation => {
      catalog := db.catalog.set name relation
      rows := Function.update db.rows name [] }
  | .alter name definition => { db with catalog := db.catalog.set name (.table definition) }
  | .eraseIndex name => { db with catalog := db.catalog.erase name }
  | .eraseTable name => {
      catalog := (db.catalog.erase name).filter fun _ relation => match relation with
        | .table _ => true
        | .index on _ _ => decide (on ≠ name)
      rows := Function.update db.rows name [] }

/-- Execute a statement. -/
def run (db : Database) (statement : Statement) : Except DdlError Database :=
  (plan db statement).map fun edit => edit.apply db

/-- Execute a script, up to the first statement that is refused. -/
def runAll (db : Database) (script : List Statement) : Except DdlError Database :=
  script.foldlM run db

/-- `INSERT … ON CONFLICT (primary key) DO UPDATE`. -/
def upsert (db : Database) (table : String) (row : Row) : Except DdlError Database :=
  match db.catalog.table? table with
  | none => .error (.undefined table)
  | some definition => match row.find? fun cell => !definition.has cell.1 with
    | some cell => .error (.undefined cell.1)
    | none =>
      if !definition.columns.all (·.filled row) then .error (.notNull table)
      else match definition.checks.find? fun check => !check.passes row with
        | some check => .error (.checkViolation check.name)
        | none =>
          .ok { db with
            rows := Function.update db.rows table (row :: (db.rows table).filter fun old =>
              decide (old.lookup definition.primaryKey ≠ row.lookup definition.primaryKey)) }

/-- `DELETE FROM … WHERE`. -/
def delete (db : Database) (table : String) (p : Row → Bool) : Database :=
  { db with rows := Function.update db.rows table ((db.rows table).filter fun row => !p row) }

/-! ### Every row meets the constraints -/

/-- The rows of the tables meet their constraints, and there are no others. -/
structure Sound (db : Database) : Prop where
  accepted : ∀ name definition, db.catalog.get? name = some (.table definition) →
    ∀ row ∈ db.rows name, definition.accepts row = true
  absent : ∀ name, db.catalog.table? name = none → db.rows name = []

section

variable {db db' : Database} {statement : Statement} {edit : Edit} {name table : String}

theorem sound_empty : Sound {} := ⟨(fun _ _ h => nomatch h), fun _ _ => rfl⟩

theorem table?_eq_some_iff {catalog : Catalog} {definition : Table} :
    catalog.table? name = some definition ↔ catalog.get? name = some (.table definition) := by
  rw [Catalog.table?]
  split
  · simp_all
  · rename_i hnot
    constructor
    · intro h
      cases h
    · intro h
      exact absurd h (hnot definition)

/-- New constraints have been checked against the rows, and what is erased as an index is none of
the tables. -/
def Edit.Checked (db : Database) : Edit → Prop
  | .alter name definition => ∀ row ∈ db.rows name, definition.accepts row = true
  | .eraseIndex name => db.catalog.table? name = none
  | _ => True

/-- A statement that is not refused has been checked. -/
theorem checked_plan (hsound : Sound db) (h : plan db statement = .ok edit) : edit.Checked db := by
  cases statement with
  | createTable ifNotExists name definition =>
    simp only [plan] at h
    split_ifs at h
    · obtain rfl := Except.ok.inj h
      trivial
    · split at h
      · cases h
      · obtain rfl := Except.ok.inj h
        trivial
  | createIndex ifNotExists name on columns predicate =>
    simp only [plan] at h
    split at h
    · cases h
    · split at h
      · cases h
      · split_ifs at h
        · obtain rfl := Except.ok.inj h
          trivial
        · obtain rfl := Except.ok.inj h
          trivial
  | dropTable name =>
    simp only [plan] at h
    split at h
    · cases h
    · split_ifs at h
      obtain rfl := Except.ok.inj h
      trivial
  | dropIndex name =>
    simp only [plan] at h
    split at h
    · rename_i on columns predicate hindex
      obtain rfl := Except.ok.inj h
      change db.catalog.table? name = none
      rw [Catalog.table?, hindex]
    · cases h
  | addCheck table check =>
    simp only [plan] at h
    split at h
    · cases h
    · rename_i definition hdefinition
      split_ifs at h with hduplicate hcolumn hrows
      obtain rfl := Except.ok.inj h
      intro row hrow
      have hold := hsound.accepted table definition (table?_eq_some_iff.mp hdefinition) row hrow
      have hnew := List.all_eq_true.mp hrows row hrow
      simp only [Table.accepts, Bool.and_eq_true, List.all_append, List.all_cons, List.all_nil,
        Bool.and_true] at hold ⊢
      exact ⟨hold.1, hold.2, hnew⟩
  | dropCheck table name =>
    simp only [plan] at h
    split at h
    · cases h
    · rename_i definition hdefinition
      split_ifs at h
      obtain rfl := Except.ok.inj h
      intro row hrow
      have hold := hsound.accepted table definition (table?_eq_some_iff.mp hdefinition) row hrow
      simp only [Table.accepts, Bool.and_eq_true, List.all_eq_true, List.mem_filter] at hold ⊢
      exact ⟨hold.1, fun check hcheck => hold.2 check hcheck.1⟩

private theorem table?_set_of_ne {catalog : Catalog} {relation : Relation} (h : table ≠ name) :
    Catalog.table? (catalog.set name relation) table = catalog.table? table := by
  rw [Catalog.table?, Catalog.table?, Dict.get?_set, if_neg h]

private theorem table?_erase {catalog : Catalog}
    (h : Catalog.table? (catalog.erase name) table = none) (hne : table ≠ name) :
    catalog.table? table = none := by
  rwa [Catalog.table?, Dict.get?_erase, if_neg hne, ← Catalog.table?] at h

private theorem sound_apply (hsound : Sound db) (hchecked : edit.Checked db) :
    Sound (edit.apply db) := by
  cases edit with
  | keep => exact hsound
  | create name relation =>
    refine ⟨fun other definition hget row hrow => ?_, fun other hnone => ?_⟩
    · dsimp only [Edit.apply] at hget hrow
      rcases eq_or_ne other name with rfl | hne
      · rw [Function.update_self] at hrow
        cases hrow
      · rw [Dict.get?_set, if_neg hne] at hget
        rw [Function.update_of_ne hne] at hrow
        exact hsound.accepted other definition hget row hrow
    · dsimp only [Edit.apply] at hnone ⊢
      rcases eq_or_ne other name with rfl | hne
      · exact Function.update_self _ _ _
      · rw [table?_set_of_ne hne] at hnone
        rw [Function.update_of_ne hne]
        exact hsound.absent other hnone
  | alter name definition =>
    refine ⟨fun other definition' hget row hrow => ?_, fun other hnone => ?_⟩
    · dsimp only [Edit.apply] at hget hrow
      rw [Dict.get?_set] at hget
      split_ifs at hget with hname
      · subst hname
        obtain rfl := Relation.table.inj (Option.some.inj hget)
        exact hchecked row hrow
      · exact hsound.accepted other definition' hget row hrow
    · dsimp only [Edit.apply] at hnone ⊢
      rcases eq_or_ne other name with rfl | hne
      · rw [Catalog.table?, Dict.get?_set_self] at hnone
        cases hnone
      · rw [table?_set_of_ne hne] at hnone
        exact hsound.absent other hnone
  | eraseIndex name =>
    refine ⟨fun other definition hget row hrow => ?_, fun other hnone => ?_⟩
    · dsimp only [Edit.apply] at hget hrow
      rw [Dict.get?_erase] at hget
      split_ifs at hget
      exact hsound.accepted other definition hget row hrow
    · dsimp only [Edit.apply] at hnone ⊢
      rcases eq_or_ne other name with rfl | hne
      · exact hsound.absent other hchecked
      · exact hsound.absent other (table?_erase hnone hne)
  | eraseTable name =>
    refine ⟨fun other definition hget row hrow => ?_, fun other hnone => ?_⟩
    · dsimp only [Edit.apply] at hget hrow
      rcases eq_or_ne other name with rfl | hne
      · rw [Function.update_self] at hrow
        cases hrow
      · rw [Dict.get?_filter, Dict.get?_erase, if_neg hne] at hget
        rw [Function.update_of_ne hne] at hrow
        exact hsound.accepted other definition (Option.filter_eq_some_iff.mp hget).1 row hrow
    · dsimp only [Edit.apply] at hnone ⊢
      rcases eq_or_ne other name with rfl | hne
      · exact Function.update_self _ _ _
      · rw [Function.update_of_ne hne]
        refine hsound.absent other ?_
        -- a table that is not erased is not filtered out
        rw [Catalog.table?, Dict.get?_filter, Dict.get?_erase, if_neg hne] at hnone
        rw [Catalog.table?]
        rcases hrelation : db.catalog.get? other with - | (definition | ⟨on, columns, predicate⟩)
        · rfl
        · rw [hrelation, Option.filter_some, if_pos rfl] at hnone
          cases hnone
        · rfl

/-- **Step lemma.** A statement keeps every row within the constraints. -/
theorem sound_run (hsound : Sound db) (h : run db statement = .ok db') : Sound db' := by
  rw [run] at h
  rcases hplan : plan db statement with e | edit
  · rw [hplan] at h
    cases h
  · rw [hplan] at h
    obtain rfl := Except.ok.inj h
    exact sound_apply hsound (checked_plan hsound hplan)

theorem sound_runAll {script : List Statement} (hsound : Sound db)
    (h : runAll db script = .ok db') : Sound db' := by
  induction script generalizing db with
  | nil =>
    obtain rfl := Except.ok.inj h
    exact hsound
  | cons statement script ih =>
    rw [runAll, List.foldlM_cons] at h
    rcases hrun : run db statement with e | db₁
    · rw [hrun] at h
      cases h
    · rw [hrun] at h
      exact ih (sound_run hsound hrun) h

/-- **Step lemma.** So does a write. -/
theorem sound_upsert {row : Row} (hsound : Sound db) (h : upsert db table row = .ok db') :
    Sound db' := by
  rw [upsert] at h
  split at h
  · cases h
  · rename_i definition hdefinition
    split at h
    · cases h
    · split_ifs at h with hfilled
      split at h
      · cases h
      · rename_i hpasses
        obtain rfl := Except.ok.inj h
        have hrow : definition.accepts row = true := by
          have hall : definition.checks.all (·.passes row) = true := by
            simpa [List.find?_eq_none] using hpasses
          rw [Table.accepts, hall, Bool.and_true]
          simpa using hfilled
        refine ⟨fun other definition' hget row' hrow' => ?_, fun other hnone => ?_⟩
        · dsimp only at hget hrow'
          rcases eq_or_ne other table with rfl | hne
          · have hsame := hget.symm.trans (table?_eq_some_iff.mp hdefinition)
            obtain rfl := Relation.table.inj (Option.some.inj hsame)
            rw [Function.update_self] at hrow'
            rcases List.mem_cons.mp hrow' with rfl | hold
            · exact hrow
            · exact hsound.accepted other _ hget row' (List.mem_filter.mp hold).1
          · rw [Function.update_of_ne hne] at hrow'
            exact hsound.accepted other definition' hget row' hrow'
        · dsimp only at hnone ⊢
          have hne : other ≠ table := by
            rintro rfl
            rw [hdefinition] at hnone
            cases hnone
          rw [Function.update_of_ne hne]
          exact hsound.absent other hnone

/-- **Step lemma.** And so does a deletion. -/
theorem sound_delete (hsound : Sound db) (table : String) (p : Row → Bool) :
    Sound (delete db table p) := by
  have hsub : ∀ name, delete db table p |>.rows name |>.Sublist (db.rows name) := by
    intro name
    dsimp only [delete]
    rcases eq_or_ne name table with rfl | hne
    · rw [Function.update_self]
      exact List.filter_sublist
    · rw [Function.update_of_ne hne]
  refine ⟨fun name definition hget row hrow => ?_, fun name hnone => ?_⟩
  · exact hsound.accepted name definition hget row ((hsub name).subset hrow)
  · have hempty := hsub name
    rw [hsound.absent name hnone] at hempty
    exact List.sublist_nil.mp hempty

/-- A write changes no relation. -/
theorem catalog_upsert {row : Row} (h : upsert db table row = .ok db') :
    db'.catalog = db.catalog := by
  rw [upsert] at h
  split at h
  · cases h
  · split at h
    · cases h
    · split_ifs at h
      split at h
      · cases h
      · obtain rfl := Except.ok.inj h
        rfl

/-! ### What a statement depends on -/

/-- A new check on a table that there is. -/
theorem run_addCheck {definition : Table} {check : Check}
    (htable : db.catalog.table? table = some definition)
    (hnew : (definition.checks.any fun c => decide (c.name = check.name)) = false)
    (hcolumn : definition.has check.column = true) :
    run db (.addCheck table check) =
      if (db.rows table).all check.passes then
        .ok { db with
          catalog := db.catalog.set table
            (.table { definition with checks := definition.checks ++ [check] }) }
      else .error (.checkViolation check.name) := by
  simp only [run, plan, htable, hnew, hcolumn, Bool.false_eq_true, if_false, Bool.not_true]
  split_ifs
  · rfl
  · rfl

/-- Only new checks look at the rows. -/
def Statement.ignoresRows : Statement → Bool
  | .addCheck _ _ => false
  | _ => true

private theorem plan_congr (hcatalog : db.catalog = db'.catalog)
    (h : statement.ignoresRows = true) : plan db statement = plan db' statement := by
  cases statement with
  | addCheck table check => cases h
  | createTable | createIndex | dropTable | dropIndex | dropCheck => simp only [plan, hcatalog]

private theorem catalog_apply (hcatalog : db.catalog = db'.catalog) (edit : Edit) :
    (edit.apply db).catalog = (edit.apply db').catalog := by
  cases edit with
  | keep => exact hcatalog
  | create | alter | eraseIndex | eraseTable => simp only [Edit.apply, hcatalog]

/-- The table whose rows a statement drops. -/
def Statement.drops : Statement → Option String
  | .dropTable name => some name
  | _ => none

/-- What is created under a new name has no rows. -/
private theorem rows_create (hsound : Sound db) (hnew : db.catalog.contains name = false)
    (other : String) : Function.update db.rows name [] other = db.rows other := by
  rcases eq_or_ne other name with rfl | hne
  · have hnone : db.catalog.get? other = none := by simpa [Dict.contains] using hnew
    rw [Function.update_self, hsound.absent other (by rw [Catalog.table?, hnone])]
  · exact Function.update_of_ne hne _ _

private theorem rows_run_of_kept (hsound : Sound db) (h : run db statement = .ok db')
    (hname : statement.drops ≠ some name) : db'.rows name = db.rows name := by
  cases statement with
  | createTable ifNotExists other definition =>
    simp only [run, plan] at h
    split_ifs at h with hcontains
    · obtain rfl := Except.ok.inj h
      rfl
    · cases h
    · split at h
      · cases h
      · obtain rfl := Except.ok.inj h
        exact rows_create hsound (Bool.eq_false_iff.mpr hcontains) name
  | createIndex ifNotExists other on columns predicate =>
    simp only [run, plan] at h
    split at h
    · cases h
    · split at h
      · cases h
      · split_ifs at h with hcontains
        · obtain rfl := Except.ok.inj h
          rfl
        · cases h
        · obtain rfl := Except.ok.inj h
          exact rows_create hsound (Bool.eq_false_iff.mpr hcontains) name
  | dropTable other =>
    have hne : name ≠ other := by
      rintro rfl
      exact hname rfl
    simp only [run, plan] at h
    split at h
    · cases h
    · split_ifs at h
      · cases h
      · obtain rfl := Except.ok.inj h
        exact Function.update_of_ne hne _ _
  | dropIndex other =>
    simp only [run, plan] at h
    split at h
    · obtain rfl := Except.ok.inj h
      rfl
    · cases h
  | addCheck table check =>
    simp only [run, plan] at h
    split at h
    · cases h
    · split_ifs at h
      · cases h
      · cases h
      · obtain rfl := Except.ok.inj h
        rfl
      · cases h
  | dropCheck table other =>
    simp only [run, plan] at h
    split at h
    · cases h
    · split_ifs at h
      · obtain rfl := Except.ok.inj h
        rfl
      · cases h

/-- **A script keeps the rows** of the tables that it does not drop. -/
theorem rows_runAll_of_kept {script : List Statement} (hsound : Sound db)
    (h : runAll db script = .ok db') (hname : ∀ statement ∈ script, statement.drops ≠ some name) :
    db'.rows name = db.rows name := by
  induction script generalizing db with
  | nil =>
    obtain rfl := Except.ok.inj h
    rfl
  | cons statement script ih =>
    obtain ⟨hfirst, hrest⟩ := List.forall_mem_cons.mp hname
    rw [runAll, List.foldlM_cons] at h
    rcases hrun : run db statement with e | db₁
    · rw [hrun] at h
      cases h
    · rw [hrun] at h
      have hkept := rows_run_of_kept hsound hrun hfirst
      exact (ih (sound_run hsound hrun) h hrest).trans hkept

/-- **The catalog that a script leaves** does not depend on the rows, unless it adds a check. -/
theorem catalog_runAll {script : List Statement} (hcatalog : db.catalog = db'.catalog)
    (h : ∀ statement ∈ script, statement.ignoresRows = true) :
    (runAll db script).map Database.catalog = (runAll db' script).map Database.catalog := by
  induction script generalizing db db' with
  | nil => exact congrArg Except.ok hcatalog
  | cons statement script ih =>
    obtain ⟨hfirst, hrest⟩ := List.forall_mem_cons.mp h
    rw [runAll, runAll, List.foldlM_cons, List.foldlM_cons, run, run, plan_congr hcatalog hfirst]
    rcases plan db' statement with e | edit
    · rfl
    · exact ih (catalog_apply hcatalog edit) hrest

end

/-! ### Owners -/

/-- The relations of one owner, with their rows. -/
def Database.restrict (db : Database) (K : String → Bool) : Database where
  catalog := db.catalog.filter fun name _ => K name
  rows name := if K name then db.rows name else []

/-- No relation refers to one of another owner. -/
def Separated (K : String → Bool) (catalog : Catalog) : Prop :=
  ∀ name relation, catalog.get? name = some relation → ∀ r ∈ relation.refersTo, K r = K name

/-- The names that a statement mentions. -/
def Statement.mentions : Statement → List String
  | .createTable _ name definition => name :: definition.references
  | .createIndex _ name on _ _ => [name, on]
  | .dropTable name | .dropIndex name => [name]
  | .addCheck table _ | .dropCheck table _ => [table]

/-- A statement about relations of the owner. -/
def Statement.Within (K : String → Bool) (statement : Statement) : Prop :=
  ∀ name ∈ statement.mentions, K name = true

instance (K : String → Bool) (statement : Statement) : Decidable (statement.Within K) :=
  inferInstanceAs (Decidable (∀ name ∈ statement.mentions, K name = true))

/-- An edit of relations of the owner. -/
def Edit.Within (K : String → Bool) : Edit → Prop
  | .keep => True
  | .create name relation => K name = true ∧ ∀ r ∈ relation.refersTo, K r = true
  | .alter name definition => K name = true ∧ ∀ r ∈ definition.references, K r = true
  | .eraseIndex name | .eraseTable name => K name = true

section

variable {K : String → Bool} {db db' : Database} {statement : Statement} {edit : Edit}
  {name table : String}

private theorem get?_restrict (h : K name = true) :
    (db.restrict K).catalog.get? name = db.catalog.get? name := by
  rw [Database.restrict, Dict.get?_filter]
  rcases db.catalog.get? name with - | relation
  · rfl
  · exact if_pos h

theorem table?_restrict (h : K name = true) :
    (db.restrict K).catalog.table? name = db.catalog.table? name := by
  rw [Catalog.table?, Catalog.table?, get?_restrict h]

private theorem contains_restrict (h : K name = true) :
    (db.restrict K).catalog.contains name = db.catalog.contains name := by
  rw [Dict.contains, Dict.contains, get?_restrict h]

private theorem rows_restrict (h : K name = true) : (db.restrict K).rows name = db.rows name :=
  if_pos h

/-- Only tables of the owner refer to a table of the owner. -/
private theorem referenced_restrict (hsep : Separated K db.catalog) (h : K name = true) :
    (db.restrict K).catalog.referenced name = db.catalog.referenced name := by
  rw [Bool.eq_iff_iff, Catalog.referenced, Catalog.referenced, List.any_eq_true, List.any_eq_true]
  constructor
  · rintro ⟨e, he, hrefers⟩
    exact ⟨e, (List.mem_filter.mp he).1, hrefers⟩
  · rintro ⟨⟨other, relation⟩, he, hrefers⟩
    refine ⟨(other, relation), List.mem_filter.mpr ⟨he, ?_⟩, hrefers⟩
    cases relation with
    | index on columns predicate => cases hrefers
    | table definition =>
      obtain ⟨r, hr, hname⟩ := List.any_eq_true.mp (Bool.and_eq_true_iff.mp hrefers).2
      obtain rfl := of_decide_eq_true hname
      have hother : K r = K other := hsep other _ (Dict.mem_entries_iff.mp he) r hr
      dsimp only
      rw [← hother, h]

/-- **What is planned depends on the relations of the owner only.** -/
private theorem plan_restrict (hsep : Separated K db.catalog) (hwithin : statement.Within K) :
    plan (db.restrict K) statement = plan db statement := by
  cases statement with
  | createTable ifNotExists name definition =>
    obtain ⟨hname, hreferences⟩ := List.forall_mem_cons.mp hwithin
    have hfind : (definition.references.find? fun r =>
        ((db.restrict K).catalog.table? r).isNone) =
          definition.references.find? fun r => (db.catalog.table? r).isNone := by
      refine List.find?_congr fun r hr => ?_
      rw [table?_restrict (hreferences r hr)]
    simp only [plan, contains_restrict hname, hfind]
  | createIndex ifNotExists name on columns predicate =>
    obtain ⟨hname, hon⟩ := List.forall_mem_cons.mp hwithin
    simp only [plan, contains_restrict hname, table?_restrict (hon on List.mem_cons_self)]
  | dropTable name =>
    have hname := hwithin name List.mem_cons_self
    simp only [plan, table?_restrict hname, referenced_restrict hsep hname]
  | dropIndex name =>
    simp only [plan, get?_restrict (hwithin name List.mem_cons_self)]
  | addCheck table check =>
    have htable := hwithin table List.mem_cons_self
    simp only [plan, table?_restrict htable, rows_restrict htable]
  | dropCheck table name =>
    simp only [plan, table?_restrict (hwithin table List.mem_cons_self)]

private theorem references_within (hsep : Separated K db.catalog) (htable : K table = true)
    {definition : Table} (h : db.catalog.table? table = some definition) :
    ∀ r ∈ definition.references, K r = true := fun r hr =>
  (hsep table _ (table?_eq_some_iff.mp h) r hr).trans htable

/-- What is planned concerns relations of the owner. -/
private theorem within_of_plan (hsep : Separated K db.catalog) (hwithin : statement.Within K)
    (h : plan db statement = .ok edit) : edit.Within K := by
  cases statement with
  | createTable ifNotExists name definition =>
    obtain ⟨hname, hreferences⟩ := List.forall_mem_cons.mp hwithin
    simp only [plan] at h
    split_ifs at h
    · obtain rfl := Except.ok.inj h
      trivial
    · split at h
      · cases h
      · obtain rfl := Except.ok.inj h
        exact ⟨hname, hreferences⟩
  | createIndex ifNotExists name on columns predicate =>
    obtain ⟨hname, hon⟩ := List.forall_mem_cons.mp hwithin
    simp only [plan] at h
    split at h
    · cases h
    · split at h
      · cases h
      · split_ifs at h
        · obtain rfl := Except.ok.inj h
          trivial
        · obtain rfl := Except.ok.inj h
          exact ⟨hname, hon⟩
  | dropTable name =>
    simp only [plan] at h
    split at h
    · cases h
    · split_ifs at h
      obtain rfl := Except.ok.inj h
      exact hwithin name List.mem_cons_self
  | dropIndex name =>
    simp only [plan] at h
    split at h
    · obtain rfl := Except.ok.inj h
      exact hwithin name List.mem_cons_self
    · cases h
  | addCheck table check =>
    have htable := hwithin table List.mem_cons_self
    simp only [plan] at h
    split at h
    · cases h
    · rename_i definition hdefinition
      split_ifs at h
      obtain rfl := Except.ok.inj h
      have hreferences := references_within hsep htable hdefinition
      exact ⟨htable, hreferences⟩
  | dropCheck table name =>
    have htable := hwithin table List.mem_cons_self
    simp only [plan] at h
    split at h
    · cases h
    · rename_i definition hdefinition
      split_ifs at h
      obtain rfl := Except.ok.inj h
      have hreferences := references_within hsep htable hdefinition
      exact ⟨htable, hreferences⟩

/-! ### Edits of an owner -/

/-- Setting a name of the owner, seen by the owner. -/
private theorem filter_set_own (catalog : Catalog) (h : K name = true) (relation : Relation) :
    (catalog.set name relation).filter (fun n _ => K n) =
      Dict.set (catalog.filter fun n _ => K n) name relation :=
  Dict.filter_set_of_pass h fun _ _ => h

/-- Setting a name of the owner, seen by others. -/
private theorem filter_set_other (catalog : Catalog) (h : K name = true) (relation : Relation) :
    (catalog.set name relation).filter (fun n _ => !K n) = catalog.filter fun n _ => !K n := by
  have hnot : (!K name) = false := by rw [h, Bool.not_true]
  exact Dict.filter_set_of_drop hnot fun _ _ => hnot

/-- Erasing a name of the owner, seen by others. -/
private theorem filter_erase_other (catalog : Catalog) (h : K name = true) :
    (catalog.erase name).filter (fun n _ => !K n) = catalog.filter fun n _ => !K n := by
  refine Dict.eq_of_entries ?_
  simp only [Dict.erase, Dict.filter, List.filter_filter]
  refine List.filter_congr fun e _ => ?_
  by_cases he : e.1 = name
  · simp [he, h]
  · simp [he]

private theorem rows_update_own (rows : String → List Row) (h : K name = true)
    (written : List Row) :
    (fun n => if K n then Function.update rows name written n else []) =
      Function.update (fun n => if K n then rows n else []) name written := by
  funext n
  rcases eq_or_ne n name with rfl | hne
  · rw [Function.update_self, Function.update_self, if_pos h]
  · rw [Function.update_of_ne hne, Function.update_of_ne hne]

private theorem rows_update_other (rows : String → List Row) (h : K name = true)
    (written : List Row) :
    (fun n => if !K n then Function.update rows name written n else []) =
      fun n => if !K n then rows n else [] := by
  funext n
  rcases eq_or_ne n name with rfl | hne
  · simp [h]
  · rw [Function.update_of_ne hne]

private theorem restrict_apply (hwithin : edit.Within K) :
    (edit.apply db).restrict K = edit.apply (db.restrict K) := by
  cases edit with
  | keep => rfl
  | create name relation =>
    simp only [Edit.apply, Database.restrict, filter_set_own _ hwithin.1,
      rows_update_own _ hwithin.1]
  | alter name definition =>
    simp only [Edit.apply, Database.restrict, filter_set_own _ hwithin.1]
  | eraseIndex name =>
    simp only [Edit.apply, Database.restrict, Dict.erase, Dict.filter_comm]
  | eraseTable name =>
    have hrows := rows_update_own (K := K) db.rows hwithin []
    simp only [Edit.apply, Database.restrict, hrows, Dict.erase]
    congr 1
    rw [Dict.filter_comm, Dict.filter_comm db.catalog]

/-- An edit of the owner is not seen by others. -/
private theorem frame_apply (hsep : Separated K db.catalog) (hwithin : edit.Within K) :
    (edit.apply db).restrict (fun n => !K n) = db.restrict fun n => !K n := by
  cases edit with
  | keep => rfl
  | create name relation =>
    simp only [Edit.apply, Database.restrict, filter_set_other _ hwithin.1,
      rows_update_other _ hwithin.1]
  | alter name definition =>
    simp only [Edit.apply, Database.restrict, filter_set_other _ hwithin.1]
  | eraseIndex name =>
    simp only [Edit.apply, Database.restrict, filter_erase_other _ hwithin]
  | eraseTable name =>
    have hrows := rows_update_other (K := K) db.rows hwithin []
    simp only [Edit.apply, Database.restrict, hrows]
    congr 1
    rw [Dict.filter_comm, filter_erase_other _ hwithin]
    -- the indexes of the table are those of its owner
    refine Dict.eq_of_entries (List.filter_eq_self.mpr ?_)
    rintro ⟨other, relation⟩ he
    obtain ⟨hmem, hother⟩ := List.mem_filter.mp he
    cases relation with
    | table definition => rfl
    | index on columns predicate =>
      have hon : K on = K other :=
        hsep other _ (Dict.mem_entries_iff.mp hmem) on List.mem_cons_self
      dsimp only at hother ⊢
      refine decide_eq_true ?_
      rintro rfl
      rw [← hon, show K on = true from hwithin] at hother
      cases hother

private theorem separated_apply (hsep : Separated K db.catalog) (hwithin : edit.Within K) :
    Separated K (edit.apply db).catalog := by
  intro other relation hget r hr
  cases edit with
  | keep => exact hsep other relation hget r hr
  | create name created =>
    dsimp only [Edit.apply] at hget
    rw [Dict.get?_set] at hget
    split_ifs at hget with hname
    · obtain rfl := Option.some.inj hget
      rw [hname, hwithin.1, hwithin.2 r hr]
    · exact hsep other relation hget r hr
  | alter name definition =>
    dsimp only [Edit.apply] at hget
    rw [Dict.get?_set] at hget
    split_ifs at hget with hname
    · obtain rfl := Option.some.inj hget
      rw [hname, hwithin.1, hwithin.2 r hr]
    · exact hsep other relation hget r hr
  | eraseIndex name =>
    dsimp only [Edit.apply] at hget
    rw [Dict.get?_erase] at hget
    split_ifs at hget
    exact hsep other relation hget r hr
  | eraseTable name =>
    dsimp only [Edit.apply] at hget
    rw [Dict.get?_filter, Dict.get?_erase] at hget
    have hkept := (Option.filter_eq_some_iff.mp hget).1
    split_ifs at hkept
    exact hsep other relation hkept r hr

/-! ### Statements of an owner -/

/-- **The owner alone**: a statement does to the relations of the owner what it does to them if
there are no others. -/
theorem restrict_run (hsep : Separated K db.catalog) (hwithin : statement.Within K) :
    run (db.restrict K) statement = (run db statement).map fun db' => db'.restrict K := by
  rw [run, run, plan_restrict hsep hwithin]
  rcases hplan : plan db statement with e | edit
  · rfl
  · simp only [Except.map, restrict_apply (within_of_plan hsep hwithin hplan)]

/-- **The others are left alone.** -/
theorem frame_run (hsep : Separated K db.catalog) (hwithin : statement.Within K)
    (h : run db statement = .ok db') :
    (db'.restrict fun n => !K n) = (db.restrict fun n => !K n) ∧ Separated K db'.catalog := by
  rw [run] at h
  rcases hplan : plan db statement with e | edit
  · rw [hplan] at h
    cases h
  · rw [hplan] at h
    obtain rfl := Except.ok.inj h
    have hedit := within_of_plan hsep hwithin hplan
    exact ⟨frame_apply hsep hedit, separated_apply hsep hedit⟩

/-- **A script of an owner**, alone and among others. -/
theorem restrict_runAll {script : List Statement} (hsep : Separated K db.catalog)
    (hwithin : ∀ statement ∈ script, statement.Within K) :
    runAll (db.restrict K) script = (runAll db script).map fun db' => db'.restrict K := by
  induction script generalizing db with
  | nil => rfl
  | cons statement script ih =>
    obtain ⟨hfirst, hrest⟩ := List.forall_mem_cons.mp hwithin
    rw [runAll, runAll, List.foldlM_cons, List.foldlM_cons, restrict_run hsep hfirst]
    rcases hrun : run db statement with e | db₁
    · rfl
    · exact ih (frame_run hsep hfirst hrun).2 hrest

theorem frame_runAll {script : List Statement} (hsep : Separated K db.catalog)
    (hwithin : ∀ statement ∈ script, statement.Within K) (h : runAll db script = .ok db') :
    (db'.restrict fun n => !K n) = (db.restrict fun n => !K n) ∧ Separated K db'.catalog := by
  induction script generalizing db with
  | nil =>
    obtain rfl := Except.ok.inj h
    exact ⟨rfl, hsep⟩
  | cons statement script ih =>
    obtain ⟨hfirst, hrest⟩ := List.forall_mem_cons.mp hwithin
    rw [runAll, List.foldlM_cons] at h
    rcases hrun : run db statement with e | db₁
    · rw [hrun] at h
      cases h
    · rw [hrun] at h
      obtain ⟨hframe, hsep₁⟩ := frame_run hsep hfirst hrun
      obtain ⟨hframe', hsep'⟩ := ih hsep₁ hrest h
      exact ⟨hframe'.trans hframe, hsep'⟩

end

end Foundation.Ddl
