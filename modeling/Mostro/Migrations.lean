import Mostro.MigrationTexts

set_option autoImplicit false

/-!
Opening an existing database.  The migrations that are not recorded run in order, each in one
transaction; where one fails because a column exists, a migration that only adds existing columns
may be recorded without running, once, and the rest is run again.
-/

namespace Mostro.Migrations

/-- Tables and their columns.  SQLite compares names without regard to the case of ASCII letters. -/
abbrev Schema := List (Text × List Text)

def Schema.columns (s : Schema) (table : Text) : List Text :=
  ((s.find? fun t => eqIgnoreAsciiCase t.1 table).map (·.2)).getD []

def Schema.has (s : Schema) (table column : Text) : Bool :=
  (s.columns table).any (eqIgnoreAsciiCase · column)

def tableColumnExists (s : Schema) (table column : Text) : Bool := (s.columns table).contains column

inductive Statement where
  | addColumn (table column : Text)
  | other (text : Text)
  deriving DecidableEq, Repr

/-- SQLite and its driver: the statements of a text, whether the text of a statement is well formed,
what a statement that is no column addition does, and the text of the error with which a migration
fails. -/
structure Sqlite where
  statements : Text → List Statement
  accepts : Text → Bool
  execute : Text → Schema → Except Text Schema
  executeError : Int → Text → Text

def Statement.execute (sqlite : Sqlite) : Statement → Schema → Except Text Schema
  | .addColumn table column, s =>
    if (s.find? fun t => eqIgnoreAsciiCase t.1 table).isNone then
      .error ("no such table: ".toList ++ table)
    else if s.has table column then .error (duplicateMarker ++ column)
    else .ok (s.map fun t => if eqIgnoreAsciiCase t.1 table then (t.1,t.2 ++ [column]) else t)
  | .other text, s => sqlite.execute text s

structure Migration where
  version : Int
  sql : Text
  deriving DecidableEq

def Migration.execute (sqlite : Sqlite) (m : Migration) (s : Schema) : Except Text Schema :=
  (sqlite.statements m.sql).foldlM (fun s statement => statement.execute sqlite s) s

structure Migrator where
  migrations : List Migration
  versions : (migrations.map (·.version)).Nodup := by decide

structure Database where
  schema : Schema
  applied : List Int
  deriving DecidableEq

def Database.record (d : Database) (m : Migration) : Database :=
  { d with applied := d.applied ++ [m.version] }

def run (sqlite : Sqlite) : List Migration → Database → Database × Option Text
  | [], d => (d,none)
  | m :: rest, d =>
    if d.applied.contains m.version then run sqlite rest d
    else match m.execute sqlite d.schema with
      | .ok s => run sqlite rest ({ d with schema := s }.record m)
      | .error cause => (d,some (sqlite.executeError m.version cause))

def addsExisting (duplicate : Text) (s : Schema) (m : Migration) : Bool :=
  match parseAddColumnStatements m.sql with
  | none => false
  | some operations => operations.any (·.2 == duplicate) &&
      operations.all fun op => tableColumnExists s op.1 op.2

def reconcileExistingAddColumnMigration (migrations : List Migration) (duplicate : Text)
    (d : Database) : Option Migration :=
  migrations.find? fun m => !d.applied.contains m.version && addsExisting duplicate d.schema m

def Schema.dropColumn (s : Schema) (table column : Text) : Schema :=
  s.map fun t => if eqIgnoreAsciiCase t.1 table then
    (t.1,t.2.filter fun c => !eqIgnoreAsciiCase c column) else t

def migrateRemoveTokenColumns (s : Schema) : Schema :=
  let disputes := "disputes".toList
  let buyer := "buyer_token".toList
  let seller := "seller_token".toList
  let dropped := if tableColumnExists s disputes buyer then s.dropColumn disputes buyer else s
  if tableColumnExists s disputes seller then dropped.dropColumn disputes seller else dropped

/-- How the opening went, and the migration that was recorded without running, with the schema as it
was then. -/
structure Opening where
  opened : Bool
  db : Database
  reconciled : Option (Migration × Schema) := none
  deriving DecidableEq

def connect (sqlite : Sqlite) (migrator : Migrator) (d : Database) : Opening :=
  match run sqlite migrator.migrations d with
  | (d,none) => { opened := true, db := { d with schema := migrateRemoveTokenColumns d.schema } }
  | (d,some error) =>
    match parseDuplicateColumnName error with
    | none => { opened := false, db := d }
    | some duplicate =>
      match reconcileExistingAddColumnMigration migrator.migrations duplicate d with
      | none => { opened := false, db := d }
      | some m =>
        match run sqlite migrator.migrations (d.record m) with
        | (d',none) =>
          { opened := true, db := { d' with schema := migrateRemoveTokenColumns d'.schema }
            reconciled := some (m,d.schema) }
        | (d',some _) => { opened := false, db := d', reconciled := some (m,d.schema) }

/-- What is known of SQLite: blank text holds no statement, the well-formed text of a column
addition is that statement, and the driver's error ends in the message of a duplicate column. -/
structure Sqlite.Documented (sqlite : Sqlite) : Prop where
  blank : ∀ t, (∀ c ∈ t, isSqlSpace c = true) → sqlite.statements t = []
  addition : ∀ op t, Spaced t → ';' ∉ t → Addition op t → sqlite.accepts t = true →
    sqlite.statements t = [.addColumn op.1 op.2]
  duplicate : ∀ version column, afterFirst duplicateMarker
    (sqlite.executeError version (duplicateMarker ++ column)) = some column

/-- SQLite reads the pieces of the text for themselves: no line that looks like a comment and no
semicolon stands inside a quotation or a comment. -/
structure Sqlite.ReadsPieces (sqlite : Sqlite) (sql : Text) (ts : List Text) : Prop where
  cut : sqlite.statements sql = ts.flatMap sqlite.statements
  spaced : ∀ t ∈ ts, Spaced t
  accepted : ∀ t ∈ ts, Shaped t → sqlite.accepts t = true
  named : ∀ t ∈ ts, Shaped t → ∃ op, Addition op t

/-- A text all of whose pieces look like column additions is read piece by piece. -/
def Sqlite.Plain (sqlite : Sqlite) (sql : Text) : Prop :=
  ∀ ts, Pieces sql ts → (∀ t ∈ ts, Words t [] ∨ Shaped t) → sqlite.ReadsPieces sql ts

/-- All statements of the migration add columns, and all the columns are there. -/
def Migration.present (sqlite : Sqlite) (s : Schema) (m : Migration) : Bool :=
  !(sqlite.statements m.sql).isEmpty && (sqlite.statements m.sql).all fun statement =>
    match statement with
    | .addColumn table column => s.has table column
    | .other _ => false

def Migration.spelled (sqlite : Sqlite) (s : Schema) (m : Migration) : Bool :=
  (sqlite.statements m.sql).all fun statement =>
    match statement with
    | .addColumn table column => tableColumnExists s table column
    | .other _ => false

/-- The migrations that can be skipped when those whose columns are all there are, and the others
run; none if one of the others fails. -/
def skips (sqlite : Sqlite) : List Migration → Schema → Option (List (Migration × Schema))
  | [], _ => some []
  | m :: rest, s =>
    if m.present sqlite s then (skips sqlite rest s).map ((m,s) :: ·)
    else match m.execute sqlite s with
      | .ok s' => skips sqlite rest s'
      | .error _ => none

def Database.pending (d : Database) (migrations : List Migration) : List Migration :=
  migrations.filter fun m => !d.applied.contains m.version

end Mostro.Migrations
