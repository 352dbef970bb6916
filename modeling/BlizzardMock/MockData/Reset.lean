import BlizzardMock.Data.References
import BlizzardMock.MockData.ReflectedStore

/-! A store's reset: one transaction that deletes, children before parents, every row outside a
boundary. -/

namespace BlizzardMock.MockData

variable [Unicode]

def tenantsTable : String := "tenants"
def workItemSequenceTable : String := "work_item_sequence"
def defaultProjectSlug : String := "default"
def migrationTrackingTable : String := "alembic_version"

def hubGlobalTables : List String :=
  [tenantsTable, "tenant_deletions", "users", "identities", "sessions", "auth_state", "auth_facts",
    "superuser_bootstrap", "hub_admin_facts", "config_import_facts", "membership_facts",
      "hub_event_log",
    "trace_cursor", "egress_cursor"]

structure ResetSummary where
  rowsDeleted : Nat
  tableCount : Nat
  tablesKept : Nat
  deriving DecidableEq

structure ResetBoundary where
  keptTables : List String
  keptRows : Dict String Values
  requiresTable : Option String

def clearEverything : ResetBoundary := ⟨[], ∅, none⟩

def ResetBoundary.forStore (boundary : ResetBoundary) (storeTables : List String) : ResetBoundary :=
  match boundary.requiresTable with
  | some table => if table ∈ storeTables then boundary else clearEverything
  | none => boundary

def hubResetBoundary (globalTables : List String) : ResetBoundary where
  keptTables := globalTables ++ [tenantsTable, workItemSequenceTable]
  keptRows := .ofList [(projectsTable, .ofList [("slug", .str defaultProjectSlug)])]
  requiresTable := some tenantsTable

inductive ResetError
  | schemaDrift (message : String)
  | integrity (orig : String)

/-! A filter in SQL, where a comparison with a null is unknown -/

inductive Cell
  | number (value : Rat)
  | infinite (negative : Bool)
  | text (s : String)
  deriving DecidableEq

def cell : Json → Option Cell
  | .null => none
  | .bool b => some (.number (if b then 1 else 0))
  | .int n => some (.number n)
  | .float (.finite _ value) => some (.number value)
  | .float (.infinite negative) => some (.infinite negative)
  | .float .nan => none
  | .str s => some (.text s)
  | .arr items => some (.text (Json.arr items).dumps)
  | .obj fields => some (.text (Json.obj fields).dumps)

def sqlEquals (held value : Json) : Option Bool :=
  match value with
  | .null => some (cell held).isNone
  | _ => (cell held).bind fun a => (cell value).map fun b => decide (a = b)

def sqlAnd (l : List (Option Bool)) : Option Bool :=
  if some false ∈ l then some false else if none ∈ l then none else some true

def sqlNot (b : Option Bool) : Option Bool := b.map (!·)

def outside (keep : Values) (row : Values) : Bool :=
  keep.entries = [] ∨
    sqlNot (sqlAnd (keep.entries.map fun c => sqlEquals (row.getD c.1 .null) c.2)) = some true

def deleteOutside (name : String) (table : ReflectedTable) (keep : Values) :
    Except ResetError (Values → Bool) :=
  let absent := sorted (keep.keys.filter (· ∉ table.columns))
  if absent ≠ [] then .error (.schemaDrift
    (s!"schema drift: table {reprStr name} has no column(s) {listing absent} to tell the rows a reset keeps — " ++
      s!"see {guide}"))
  else .ok (outside keep)

structure ForeignKeyConstraint where
  table : String
  columns : List String
  referredTable : String
  referredColumns : List String

def keyOf (columns : List String) (row : Values) : Option (List Cell) := columns.mapM fun c =>
      cell (row.getD c .null)

def ForeignKeyConstraint.key (constraint : ForeignKeyConstraint) :
    ForeignKey String Values (List Cell) where
  child := constraint.table
  parent := constraint.referredTable
  refers := keyOf constraint.columns
  named := keyOf constraint.referredColumns

namespace Database

def counterRow (entry : LaneKey × Int) : Values :=
  .ofList [(runnerColumn, .str entry.1.1), ("lane", .str entry.1.2), ("last_seq", .int entry.2)]

def rowsOf (db : Database) (name : String) : List Values :=
  if name = outboxCountersTable then db.counters.entries.map counterRow else db.held name

def withoutRows (db : Database) (name : String) (gone : Values → Bool) : Database :=
  if name = outboxCountersTable then
    { db with counters.entries := db.counters.entries.filter fun e => !gone (counterRow e)
              counters.nodup := db.counters.nodup.sublist (List.filter_sublist.map Prod.fst) }
  else { db with held := Function.update db.held name ((db.held name).filter fun row => !gone row) }

variable (constraints : List ForeignKeyConstraint)

def executeDelete (db : Database) (name : String) (gone : Values → Bool) :
    Except ResetError (Nat × Database) :=
  if References.Stands (constraints.map (·.key)) db.rowsOf (db.withoutRows name gone).rowsOf then
    .ok ((db.rowsOf name).countP gone, db.withoutRows name gone)
  else .error (.integrity "FOREIGN KEY constraint failed")

def resetTable (boundary : ResetBoundary) (name : String) (run : Nat × Database) :
    Except ResetError (Nat × Database) := do
  let table := (run.2.schema.get? name).getD ⟨∅⟩
  let gone ← deleteOutside name table (boundary.keptRows.getD name ∅)
  let (rowcount, db) ← executeDelete constraints run.2 name gone
  return (run.1 + rowcount, db)

def reset (db : Database) (boundary : ResetBoundary) :
    Except ResetError (ResetSummary × Database) :=
  if db.schema.keys = [] then .error (.schemaDrift
    s!"the store has no tables — is it migrated? (run the daemon's `migrate`) — see {guide}")
  else do
    let boundary := boundary.forStore db.schema.keys
    let tables := db.schema.keys.filter (· ≠ migrationTrackingTable)
    let kept := tables.filter (· ∈ boundary.keptTables)
    let resetTables := tables.filter (· ∉ boundary.keptTables)
    let (deleted, db) ← resetTables.reverse.foldlM (fun run name =>
      resetTable constraints boundary name run) (0, db)
    return (⟨deleted, resetTables.length, kept.length⟩, db)

end Database

end BlizzardMock.MockData
