import BlizzardMock.Data.Dict
import BlizzardMock.Python.Json
import Mathlib.Data.List.Sort
import Mathlib.Data.String.Basic

namespace BlizzardMock.MockData

variable [Unicode]

abbrev Values := Dict String Json

structure FactRow where
  table : String
  values : Values

def FactRow.get (row : FactRow) (column : String) : Json := row.values.getD column .null

structure ReflectedColumn where
  nullable : Bool
  hasDefault : Bool
  isAutoincrementPk : Bool

def ReflectedColumn.isRequired (column : ReflectedColumn) : Bool :=
  !column.nullable && !column.hasDefault && !column.isAutoincrementPk

structure ReflectedTable where
  columns : Dict String ReflectedColumn

abbrev Schema := Dict String ReflectedTable

inductive SeedError
  | schemaDrift (message : String)
  | seedIntegrity (message : String)
  | key (name : String)

def guide : String := "blizzard-context:/tooling/store-seeding.md"

def sorted (names : List String) : List String := names.insertionSort (· ≤ ·)

def listing (names : List String) : String := (Json.arr (names.map .str)).repr

def checkRow (schema : Schema) (row : FactRow) : Except SeedError Unit :=
  match schema.get? row.table with
  | none => .error (.schemaDrift
      s!"schema drift: table {reprStr row.table} does not exist in the live store — see {guide}")
  | some table =>
    let unknown := sorted (row.values.keys.filter (· ∉ table.columns))
    let missing := sorted
      ((table.columns.entries.filter fun c => c.2.isRequired && c.1 ∉ row.values).map (·.1))
    if unknown ≠ [] then .error (.schemaDrift
      s!"schema drift: table {reprStr row.table} has no column(s) {listing unknown} — see {guide}")
    else if missing ≠ [] then .error (.schemaDrift
      s!"schema drift: table {reprStr row.table} requires column(s) {listing missing}, not supplied — see {guide}")
    else .ok ()

def checkDrift (schema : Schema) : List FactRow → Except SeedError Unit
  | [] => .ok ()
  | row :: rest => do
    checkRow schema row
    checkDrift schema rest

def tenantColumn : String := "tenant_id"
def runnerIdentityTable : String := "runner_identity"
def runnerColumn : String := "runner_id"
def scopesTable : String := "scopes"
def scopeIdColumn : String := "scope_id"
def projectsTable : String := "projects"
def projectColumn : String := "project_id"
def runnerRegistrationsTable : String := "runner_registrations"
def servedProjectsColumn : String := "projects"

def servedDeclaration (projectId : String) : String :=
  (Json.arr [.obj [("entry", .str projectId), ("project_id", .str projectId)]]).dumps

def needsProjectId (row : FactRow) (table : ReflectedTable) : Bool :=
  row.table ≠ projectsTable && (table.columns.get? projectColumn).any (·.isRequired) &&
    projectColumn ∉ row.values

def needsDeclaration (row : FactRow) (table : ReflectedTable) : Bool :=
  row.table = runnerRegistrationsTable && servedProjectsColumn ∈ table.columns &&
    servedProjectsColumn ∉ row.values

def isTenantOwned (table : ReflectedTable) : Bool := tenantColumn ∈ table.columns

def isRunnerScoped (tableName : String) (table : ReflectedTable) : Bool :=
  tableName ≠ runnerIdentityTable && runnerColumn ∈ table.columns

structure Stamps where
  tenantId : Option String
  projectId : Option String
  runnerId : Option String

/-- The columns a row is stamped with; `scopeId` is the id minted for it. -/
def extra (schema : Schema) (stamps : Stamps) (scopeId : String) (row : FactRow) :
    List (String × Json) :=
  match schema.get? row.table with
  | none => []
  | some table =>
    (if isTenantOwned table && tenantColumn ∉ row.values then
      stamps.tenantId.toList.map fun id => (tenantColumn, .str id) else []) ++
    (if isRunnerScoped row.table table && runnerColumn ∉ row.values then
      stamps.runnerId.toList.map fun id => (runnerColumn, .str id) else []) ++
    (if needsProjectId row table then stamps.projectId.toList.map fun id =>
      (projectColumn, .str id) else []) ++
    (if needsDeclaration row table then
      stamps.projectId.toList.map fun id =>
        (servedProjectsColumn, .str (servedDeclaration id)) else []) ++
    (if row.table = scopesTable && scopeIdColumn ∈ table.columns && scopeIdColumn ∉ row.values then
      [(scopeIdColumn, .str scopeId)] else [])

def stampRow (schema : Schema) (stamps : Stamps) (scopeId : String) (row : FactRow) : FactRow :=
  { row with values := row.values.update (extra schema stamps scopeId row) }

/-- `mintScopeId` gives the id minted for the row at a place. -/
def stampRows (rows : List FactRow) (schema : Schema) (stamps : Stamps)
    (mintScopeId : Nat → String) : List FactRow :=
  rows.zipIdx.map fun r => stampRow schema stamps (mintScopeId r.2) r.1

def requireRunner (schema : Schema) : List FactRow → Except SeedError Unit
  | [] => .ok ()
  | row :: rest =>
    let required := (schema.get? row.table).any fun table =>
      isRunnerScoped row.table table && runnerColumn ∉ row.values &&
        (table.columns.get? runnerColumn).any (·.isRequired)
    if required then .error (.seedIntegrity
      (s!"{reprStr row.table} rows need a runner id, and this runner store names none — pass --dir with the " ++
        "host directory (its [[runner]] id), or --runner-id where the verb takes one"))
    else requireRunner schema rest

def outboxCountersTable : String := "outbox_counters"
def outboxSeqColumn : String := "seq"

def outboxLanes : Dict String String :=
  .ofList [("outbound_buffer", "outbound"), ("transcript_outbound_buffer", "transcript")]

abbrev LaneKey := String × String

def runnerOf (values : Values) : Option String := (values.getD runnerColumn .null).optionalText

def intOf : Json → Option Int
  | .int n => some n
  | .bool b => some (if b then 1 else 0)
  | _ => none

def seqOf (values : Values) : Option Int := intOf (values.getD outboxSeqColumn .null)

def FactRow.key (row : FactRow) : Option LaneKey :=
  (outboxLanes.get? row.table).bind fun lane => (runnerOf row.values).map fun runner =>
    (runner, lane)

def FactRow.withSeq (row : FactRow) (seq : Int) : FactRow :=
  { row with values := row.values.set outboxSeqColumn (.int seq) }

def lastOf (lastIssued : String → String → Except SeedError Int) (issued : Dict LaneKey Int)
    (key : LaneKey) :
    Except SeedError Int :=
  match issued.get? key with
  | some last => .ok last
  | none => lastIssued key.1 key.2

def assignOutboxSeqs (lastIssued : String → String → Except SeedError Int) :
    List FactRow → Dict LaneKey Int → Except SeedError (List FactRow × Dict LaneKey Int)
  | [], issued => .ok ([], issued)
  | row :: rest, issued =>
    match row.key with
    | none => do
      let (assigned, issued) ← assignOutboxSeqs lastIssued rest issued
      return (row :: assigned, issued)
    | some key => do
      let last ← lastOf lastIssued issued key
      match seqOf row.values with
      | some supplied => do
        let (assigned, issued) ← assignOutboxSeqs lastIssued rest
          (issued.set key (max last supplied))
        return (row :: assigned, issued)
      | none => do
        let (assigned, issued) ← assignOutboxSeqs lastIssued rest (issued.set key (last + 1))
        return (row.withSeq (last + 1) :: assigned, issued)

end BlizzardMock.MockData
