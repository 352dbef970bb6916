import BlizzardMock.MockData.Seeding

/-! The store a seeding write inserts into, and the write: one transaction that numbers the outbox
rows, advances their counters and inserts every row. -/

namespace BlizzardMock.MockData

variable [Unicode]

/-- `counters` are the rows of `outbox_counters`, which a runner and a lane key; `held` those of the
other tables. -/
structure Database where
  schema : Schema
  held : String → List Values
  counters : Dict LaneKey Int

/-- The database engine: what a constraint of a store has against a row, beside the key of the
counters. -/
class DbEngine where
  refuses : Database → FactRow → Option String
  counterKey : String

namespace Database

def laneTables (schema : Schema) : Dict String String :=
  .ofList ((outboxLanes.entries.filter (·.1 ∈ schema)).map fun e => (e.2, e.1))

def seqsOf (db : Database) (name runner : String) : List Int :=
  ((db.held name).filter (runnerOf · = some runner)).filterMap seqOf

def lastHeld (db : Database) (runner lane : String) : Except SeedError (Option Int) :=
  match (laneTables db.schema).get? lane with
  | none => .ok none
  | some name =>
    let columns := ((db.schema.get? name).map (·.columns)).getD ∅
    if outboxSeqColumn ∉ columns then .error (.key outboxSeqColumn)
    else if runnerColumn ∉ columns then .error (.key runnerColumn)
    else .ok (db.seqsOf name runner).max?

def lastIssued (db : Database) (runner lane : String) : Except SeedError Int := do
  let held ← db.lastHeld runner lane
  return max ((db.counters.get? (runner, lane)).getD 0) (held.getD 0)

def allocateOutboxSeqs (db : Database) (rows : List FactRow) :
    Except SeedError (List FactRow × Database) :=
  if outboxCountersTable ∉ db.schema then .ok (rows, db)
  else do
    let (assigned, issued) ← assignOutboxSeqs db.lastIssued rows ∅
    return (assigned, { db with counters := db.counters.update issued.entries })

def constraintViolation (orig : String) : SeedError :=
  .seedIntegrity ("constraint violation writing seeded rows — a referenced row (e.g. a " ++
    "--chunk/--runner-id this store never seeded) may not exist, or the store " ++
    s!"already carries this data (try `reset` first): {orig}")

variable [DbEngine]

def insertCounter (db : Database) (values : Values) : Except SeedError Database :=
  match runnerOf values, (values.getD "lane" .null).optionalText,
    intOf (values.getD "last_seq" .null) with
  | some runner, some lane, some last =>
    if (runner, lane) ∈ db.counters then .error (constraintViolation DbEngine.counterKey)
    else .ok { db with counters := db.counters.set (runner, lane) last }
  | _, _, _ => .error (constraintViolation DbEngine.counterKey)

def insert (db : Database) (row : FactRow) : Except SeedError Database :=
  match DbEngine.refuses db row with
  | some orig => .error (constraintViolation orig)
  | none =>
    if row.table = outboxCountersTable then db.insertCounter row.values
    else .ok { db with held := Function.update db.held row.table (db.held row.table ++ [row.values]) }

/-- A composed write, with what it is stamped with. -/
structure Write where
  rows : List FactRow
  stamps : Stamps
  mintScopeId : Nat → String

def Write.stamped (write : Write) (schema : Schema) : List FactRow :=
  stampRows write.rows schema write.stamps write.mintScopeId

def write (db : Database) (composed : Write) : Except SeedError Database :=
  if composed.rows.isEmpty then .ok db
  else do
    let rows := composed.stamped db.schema
    requireRunner db.schema rows
    let (rows, db) ← db.allocateOutboxSeqs rows
    checkDrift db.schema rows
    (db.schema.keys.flatMap fun name => rows.filter (·.table = name)).foldlM insert db

def writes (db : Database) (composed : List Write) : Except SeedError Database :=
  composed.foldlM write db

end Database

end BlizzardMock.MockData
