import BlizzardMock.Data.Table
import BlizzardMock.Harness.OpenCode2.Turns

namespace BlizzardMock.OpenCode2.Store

class Floating where
  add : Double → Double → Double
  ofInt : Int → Double

def defaultModel : Fields := [("providerID", .str "opencode"), ("id", .str "pulse-alpha-free")]

/-- A session as far as the file goes.  Its messages are objects of JSON. -/
structure Session where
  id : String
  directory : String
  metadata : Fields
  permissions : List Fields
  model : Option Fields
  title : Option String
  agent : Option String
  parentId : Option String := none
  created : Int
  updated : Int
  idleAt : Option Int := none
  outcome : Option String := none
  messages : List Fields := []
  running : Bool := false
  current : Option String := none

def count : Option Json → Int
  | some (.int n) => n
  | some (.bool b) => if b then 1 else 0
  | _ => 0

def asText : Json → Option String
  | .str s => some s
  | _ => none

def asInt : Json → Option Int
  | .int n => some n
  | _ => none

def asObjects : Json → Option (List Fields)
  | .arr items => items.mapM asObject
  | _ => none

def usedBy (message : Fields) : Option Fields :=
  match Json.lookup "type" message, Json.lookup "tokens" message with
  | some (.str kind), some (.obj tokens) =>
    if kind = "assistant" ∨ kind = "compaction" then some tokens else none
  | _, _ => none

namespace Session

variable (session : Session)

def effectiveModel : Fields := session.model.getD defaultModel

def total (used : Fields → Int) : Int :=
  (session.messages.map fun message => (usedBy message).elim 0 used).sum

variable [Floating]

def spent : Option Json → Double
  | some (.int n) => Floating.ofInt n
  | some (.bool b) => Floating.ofInt (if b then 1 else 0)
  | some (.float x) => x
  | _ => Floating.ofInt 0

def cost : Double :=
  session.messages.foldl
    (fun cost message =>
      if (usedBy message).isSome then Floating.add cost
        (spent (Json.lookup "cost" message)) else cost)
    (Floating.ofInt 0)

def record : Fields :=
  let used : String → Json := fun key =>
    .int (session.total fun tokens => count (Json.lookup key tokens))
  let cached : String → Json := fun key =>
    .int (session.total fun tokens =>
      ((Json.lookup "cache" tokens).bind asObject).elim 0 fun cache =>
        count (Json.lookup key cache))
  [("id", .str session.id),
    ("projectID", .str "global"),
    ("location", .obj [("directory", .str session.directory)]),
    ("metadata", .obj session.metadata),
    ("permissions", .arr (session.permissions.map .obj)),
    ("model", .obj session.effectiveModel),
    ("title", session.title.elim .null .str),
    ("time", .obj ([("created", .int session.created), ("updated", .int session.updated)] ++
      (session.idleAt.map fun at' => ("idle", .int at')).toList)),
    ("tokens", .obj [("input", used "input"), ("output", used "output"),
      ("reasoning", used "reasoning"),
      ("cache", .obj [("read", cached "read"), ("write", cached "write")])]),
    ("cost", .float session.cost)] ++
  (session.parentId.map fun parent => ("parentID", .str parent)).toList ++
  (session.outcome.map fun outcome => ("outcome", .str outcome)).toList ++
  (session.agent.map fun agent => ("agent", .str agent)).toList

def stored : Fields :=
  [("record", .obj session.record),
    ("messages", .arr (session.messages.map .obj)),
    ("running", .bool session.running),
    ("current", session.current.elim .null .str)]

end Session

section Reading

variable {α : Type}

def optional (read : Json → Option α) (key : String) (fields : Fields) : Option (Option α) :=
  match Json.lookup key fields with
  | none | some .null => some none
  | some value => (read value).map some

def orDefault (read : Json → Option α) (default : α) (key : String) (fields : Fields) : Option α :=
  match Json.lookup key fields with
  | none => some default
  | some value => if value.truthy then read value else some default

def required (read : Json → Option α) (key : String) (fields : Fields) : Option α :=
  (Json.lookup key fields).bind read

end Reading

/-- The session of an item of the file. -/
def Session.load (item : Fields) : Option Session := do
  let record ← required asObject "record" item
  let location ← required asObject "location" record
  let time ← required asObject "time" record
  return {
    id := ← required asText "id" record
    directory := ← required asText "directory" location
    metadata := ← orDefault asObject [] "metadata" record
    permissions := ← orDefault asObjects [] "permissions" record
    model := ← optional asObject "model" record
    title := ← optional asText "title" record
    agent := ← optional asText "agent" record
    parentId := ← optional asText "parentID" record
    created := ← required asInt "created" time
    updated := ← required asInt "updated" time
    idleAt := ← optional asInt "idle" time
    outcome := ← optional asText "outcome" record
    messages := ← orDefault asObjects [] "messages" item
    current := ← optional asText "current" item }

structure Engine where
  restartedByLever : Bool := false
  sessions : Table Session.id := ∅

namespace Engine

def save [Floating] (engine : Engine) : Json :=
  .obj [("restarted_by_lever", .bool engine.restartedByLever),
    ("sessions", .arr (engine.sessions.rows.map fun session => .obj session.stored))]

/-- A fresh service on the file, if it is there and is one of JSON, and the sessions that were
running when the file was written.  None where the source raises, or takes a value of a type the
file does not have. -/
def load : Option Json → Option (Engine × List Session)
  | none => some ({}, [])
  | some (.obj stored) => do
    let items ← match Json.lookup "sessions" stored with
      | none => some []
      | some items => asObjects items
    let loaded ← items.mapM fun item => do
      return (← Session.load item, (Json.get item "running" .null).truthy)
    return ({
        restartedByLever := (Json.get stored "restarted_by_lever" .null).truthy
        sessions := loaded.foldl (fun sessions entry => sessions.put entry.1) ∅ },
      (loaded.filter (·.2)).map (·.1))
  | some _ => none

end Engine

end BlizzardMock.OpenCode2.Store
