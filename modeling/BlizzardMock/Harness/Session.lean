import BlizzardMock.Data.Method
import BlizzardMock.Harness.Engine
import BlizzardMock.Python.JsonLayout

namespace BlizzardMock.Harness

open JsonText

structure Ask where
  question : String
  options : List String
  askedAt : Double

inductive Kind
  | spawn
  | resume
  deriving DecidableEq

structure Invocation where
  kind : Kind
  model : Option String
  effort : Option String
  compactionWindow : Option String
  permission : Option String
  deriving DecidableEq

structure SpawnCredential where
  leaseId : Option String
  leaseToken : Option String
  runnerUrl : Option String
  deriving DecidableEq

structure SessionState where
  sessionId : String
  turns : Nat := 0
  asks : List Ask := []
  resumes : List String := []
  verdicts : List String := []
  invocations : List Invocation := []
  selftest : Bool := false
  spawnCredential : Option SpawnCredential := none

namespace SessionState

def lastAsk (state : SessionState) : Option Ask := state.asks.getLast?

def lastAnswer (state : SessionState) : Option String := state.resumes.getLast?

end SessionState

/-! Documents, their fields in order as `sort_keys` has them -/

def Kind.text : Kind → String
  | .spawn => "spawn"
  | .resume => "resume"

def optional : Option String → Json
  | none => .null
  | some s => .str s

def Ask.asdict (ask : Ask) : Json :=
  .obj [("asked_at", .float ask.askedAt), ("options", .arr (ask.options.map .str)),
    ("question", .str ask.question)]

def Invocation.asdict (invocation : Invocation) : Json :=
  .obj [("compaction_window", optional invocation.compactionWindow),
    ("effort", optional invocation.effort),
    ("kind", .str invocation.kind.text), ("model", optional invocation.model),
    ("permission", optional invocation.permission)]

def SpawnCredential.asdict (credential : SpawnCredential) : Json :=
  .obj [("lease_id", optional credential.leaseId), ("lease_token", optional credential.leaseToken),
    ("runner_url", optional credential.runnerUrl)]

def SessionState.asdict (state : SessionState) : Json :=
  .obj [("asks", .arr (state.asks.map (·.asdict))),
    ("invocations", .arr (state.invocations.map (·.asdict))),
    ("resumes", .arr (state.resumes.map .str)), ("selftest", .bool state.selftest),
    ("session_id", .str state.sessionId),
      ("spawn_credential", (state.spawnCredential.map (·.asdict)).getD .null),
    ("turns", .int state.turns), ("verdicts", .arr (state.verdicts.map .str))]

def SessionState.toJson (state : SessionState) : Text := layout 2 0 state.asdict

def text? : Json → Option String
  | .str s => some s
  | _ => none

def list? {α : Type} (read : Json → Option α) : Json → Option (List α)
  | .arr l => l.mapM read
  | _ => none

def optional? : Json → Option (Option String)
  | .null => some none
  | .str s => some (some s)
  | _ => none

def onlyFields (names : List String) (raw : List (String × Json)) : Option Unit :=
  if raw.all (·.1 ∈ names) then some () else none

def Ask.ofJson : Json → Option Ask
  | .obj raw => do
    onlyFields ["question", "options", "asked_at"] raw
    let question ← text? (← Json.lookup "question" raw)
    let options ← list? text? (Json.get raw "options" (.arr []))
    match ← Json.lookup "asked_at" raw with
    | .float askedAt => some ⟨question, options, askedAt⟩
    | _ => none
  | _ => none

def Kind.ofJson : Json → Option Kind
  | .str s => if s = "spawn" then some .spawn else if s = "resume" then some .resume else none
  | _ => none

def Invocation.ofJson : Json → Option Invocation
  | .obj raw => do
    onlyFields ["kind", "model", "effort", "compaction_window", "permission"] raw
    let kind ← Kind.ofJson (← Json.lookup "kind" raw)
    return ⟨kind, ← optional? (Json.get raw "model" .null),
      ← optional? (Json.get raw "effort" .null),
      ← optional? (Json.get raw "compaction_window" .null),
        ← optional? (Json.get raw "permission" .null)⟩
  | _ => none

def SpawnCredential.ofJson : Json → Option SpawnCredential
  | .obj raw => do
    onlyFields ["lease_id", "lease_token", "runner_url"] raw
    return ⟨← optional? (Json.get raw "lease_id" .null),
      ← optional? (Json.get raw "lease_token" .null),
      ← optional? (Json.get raw "runner_url" .null)⟩
  | _ => none

def turns? : Json → Option Nat
  | .int (.ofNat n) => some n
  | _ => none

def flag? : Json → Option Bool
  | .bool b => some b
  | _ => none

def credential? : Json → Option (Option SpawnCredential)
  | .null => some none
  | raw => (SpawnCredential.ofJson raw).map some

def SessionState.ofJson : Json → Option SessionState
  | .obj raw => do
    onlyFields ["session_id", "turns", "asks", "resumes", "verdicts", "invocations", "selftest",
      "spawn_credential"] raw
    return {
      sessionId := ← text? (← Json.lookup "session_id" raw)
      turns := ← turns? (Json.get raw "turns" (.int 0))
      asks := ← list? Ask.ofJson (Json.get raw "asks" (.arr []))
      resumes := ← list? text? (Json.get raw "resumes" (.arr []))
      verdicts := ← list? text? (Json.get raw "verdicts" (.arr []))
      invocations := ← list? Invocation.ofJson (Json.get raw "invocations" (.arr []))
      selftest := ← flag? (Json.get raw "selftest" (.bool false))
      spawnCredential := ← credential? (Json.get raw "spawn_credential" .null) }
  | _ => none

variable [Codecs]

/-- A document that holds no session raises, whatever it is that Python raises of it. -/
def SessionState.fromJson (text : Text) : Except Failure SessionState := do
  match SessionState.ofJson (← parse text) with
  | some state => .ok state
  | none => .error (.raised .typeError)

abbrev Files := String → Option Text

namespace SessionStore

def replaceDots : List Char → List Char
  | '.' :: '.' :: rest => '_' :: replaceDots rest
  | c :: rest => c :: replaceDots rest
  | [] => []

def safe (sessionId : String) : String :=
  String.ofList (replaceDots (sessionId.toList.map fun c => if c = '/' then '_' else c))

def path (sessionId : String) : String := safe sessionId ++ ".json"

def load (files : Files) (sessionId : String) : Except Failure (Option SessionState) :=
  match files (path sessionId) with
  | none => .ok none
  | some text => (SessionState.fromJson text).map some

def loadOrCreate (files : Files) (sessionId : String) : Except Failure SessionState := do
  return (← load files sessionId).getD { sessionId }

def save (files : Files) (state : SessionState) : Files :=
  Function.update files (path state.sessionId) (some state.toJson)

end SessionStore

end BlizzardMock.Harness
