import BlizzardMock.Data.Machine
import BlizzardMock.Harness.OpenCode2.Rules
import BlizzardMock.Harness.OpenCode2.Sessions

/-! The run of a turn's scripts, the requests of each one's child process answered in turn, while
others interrupt, steer and reply.  Every section of the engine that holds its lock is one step, and
so is every read of a cancel flag outside it. -/

namespace BlizzardMock.OpenCode2

inductive Status
  | running | pending
  | completed (output : String) (metadata : Fields)
  | error (kind message : String)

structure Call where
  id : String
  name : String
  input : Fields
  status : Status := .running

inductive Part
  | text (content : String)
  | reasoning (content : String)
  | tool (call : Call)

structure Assistant where
  content : List Part := []
  tokens : Fields := []
  finish : Option String := none
  error : Option Fields := none
  /-- How often it was ended; the service itself keeps a time of it. -/
  ended : Nat := 0

inductive Turn.Request
  | text (content : String)
  | reasoning (content : String)
  | usage (tokens : Fields) (cost : Json)
  | step
  | tool (name resource : String) (input : Fields) (ask : Bool)
  | toolDone (call output : String) (metadata : Fields)
  | toolFailed (call kind message : String)
  | subagent (script description : String) (background : Bool)
  | form
  | ends
  | fails (error : Fields)
  | other

inductive Reply
  | withheld
  | deny
  | allow (call : String)
  | settled (output session : String) (completed : Bool)
  | form

inductive Ended | byEnd | byFailure | byClosing
  deriving DecidableEq

inductive Point
  | fencing
  | opening
  | greeting
  | reading
  | boundary
  | reopening
  | judging (call name resource : String) (ask : Bool)
  | asking (call name resource : String)
  /-- the request is answered and withdrawn, the cancel flag not read yet -/
  | woken (call name resource : String) (ask : Ask)
  | declining
  | spawned (call child : String) (background : Bool)
  | waiting (call child : String)
  | grace (child : String)
  | form
  | steering (reply : Option Reply)
  | checking (reply : Option Reply)
  | failing (error : Fields) (byScript : Bool)
  | idling (outcome : Outcome) (error : Option Fields) (byScript : Bool)
  /-- the conversation is over, the cancel flag not read yet -/
  | over (how : Ended)
  | closing
  | interrupting
  | steered (text : String)
  | restarting (text : String)
  | declined
  | returned
  /-- an exception nobody catches -/
  | crashed

/-- What a step of the turn finds outside the session. -/
structure Found where
  refusal : Option String := none
  started : Bool := true
  /-- The next line of the pipe, unless it is closed; one that is no JSON counts as null. -/
  line : Option Json := none
  call : String := ""
  child : String := ""
  written : Bool := true
  /-- Whether a form is settled or a child at rest, and the final text of one that succeeded. -/
  settled : Bool := false
  finalText : Option String := none
  complaint : String := ""

/-- What a call of `ScriptedTurns.run` reads and writes of its session. -/
structure Turn where
  script : String
  permissions : List Fields
  cancel : Bool := false
  pending : List (Kind × String) := []
  ask : Option Ask := none
  steps : List Assistant := []
  users : List String := []
  idles : List (Outcome × Option Fields) := []
  closed : Bool := false
  usage : Option Fields := none
  texts : List String := []
  parts : List String := []
  rejected : Bool := false
  point : Point := .fencing

def asObject : Json → Option Fields
  | .obj fields => some fields
  | _ => none

def failure (kind message : String) : Fields := [("type", .str kind), ("message", .str message)]

/-- `records.usage`, its price aside. -/
def generatedUsage (prompt reply : String) : Fields :=
  [("input", .int (4700 + prompt.length / 4)), ("output", .int (10 + reply.length / 4)),
    ("reasoning", .int 0), ("cache", .obj [("read", .int 0), ("write", .int 0)])]

def tooLarge : Json → Bool
  | .int n => decide (2 ^ 1024 - 2 ^ 970 ≤ n.natAbs)
  | _ => false

def Ask.declines (ask : Ask) : Bool := ask.decision = some "reject" && ask.message = none

section Reading

variable [Unicode]

def Turn.Request.read (fields : Fields) : Turn.Request :=
  let str : String → Json → String := fun key default => (Json.get fields key default).text
  let object : String → Fields := fun key => ((Json.lookup key fields).bind asObject).getD []
  let isTrue : String → Bool := fun key =>
    match Json.lookup key fields with
    | some (.bool flag) => flag
    | _ => false
  match str "op" .null with
  | "text" => .text (str "text" (.str ""))
  | "reasoning" => .reasoning (str "text" (.str ""))
  | "usage" => .usage (object "tokens") (Json.get fields "cost" .null)
  | "step" => .step
  | "tool" => .tool (str "name" .null) (str "resource" (.str "*")) (object "input") (isTrue "ask")
  | "tool.done" => .toolDone (str "call" .null) (str "output" (.str "")) (object "metadata")
  | "tool.failed" => .toolFailed (str "call" .null) (str "kind" .null) (str "message" .null)
  | "subagent" =>
    let description := Json.get fields "description" .null
    .subagent (str "script" (.str "")) (if description.truthy then description.text else "")
      (isTrue "background")
  | "form" => .form
  | "end" => .ends
  | "fail" => .fails (object "error")
  | _ => .other

end Reading

namespace Turn

variable (turn : Turn)

def onStep (f : Assistant → Assistant) : Turn := { turn with steps := turn.steps.modifyHead f }

def goTo (point : Point) : Turn := { turn with point }

def openStep : Turn :=
  { turn with steps := {} :: turn.steps, closed := false, usage := none, texts := [] }

def addPart (part : Part) : Turn := turn.onStep fun step =>
      { step with content := step.content ++ [part] }

def setStatus (call : String) (status : Status) : Turn :=
  let onPart : Part → Part := fun part =>
    match part with
    | .tool held => if held.id = call then .tool { held with status } else .tool held
    | part => part
  { turn with steps := turn.steps.map fun step => { step with content := step.content.map onPart } }

def completeTool (call output : String) (metadata : Fields) : Turn :=
  turn.setStatus call (.completed output
    (if metadata.isEmpty
      then [("exit", .int 0), ("status", .str "completed"), ("truncated", .bool false)]
      else metadata))

def failTool (call kind message : String) : Turn := turn.setStatus call (.error kind message)

def close (finish : String) : Turn :=
  if turn.closed then turn
  else
    let tokens := turn.usage.getD (generatedUsage turn.script (String.join turn.texts))
    { turn.onStep fun step =>
        { step with tokens, finish := some finish, ended := step.ended + 1 } with
      closed := true }

/-- The first section of `Engine.fail_turn`. -/
def failStep (error : Fields) : Turn :=
  turn.onStep fun step =>
    { step with error := some error, finish := some "error", ended := step.ended + 1 }

/-- `_abort_assistant` -/
def abort (message : String) : Turn :=
  let onPart : Part → Part := fun part =>
    match part with
    | .tool call =>
      match call.status with
      | .running | .pending => .tool { call with status := .error "aborted" message }
      | _ => .tool call
    | part => part
  turn.onStep fun step =>
    { step with
      content := step.content.map onPart
      error := some (failure "aborted" "Step interrupted")
      finish := some "error"
      ended := step.ended + 1 }

def idle (outcome : Outcome) (error : Option Fields) (byScript : Bool) : Turn :=
  { turn with
    idles := turn.idles ++ [(outcome, error)]
    pending := if outcome = .interrupted then [] else turn.pending
    point := if byScript then .over .byFailure else .returned }

def userMessage (text : String) : Turn :=
  { turn with users := turn.users ++ [text], cancel := false, script := text, point := .fencing }

def steer (next : Point) : Turn :=
  match turn.pending.find? (·.1 = .steer) with
  | some (_, text) =>
    { turn with pending := turn.pending.eraseP (·.1 = .steer), point := .steered text }
  | none => turn.goTo next

def openTool [Unicode] (call name : String) (input : Fields) (next : Point) : Turn :=
  if Rules.withheld turn.permissions name then turn.goTo (.checking (some .withheld))
  else (turn.addPart (.tool { id := call, name, input })).goTo next

def allow (call : String) : Turn :=
  ({ turn with parts := turn.parts ++ [call] } : Turn).goTo (.checking (some (.allow call)))

/-- The child reports on a call; one it was not allowed, or reported on before, counts for nothing.
-/
def report (call : String) (told : Turn) : Turn :=
  let turn := if call ∈ turn.parts then { told with parts := turn.parts.erase call } else turn
  turn.goTo (.steering none)

/-- `_Turn._answer`, up to the first step of the engine that another one follows. -/
def hear [Unicode] (found : Found) : Request → Turn
  | .text content =>
    ({ turn with texts := turn.texts ++ [content] }.addPart (.text content)).goTo (.checking none)
  | .reasoning content => (turn.addPart (.reasoning content)).goTo (.checking none)
  | .usage tokens cost =>
    if tooLarge cost then turn.goTo .crashed
    else ({ turn with usage := some tokens } : Turn).goTo (.checking none)
  | .step => (turn.close "tool-calls").goTo .boundary
  | .tool name resource input ask =>
    turn.openTool found.call name input (.judging found.call name resource ask)
  | .toolDone call output metadata => turn.report call (turn.completeTool call output metadata)
  | .toolFailed call kind message => turn.report call (turn.failTool call kind message)
  | .subagent script description background =>
    let input : Fields :=
      [("agent", .str "general"), ("prompt", .str script), ("background", .bool background)]
    let named := if description = "" then [] else [("description", Json.str description)]
    turn.openTool found.call "subagent" (input ++ named)
      (.spawned found.call found.child background)
  | .form => turn.goTo .form
  | .ends => turn.goTo (.over .byEnd)
  | .fails error => turn.goTo (.failing error true)
  | .other => turn.goTo (.checking none)

def judge [Unicode] (call name resource : String) (ask : Bool) : Turn :=
  let effect := Rules.evaluate turn.permissions name resource
  let effect := if ask && effect = "allow" then "ask" else effect
  if effect = "deny" then
    (turn.failTool call "permission.rejected" ("Permission denied: " ++ name)).goTo
      (.steering (some .deny))
  else if effect = "ask" then
    ({ turn with ask := some {} }.setStatus call .pending).goTo (.asking call name resource)
  else turn.allow call

def heedAnswer (call name resource : String) (ask : Ask) : Turn :=
  match ask.decision with
  | none => turn.goTo .interrupting
  | some decision =>
    if turn.cancel then turn.goTo .interrupting
    else if decision = "reject" then
      match ask.message with
      | some message =>
        (turn.failTool call "permission.rejected" message).goTo (.steering (some .deny))
      | none => turn.goTo .declining
    else if decision = "always" then
      let rule : Fields := [("action", .str name), ("resource", .str (Rules.savePattern resource)),
        ("effect", .str "allow")]
      ({ turn with permissions := turn.permissions ++ [rule] } : Turn).allow call
    else turn.allow call

/-- `Engine.settle_child` closes the call that started a child. -/
def settle (call child : String) : Option String → Turn
  | some reply =>
    (turn.completeTool call reply
      [("sessionID", .str child), ("status", .str "completed"), ("truncated", .bool false)]).goTo
      (.steering (some (.settled reply child true)))
  | none => (turn.failTool call "aborted" "Subagent interrupted").goTo (.grace child)

def heed (next : Turn) : Turn := if turn.cancel then turn.goTo .interrupting else next

def advance [Unicode] (found : Found) : Turn :=
  match turn.point with
  | .fencing =>
    match found.refusal with
    | some refusal => turn.goTo (.idling .failed (some (failure "unknown" refusal)) false)
    | none => turn.goTo .opening
  | .opening =>
    ({ turn with parts := [] }.openStep).goTo (if found.started then .greeting else .crashed)
  | .greeting => turn.goTo (if found.written then .reading else .over .byClosing)
  | .reading =>
    match found.line with
    | none => turn.goTo (.over .byClosing)
    | some (.obj fields) => turn.hear found (Request.read fields)
    | some _ => turn
  | .boundary => turn.steer .reopening
  | .reopening => turn.openStep.goTo (.checking none)
  | .judging call name resource ask => turn.judge call name resource ask
  | .asking call name resource =>
    match turn.ask with
    | some ask =>
      if ask.answered then
        ({ turn with ask := none, rejected := turn.rejected || ask.declines }.setStatus
          call .running).goTo (.woken call name resource ask)
      else turn
    | none => turn
  | .woken call name resource ask => turn.heedAnswer call name resource ask
  | .declining => (turn.abort "The user declined this tool call").goTo .declined
  | .spawned call child background =>
    if background then
      (turn.completeTool call
        ("<subagent sessionID=\"" ++ child ++ "\" state=\"running\">\n</subagent>")
        [("sessionID", .str child), ("status", .str "running"), ("truncated", .bool false)]).goTo
        (.steering (some (.settled "" child true)))
    else turn.goTo (.waiting call child)
  | .waiting call child =>
    if found.settled then turn.settle call child found.finalText else turn.heed turn
  | .grace child => turn.heed (turn.goTo (.steering (some (.settled "" child false))))
  | .form => if found.settled then turn.goTo (.checking (some .form)) else turn.heed turn
  | .steering reply => turn.steer (.checking reply)
  | .checking reply =>
    turn.heed (turn.goTo (if reply.isSome && !found.written then .over .byClosing else .reading))
  | .failing error byScript => (turn.failStep error).goTo (.idling .failed (some error) byScript)
  | .idling outcome error byScript => turn.idle outcome error byScript
  | .over how =>
    turn.heed <|
      match how with
      | .byEnd => turn.goTo .closing
      | .byFailure => turn.goTo .returned
      | .byClosing => turn.goTo (.failing (failure "unknown" found.complaint) false)
  | .closing => (turn.close "stop").goTo (.idling .succeeded none false)
  | .interrupting => (turn.abort "Tool execution interrupted").goTo (.idling .interrupted none false)
  | .steered text => (turn.close "stop").goTo (.restarting text)
  | .restarting text => turn.userMessage text
  | .declined | .returned | .crashed => turn

inductive Event
  | interrupt
  | prompt (kind : Kind) (text : String)
  | replyPermission (decision : String) (message : Option String)
  | advance (found : Found)

def next [Unicode] : Event → Turn → Turn
  | .interrupt, turn =>
    { turn with
      cancel := true
      pending := []
      ask := turn.ask.map fun ask => { ask with answered := true } }
  | .prompt kind text, turn => { turn with pending := turn.pending ++ [(kind, text)] }
  | .replyPermission decision message, turn =>
    { turn with
      ask := turn.ask.map fun _ => { answered := true, decision := some decision, message } }
  | .advance found, turn => turn.advance found

end Turn

end BlizzardMock.OpenCode2
