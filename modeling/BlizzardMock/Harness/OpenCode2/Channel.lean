import BlizzardMock.Harness.OpenCode2.Turns

/-! The child process a turn's script runs in, and the pipes it and the service talk over, a JSON
object a line each way.  The script is whatever calls of the helpers it makes. -/

namespace BlizzardMock.OpenCode2

inductive Question | tool | subagent | form
  deriving DecidableEq

inductive Helper
  | text (content : String)
  | reasoning (content : String)
  | usage (input output reasoning cacheRead cacheWrite : Int) (cost : Json)
  | step
  | shell (command : String)
  | read (path : String)
  | tool (name : String) (input : Fields) (resource : String)
  | permissionRequest (action resource : String)
  | subagent (script description : String) (background : Bool) (wake : Option String)
  | form (title : String) (fields : List Fields)

inductive Report
  | done (output : String) (metadata : Fields)
  | failed (message : String)

def send (op : String) (fields : Fields) : Fields := ("op", .str op) :: fields

/-- `_call` -/
def askTool (name : String) (input : Fields) (resource : String) (ask : Bool) : Fields :=
  send "tool" [("name", .str name), ("input", .obj input), ("resource", .str resource),
    ("ask", .bool ask)]

namespace Helper

def request : Helper → Fields
  | .text content => send "text" [("text", .str content)]
  | .reasoning content => send "reasoning" [("text", .str content)]
  | .usage input output thought cacheRead cacheWrite cost =>
    send "usage"
      [("tokens", .obj [("input", .int input), ("output", .int output), ("reasoning", .int thought),
        ("cache", .obj [("read", .int cacheRead), ("write", .int cacheWrite)])]), ("cost", cost)]
  | .step => send "step" []
  | .shell command => askTool "shell" [("command", .str command)] command false
  | .read path => askTool "read" [("path", .str path)] path false
  | .tool name input resource => askTool name input resource false
  | .permissionRequest action resource => askTool action [("resource", .str resource)] resource true
  | .subagent script description background wake =>
    send "subagent" [("script", .str script), ("background", .bool background),
      ("description", .str description),
      ("wake", wake.elim .null .str)]
  | .form title fields => send "form" [("title", .str title), ("fields", .arr (fields.map .obj))]

def question : Helper → Option Question
  | .text _ | .reasoning _ | .usage .. | .step => none
  | .shell _ | .read _ | .tool .. | .permissionRequest .. => some .tool
  | .subagent .. => some .subagent
  | .form .. => some .form

end Helper

def Report.request (call : String) : Report → Fields
  | .done output metadata =>
    send "tool.done" [("call", .str call), ("output", .str output), ("metadata", .obj metadata)]
  | .failed message =>
    send "tool.failed" [("call", .str call), ("kind", .str "tool.failed"),
      ("message", .str message)]

def endRequest : Fields := send "end" []

def failRequest (error : Fields) : Fields := send "fail" [("error", .obj error)]

def Reply.written (raised : Fields) : Reply → Fields
  | .withheld => [("verdict", .str "withheld")]
  | .deny => [("verdict", .str "deny")]
  | .allow call => [("verdict", .str "allow"), ("call", .str call)]
  | .settled output session completed =>
    [("verdict", .str "allow"), ("output", .str output), ("session", .str session),
      ("status", .str (if completed then "completed" else "error"))]
  | .form => [("form", .obj raised)]

inductive Phase
  | starting
  | running
  | asking (question : Question)
  | acting (call : String)
  | done
  deriving DecidableEq

inductive Move
  | start
  | call (helper : Helper)
  | hear
  | report (report : Report)
  | raise
  | ends
  | fails (error : Fields)
  | write (line : Fields)
  | exit

structure Service extends Found where
  header : Fields := []
  raised : Fields := []

structure Conversation where
  turn : Turn
  phase : Phase := .done
  alive : Bool := false
  requests : List Fields := []
  replies : List Fields := []
  unreported : List String := []

namespace Conversation

inductive Event
  | service (found : Service)
  | interrupt
  | prompt (kind : Kind) (text : String)
  | replyPermission (decision : String) (message : Option String)
  | child (move : Move)

section Steps

variable [Unicode] (c : Conversation)

/-- The helpers read a reply: `_refused`, and `form`. -/
def heard (reply : Fields) : Question → Phase
  | .tool =>
    let verdict := (Json.get reply "verdict" .null).text
    if verdict = "allow" then .acting (Json.get reply "call" (.str "")).text
    else if verdict = "interrupted" then .done
    else .running
  | .subagent => if (Json.get reply "verdict" .null).text = "interrupted" then .done else .running
  | .form => if ((Json.lookup "form" reply).bind asObject).isSome then .running else .done

def move : Move → Conversation
  | .start =>
    match c.phase, c.replies with
    | .starting, _ :: rest => { c with phase := .running, replies := rest }
    | _, _ => c
  | .call helper =>
    match c.phase with
    | .running =>
      { c with
        phase := helper.question.elim .running .asking
        requests := c.requests ++ [helper.request] }
    | _ => c
  | .hear =>
    match c.phase, c.replies with
    | .asking question, reply :: rest => { c with phase := heard reply question, replies := rest }
    | _, _ => c
  | .report report =>
    match c.phase with
    | .acting call => { c with phase := .running, requests := c.requests ++ [report.request call] }
    | _ => c
  | .raise =>
    match c.phase with
    | .acting call => { c with phase := .running, unreported := c.unreported ++ [call] }
    | _ => c
  | .ends =>
    match c.phase with
    | .running => { c with phase := .done, requests := c.requests ++ [endRequest] }
    | _ => c
  | .fails error =>
    match c.phase with
    | .running => { c with phase := .done, requests := c.requests ++ [failRequest error] }
    | _ => c
  | .write line =>
    match c.phase with
    | .done => { c with requests := c.requests ++ [line] }
    | _ => c
  | .exit => { c with alive := false }

def serve (found : Service) : Conversation :=
  let advanced (line : Option Json) : Turn := c.turn.advance { found.toFound with line }
  match c.turn.point with
  | .opening =>
    if found.started then
      { c with
        turn := advanced none, phase := .starting, alive := true, requests := [], replies := [] }
    else { c with turn := advanced none }
  | .greeting =>
    let header := found.header ++ [("script", .str c.turn.script)]
    { c with
      turn := advanced none
      replies := if found.written then c.replies ++ [header] else c.replies }
  | .reading =>
    match c.requests with
    | line :: rest => { c with turn := advanced (some (.obj line)), requests := rest }
    | [] => if c.alive then c else { c with turn := advanced none }
  | .checking (some reply) =>
    { c with
      turn := advanced none
      replies := if c.turn.cancel || !found.written then c.replies
        else c.replies ++ [reply.written found.raised] }
  | _ => { c with turn := advanced none }

def next : Event → Conversation → Conversation
  | .service found, c => c.serve found
  | .interrupt, c => { c with turn := c.turn.next .interrupt }
  | .prompt kind text, c => { c with turn := c.turn.next (.prompt kind text) }
  | .replyPermission decision message, c =>
    { c with turn := c.turn.next (.replyPermission decision message) }
  | .child move, c => if c.alive then c.move move else c

end Steps

end Conversation

end BlizzardMock.OpenCode2
