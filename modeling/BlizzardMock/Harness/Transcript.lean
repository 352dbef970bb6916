import BlizzardMock.Data.Machine
import BlizzardMock.Data.Versions
import BlizzardMock.Python.Json
import Mathlib.Data.Stream.Init

/-! The session documents of the opencode facade: `OpenCodeTranscriptWriter` keeps one in memory and
rewrites its file at every call, and a `task` call extends another on disk. -/

namespace BlizzardMock.Harness.Transcript

open Method

/-- `synthesize_usage_tokens` -/
structure UsageTokens where
  inputTokens : Nat
  outputTokens : Nat
  cacheReadInputTokens : Nat
  cacheCreationInputTokens : Nat
  deriving DecidableEq

structure Span where
  start : Nat
  stop : Nat
  deriving DecidableEq

structure Tokens where
  input : Nat
  output : Nat
  reasoning : Nat
  cacheRead : Nat
  cacheWrite : Nat
  deriving DecidableEq

structure Completion where
  output : String
  stop : Nat
  deriving DecidableEq

structure TaskMetadata where
  parentSessionId : String
  sessionId : String
  truncated : Bool := false
  deriving DecidableEq

structure ToolState where
  input : List (String × Json)
  start : Nat
  metadata : Option TaskMetadata := none
  /-- None while the status is `pending`. -/
  completed : Option Completion := none

inductive PartFields
  | text (text : String) (time : Span)
  | stepStart
  | stepFinish (reason : String) (tokens : Tokens) (cost : Json)
  | tool (callId tool : String) (state : ToolState)

structure Part where
  id : String
  sessionId : String
  messageId : String
  fields : PartFields

inductive Role | user | assistant
  deriving DecidableEq

structure Message where
  id : String
  sessionId : String
  role : Role
  created : Nat
  tokens : Option Tokens := none
  cost : Option Json := none
  parts : List Part := []

structure Document where
  id : String
  version : String
  directory : String
  title : String
  parentId : Option String := none
  messages : List Message := []

def mockVersion : String := "1.18.25"

def childToolCallsKey : String := "child_tool_calls"

def stepReason : String := "stop"

def newDocument (sessionId cwd title : String) (parentId : Option String) : Document where
  id := sessionId
  version := mockVersion
  directory := cwd
  title
  parentId

def synthesizeUsageTokens (text : String) (baseInput baseOutput : Nat) : UsageTokens where
  inputTokens := baseInput + text.length / 4
  outputTokens := baseOutput + text.length / 8
  cacheReadInputTokens := 500
  cacheCreationInputTokens := 20

def tokensField (usage : UsageTokens) : Tokens where
  input := usage.inputTokens
  output := usage.outputTokens
  reasoning := 0
  cacheRead := usage.cacheReadInputTokens
  cacheWrite := usage.cacheCreationInputTokens

inductive RecordError
  | valueError (message : String)
  | typeError
  | keyError
  | osError
  deriving DecidableEq

class TranscriptHost extends Unicode where
  File : Type
  sameFile : DecidableEq File
  /-- The file that the path of a session id leads to, or none where the system refuses the name. -/
  documentPath : String → Option File
  /-- `dict(items)`, with its keys as `json.dumps` writes them. -/
  dictOf : List Json → Except RecordError (List (String × Json))
  /-- `synthesize_cost_usd`, which rounds a sum of floats. -/
  costUsd : UsageTokens → Double

instance [TranscriptHost] : DecidableEq TranscriptHost.File := TranscriptHost.sameFile

/-- A host to compute on: each id names a file of its own, and a child's reply costs what its two
tokens counts make. -/
abbrev TranscriptHost.plain : TranscriptHost where
  isPrintable _ := true
  File := String
  sameFile := inferInstance
  documentPath := some
  dictOf _ := .error .typeError
  costUsd _ := .finite "0.000633" (5838394499329073 / 9223372036854775808)

structure MessageRef where
  place : Nat
  id : String

structure Writer where
  sessionId : String
  cwd : String
  billedZero : Bool
  doc : Document
  openAssistant : Option MessageRef := none

structure Recording [TranscriptHost] where
  versions : Versions TranscriptHost.File Document
  writer : Writer
  clock : Stream' Nat
  uuids : Stream' String

variable [TranscriptHost]

def Recording.load (recording : Recording) (sessionId : String) : Option Document :=
  (TranscriptHost.documentPath sessionId).bind recording.versions.load

abbrev RecordM := EStateM RecordError Recording

def nowMs : RecordM Nat := do
  let ms ← read (·.clock.head)
  write fun recording => { recording with clock := recording.clock.tail }
  return ms

def idOf (kind hex : String) : String := kind ++ "_" ++ String.ofList (hex.toList.take 16)

def newId (kind : String) : RecordM String := do
  let hex ← read (·.uuids.head)
  write fun recording => { recording with uuids := recording.uuids.tail }
  return idOf kind hex

def nowUnless : Option Nat → RecordM Nat
  | some ms => pure ms
  | none => nowMs

def span (startedAt : Option Nat) : RecordM Span := do
  let start ← nowUnless startedAt
  return { start, stop := start }

def setWriter (f : Writer → Writer) : RecordM Unit :=
  write fun recording => { recording with writer := f recording.writer }

def setDoc (f : Document → Document) : RecordM Unit :=
  setWriter fun writer => { writer with doc := f writer.doc }

def writeText (sessionId : String) (doc : Document) : RecordM Unit := do
  let file ← orRaise .osError (TranscriptHost.documentPath sessionId)
  write fun recording => { recording with versions := recording.versions.save file doc }

def newMessage (role : Role) (sessionId : Option String) (createdAt : Option Nat) :
    RecordM Message := do
  let own ← read (·.writer.sessionId)
  let id ← newId "msg"
  let created ← nowUnless createdAt
  return { id, sessionId := sessionId.getD own, role, created }

def newPart (messageId : String) (fields : PartFields) (sessionId : Option String) :
    RecordM Part := do
  let own ← read (·.writer.sessionId)
  let id ← newId "prt"
  return { id, sessionId := sessionId.getD own, messageId, fields }

def Message.append (message : Message) (part : Part) : Message :=
  { message with parts := message.parts ++ [part] }

def Message.finish (message : Message) (tokens : Tokens) (cost : Json) : Message :=
  { message with tokens := some tokens, cost := some cost }

def Document.append (doc : Document) (messages : List Message) : Document :=
  { doc with messages := doc.messages ++ messages }

def Document.modify (doc : Document) (place : Nat) (f : Message → Message) : Document :=
  { doc with messages := doc.messages.modify place f }

def assistantMessage : RecordM MessageRef := do
  let writer ← read (·.writer)
  match writer.openAssistant with
  | some ref => return ref
  | none =>
    let message ← newMessage .assistant none none
    let part ← newPart message.id .stepStart none
    let ref : MessageRef := { place := writer.doc.messages.length, id := message.id }
    setDoc (·.append [message.append part])
    setWriter fun writer => { writer with openAssistant := some ref }
    return ref

/-- `_write` -/
def writeOwn : RecordM Unit := do
  let writer ← read (·.writer)
  writeText writer.sessionId writer.doc

/-- `__init__` -/
def openWriter (sessionId cwd : String) (billedZero : Bool) : RecordM Unit := do
  let held ← read (·.load sessionId)
  let doc := held.getD (newDocument sessionId cwd "mock-opencode session" none)
  setWriter fun _ => { sessionId, cwd, billedZero, doc }

def recordUser (text : String) : RecordM Unit := do
  setWriter fun writer => { writer with openAssistant := none }
  let message ← newMessage .user none none
  let time ← span none
  let part ← newPart message.id (.text text time) none
  setDoc (·.append [message.append part])
  writeOwn

structure Ask where
  question : String
  options : List String

structure RunResult where
  text : String := ""
  subtype : String := "success"
  ask : Option Ask := none

def renderAskText (result : RunResult) : String :=
  match result.ask with
  | none => result.text
  | some ask => "<Ask options=\"" ++ "|".intercalate ask.options ++ "\">" ++ ask.question ++ "</Ask>"

def recordResult (result : RunResult) : RecordM Unit := do
  let text := if result.subtype = "ask" then renderAskText result else result.text
  let ref ← assistantMessage
  let time ← span none
  let part ← newPart ref.id (.text text time) none
  setDoc (·.modify ref.place (·.append part))
  let usage := synthesizeUsageTokens text 200 50
  let billedZero ← read (·.writer.billedZero)
  let cost := if billedZero then .int 0 else .float (TranscriptHost.costUsd usage)
  let finish ← newPart ref.id (.stepFinish stepReason (tokensField usage) cost) none
  setDoc (·.modify ref.place (·.append finish))
  setDoc (·.modify ref.place (·.finish (tokensField usage) cost))
  setWriter fun writer => { writer with openAssistant := none }
  writeOwn

def dictOf : Json → Except RecordError (List (String × Json))
  | .obj fields => .ok fields
  | .arr items => TranscriptHost.dictOf items
  | .str s =>
    if s = "" then .ok []
    else .error (.valueError
      "dictionary update sequence element #0 has length 1; 2 is required")
  | _ => .error .typeError

def readCall : Json → Except RecordError (String × List (String × Json) × String)
  | .obj fields => do
    let tool ← (Json.lookup "tool" fields).elim (.error .keyError) .ok
    let input ← dictOf (Json.get fields "input" (.obj []))
    return (tool.text, input, (Json.get fields "output" (.str "ok")).text)
  | _ => .error .typeError

def childReply : String := "the child session completed its delegated task"

def callPart (childId : String) (startedAt : Nat) (messageId : String) (call : Json) :
    RecordM Part := do
  let callId ← newId "call"
  let (tool, input, output) ← settle (readCall call)
  newPart messageId (.tool callId tool
    { input, start := startedAt, completed := some ⟨output, startedAt⟩ }) (some childId)

def childTurns (childId prompt : String) (childCalls : List Json) (startedAt : Nat) :
    RecordM (List Message) := do
  let user ← newMessage .user (some childId) (some startedAt)
  let time ← span (some startedAt)
  let asked ← newPart user.id (.text prompt time) (some childId)
  let assistant ← newMessage .assistant (some childId) (some startedAt)
  let calls ← collect (fun call => some <$> callPart childId startedAt assistant.id call) childCalls
  let time ← span (some startedAt)
  let reply ← newPart assistant.id (.text childReply time) (some childId)
  let usage := synthesizeUsageTokens childReply 50 10
  let cost := Json.float (TranscriptHost.costUsd usage)
  let finish ← newPart assistant.id (.stepFinish stepReason (tokensField usage) cost) (some childId)
  return [user.append asked, { assistant with parts := calls ++ [reply, finish] }.finish
    (tokensField usage) cost]

def writeChildSession (childId : String) (toolInput : List (String × Json)) (childCalls : List Json)
    (startedAt : Nat) :
    RecordM Unit := do
  let writer ← read (·.writer)
  let held ← read (·.load childId)
  let doc := held.getD
    (newDocument childId writer.cwd "mock-opencode child session" (some writer.sessionId))
  let turns ← childTurns childId (Json.get toolInput "prompt" (.str "")).text childCalls startedAt
  writeText childId (doc.append turns)

def typeName : Json → String
  | .null => "NoneType"
  | .bool _ => "bool"
  | .int _ => "int"
  | .float _ => "float"
  | .str _ => "str"
  | .arr _ => "list"
  | .obj _ => "dict"

def childCallsOf (toolInput : List (String × Json)) : Except RecordError (List Json) :=
  match (Json.lookup childToolCallsKey toolInput).filter Json.truthy with
  | none => .ok []
  | some (.arr calls) => .ok calls
  | some other =>
    .error (.valueError ("'child_tool_calls' must be a list of tool calls, got " ++ typeName other))

/-- The child that a `task_id` names, where it does. -/
def namedChild (toolInput : List (String × Json)) : Option String :=
  ((Json.lookup "task_id" toolInput).filter Json.truthy).map Json.text

def childIdOf (toolInput : List (String × Json)) : RecordM String :=
  match namedChild toolInput with
  | some child => pure child
  | none => newId "ses"

/-- What a `task` call does before its part is recorded. -/
def recordTask (toolInput recorded : List (String × Json)) (started : Nat) :
    RecordM TaskMetadata := do
  let childId ← childIdOf toolInput
  let own ← read (·.writer.sessionId)
  let calls ← settle (childCallsOf toolInput)
  writeChildSession childId recorded calls started
  return { parentSessionId := own, sessionId := childId }

def recordToolCall (name : String) (toolInput : List (String × Json)) : RecordM String := do
  let ref ← assistantMessage
  let callId ← newId "call"
  let started ← nowMs
  let recorded := toolInput.filter (·.1 ≠ childToolCallsKey)
  let metadata ← if name = "task" then some <$> recordTask toolInput recorded started else pure none
  let part ← newPart ref.id
    (.tool callId name { input := recorded, start := started, metadata }) none
  setDoc (·.modify ref.place (·.append part))
  writeOwn
  return callId

def Part.answered (part : Part) (toolUseId output : String) (now : Nat) : Option Part :=
  match part.fields with
  | .tool callId tool state =>
    if callId = toolUseId ∧ state.completed.isNone then
      some { part with
        fields := .tool callId tool { state with completed := some ⟨output, max now state.start⟩ } }
    else none
  | _ => none

/-- The list with the last item that `f` takes replaced, and what `f` makes of it. -/
def replaceLast {α β : Type} (f : α → Option (α × β)) : List α → Option (List α × β)
  | [] => none
  | a :: rest =>
    match replaceLast f rest with
    | some (rest, b) => some (a :: rest, b)
    | none => (f a).map fun (a, b) => (a :: rest, b)

def Message.answered (message : Message) (toolUseId output : String) (now : Nat) :
    Option (Message × Part) :=
  (replaceLast (fun part => (part.answered toolUseId output now).map fun part =>
    (part, part)) message.parts).map
    fun (parts, part) => ({ message with parts }, part)

def Part.isTask (part : Part) : Bool :=
  match part.fields with
  | .tool _ tool _ => tool = "task"
  | _ => false

/-- The part of a `task` call that is completed is told. -/
def completeCall : Option (List Message × Part) → RecordM (Option Part)
  | none => return none
  | some (messages, part) => do
    let _ ← nowMs
    setDoc ({ · with messages })
    writeOwn
    return if part.isTask then some part else none

def recordToolResult (toolUseId output : String) : RecordM (Option Part) := do
  let doc ← read (·.writer.doc)
  let now ← read (·.clock.head)
  completeCall (replaceLast (·.answered toolUseId output now) doc.messages)

inductive Op
  | openWriter (sessionId cwd : String) (billedZero : Bool)
  | recordUser (text : String)
  | recordResult (result : RunResult)
  | recordToolCall (name : String) (toolInput : List (String × Json))
  | recordToolResult (toolUseId output : String)

def next : Op → Recording → Recording
  | .openWriter sessionId cwd billedZero => after (openWriter sessionId cwd billedZero)
  | .recordUser text => after (recordUser text)
  | .recordResult result => after (recordResult result)
  | .recordToolCall name toolInput => after (recordToolCall name toolInput)
  | .recordToolResult toolUseId output => after (recordToolResult toolUseId output)

def Recording.fresh (sessionId cwd : String) (billedZero : Bool) (clock : Stream' Nat)
    (uuids : Stream' String) :
    Recording where
  versions := []
  writer := { sessionId, cwd, billedZero,
              doc := newDocument sessionId cwd "mock-opencode session" none }
  clock
  uuids

end BlizzardMock.Harness.Transcript
