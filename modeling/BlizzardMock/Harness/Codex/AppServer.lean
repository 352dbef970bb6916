import BlizzardMock.Python.Base64
import BlizzardMock.Python.JsonRound
import BlizzardMock.Python.Text
import Mathlib.Logic.Function.Basic

/-! `mock-codex app-server`: processes that answer a JSON-RPC stream each, and rotate one
credentials file between them under the lock beside it. -/

namespace BlizzardMock.Harness.Codex

open JsonText

class Digests where
  digest : String → String

variable [Codecs]

structure Moment where
  seconds : Double
  readable : ReadableDouble seconds

/-- What one rotation draws: a refresh token, the expiry of the access token, and the time of the
refresh. -/
structure Draws where
  refreshToken : String
  expiry : Double
  refreshed : Moment

/-- The bytes of a text `json.dumps` wrote, which is ASCII. -/
def b64 (fields : List (String × Json)) : String :=
  String.ofList (Base64.strip (Base64.encode ((Json.obj fields).dumps.toList.map Char.toNat)))

def issueAccessToken (accountId : Option String) (expiry : Double) : String :=
  b64 [("alg", .str "none")] ++ "." ++
    b64 [("sub", .str ((accountId.filter (· ≠ "")).getD "mock-account")), ("exp", .float expiry)] ++
    ".mock-signature"

/-- `json.loads` of a text, which may not begin with a byte order mark. -/
def loadsText (text : String) : Except Failure Json :=
  if text.toList.head? = some '\uFEFF' then .error (.raised .valueError) else parse text.toList

def credentials (file : Option String) : Option (List (String × Json) × List (String × Json)) :=
  match file.map loadsText with
  | some (.ok (.obj data)) =>
    match Json.lookup "tokens" data with
    | some (.obj tokens) => some (data, tokens)
    | _ => none
  | _ => none

def accountIdOf (tokens : List (String × Json)) : Option String :=
  match Json.lookup "account_id" tokens with
  | some (.str id) => some id
  | _ => none

def readAccount (file : Option String) : Option String :=
  (credentials file).bind fun found => (accountIdOf found.2).filter (· ≠ "")

def renewed (draws : Draws) (tokens : List (String × Json)) : List (String × Json) :=
  Dict.assign "refresh_token" (.str draws.refreshToken)
    (Dict.assign "access_token" (.str (issueAccessToken (accountIdOf tokens) draws.expiry)) tokens)

def rotated (draws : Draws) (data tokens : List (String × Json)) : List (String × Json) :=
  Dict.assign "last_refresh" (.float draws.refreshed.seconds)
    (Dict.assign "tokens" (.obj (renewed draws tokens)) data)

def rotateLocked (draws : Draws) (file : Option String) : Option (String × Option String) :=
  (credentials file).map fun found =>
    ((Json.obj (rotated draws found.1 found.2)).dumps, accountIdOf found.2)

def auditLine [Digests] (pid : Nat) (written : String) (time : Double) : String :=
  (Json.obj [("pid", .int pid), ("content_digest", .str (Digests.digest written)),
    ("at", .float time)]).dumps

def reply (id : Json) (result : List (String × Json)) : Json :=
  .obj [("jsonrpc", .str "2.0"), ("id", id), ("result", .obj result)]

def notify (method : String) : Json :=
  .obj [("jsonrpc", .str "2.0"), ("method", .str method), ("params", .obj [])]

def accountResult (accountId : Option String) : List (String × Json) :=
  [("account", accountId.elim .null fun id => .obj [("account_id", .str id)]),
    ("requiresOpenaiAuth", .bool true)]

/-- What a line of stdin asks for; one that is blank, no JSON or no object asks for nothing. -/
inductive Request
  | handshake (id : Json)
  | accountRead (id : Json) (refresh : Bool)
  | other (id : Json)
  | ignored

def refreshes (message : List (String × Json)) : Bool :=
  match Json.lookup "params" message with
  | some (.obj params) => (Json.get params "refreshToken" .null).truthy
  | _ => false

def requestOf (message : List (String × Json)) : Request :=
  let id := Json.get message "id" .null
  match Json.lookup "method" message with
  | some (.str method) =>
    if method = "initialize" then .handshake id
    else if method = "account/read" then .accountRead id (refreshes message)
    else .other id
  | _ => .other id

def request (rawLine : String) : Request :=
  let line := strip rawLine
  if line = "" then .ignored
  else match loadsText line with
    | .ok (.obj message) => requestOf message
    | _ => .ignored

/-- Where a process is: between two lines of stdin, or at a point of `_rotate` for the request of an
id. -/
inductive Phase
  | idle
  | waiting (id : Json)
  | locked (id : Json)
  | staged (id : Json) (text : String) (account : Option String)
  | renamed (id : Json) (text : String) (account : Option String)
  | leaving (id : Json) (account : Option String)

/-- The credentials file, its audit log and its lock, and what is each process's own: its place, the
lines still to come on its stdin and what it wrote to stdout. -/
structure World where
  file : Option String
  audit : List String := []
  holder : Option Nat := none
  phase : Nat → Phase := fun _ => .idle
  inbox : Nat → List String
  sent : Nat → List Json := fun _ => []

inductive Act
  | readLine (pid : Nat)
  | acquire (pid : Nat)
  | load (pid : Nat) (draws : Draws)
  | rename (pid : Nat)
  | append (pid : Nat) (time : Double)
  | release (pid : Nat)

def handle (file : Option String) : Request → Phase × List Json
  | .handshake id => (.idle, [reply id [], notify "sessionConfigured"])
  | .accountRead id true => (.waiting id, [])
  | .accountRead id false => (.idle, [reply id (accountResult (readAccount file))])
  | .other .null => (.idle, [])
  | .other id => (.idle, [reply id []])
  | .ignored => (.idle, [])

namespace World

def moved (w : World) (pid : Nat) (phase : Phase) (messages : List Json) : World :=
  { w with
    phase := Function.update w.phase pid phase
    sent := Function.update w.sent pid (w.sent pid ++ messages) }

def next [Digests] (act : Act) (w : World) : World :=
  match act with
  | .readLine pid =>
    match w.phase pid, w.inbox pid with
    | .idle, line :: rest =>
      let (phase, messages) := handle w.file (request line)
      { w with inbox := Function.update w.inbox pid rest }.moved pid phase messages
    | _, _ => w
  | .acquire pid =>
    match w.phase pid, w.holder with
    | .waiting id, none => { w with holder := some pid }.moved pid (.locked id) []
    | _, _ => w
  | .load pid draws =>
    match w.phase pid with
    | .locked id =>
      match rotateLocked draws w.file with
      | some (text, account) => w.moved pid (.staged id text account) []
      | none => w.moved pid (.leaving id none) []
    | _ => w
  | .rename pid =>
    match w.phase pid with
    | .staged id text account =>
      { w with file := some text }.moved pid (.renamed id text account) []
    | _ => w
  | .append pid time =>
    match w.phase pid with
    | .renamed id text account =>
      { w with audit := w.audit ++ [auditLine pid text time] }.moved pid (.leaving id account) []
    | _ => w
  | .release pid =>
    match w.phase pid with
    | .leaving id account =>
      { w with holder := none }.moved pid .idle [reply id (accountResult account)]
    | _ => w

end World

end BlizzardMock.Harness.Codex
