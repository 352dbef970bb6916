import Mathlib.Logic.Function.Basic
import BlizzardMock.Data.Dict
import BlizzardMock.Data.Machine

/-! The fake service's sessions and the worker thread of each.  Every section of the engine that
holds its lock is one step, and so is every read of a cancel flag outside it. -/

namespace BlizzardMock.OpenCode2

inductive Outcome | succeeded | failed | interrupted
  deriving DecidableEq

inductive Kind | prompt | steer | compact
  deriving DecidableEq

/-- What waits in a session's queue.  Its ticket is its place in the order of acceptance, over all
sessions; the service itself does not keep it. -/
structure Item where
  kind : Kind
  text : String
  ticket : Nat
  deriving DecidableEq

structure Entry where
  ticket : Nat
  childId : String
  text : String
  description : String
  deriving DecidableEq

/-- The messages of a session, its assistant steps aside.  One that answers a request keeps the
request's ticket. -/
inductive Message
  | user (text : String) (ticket : Nat)
  | synthetic (entry : Entry)
  | compaction (ticket : Nat)
  | idle (outcome : Outcome) (turn : Nat)
  deriving DecidableEq

/-- A permission request; an interrupt answers it without a decision. -/
structure Ask where
  answered : Bool := false
  decision : Option String := none
  message : Option String := none
  deriving DecidableEq

inductive Stage
  | turning
  | asking (request : Nat)
  | woken (ask : Ask)
  | declining
  | ending (outcome : Outcome)
  deriving DecidableEq

inductive Worker
  | absent
  | looping
  | taken (item : Item)
  | turn (ticket : Nat) (stage : Stage)
  | compacting (ticket : Nat)
  | summarizing (ticket : Nat)
  | delivering
  | handing
  | settling
  deriving DecidableEq

structure Session where
  id : String
  parentId : Option String
  title : String
  outcome : Option Outcome := none
  messages : List Message := []
  running : Bool := false
  current : Option String := none
  pending : List Item := []
  inbox : List Entry := []
  asks : Dict Nat Ask := ∅
  cancel : Bool := false
  children : List (String × Bool) := []
  finalText : String := ""
  worker : Worker := .absent

inductive Section
  | pop | userMessage | takeSteer | requestPermission | wakeUp | judge | notice
  | finish (failed : Bool)
  | declined | wait | compact | deliverInbox | idle | childSettled
  | spawned (child : String) (background : Bool)
  | wrote (text : String)

namespace Session

variable (session : Session)

/-- What `_cancel` does to one session. -/
def cancelled : Session :=
  { session with
    cancel := session.cancel || session.running
    pending := []
    inbox := []
    asks := session.asks.mapValues fun ask => { ask with answered := true } }

def start : Session :=
  if session.running then session
  else { session with running := true, cancel := false, worker := .looping }

def accept (item : Item) : Session :=
  ({ session with pending := session.pending ++ [item] } : Session).start

def hear (entry : Entry) : Session :=
  ({ session with inbox := session.inbox ++ [entry] } : Session).start

def replied (request : Nat) (decision : String) (message : Option String) : Session :=
  match session.asks.get? request with
  | none => session
  | some _ =>
    { session with
      asks := session.asks.set request { answered := true, decision := some decision, message } }

def pop (stored : Bool) : Session :=
  match session.worker with
  | .looping =>
    if stored = false then { session with worker := .absent }
    else match session.pending with
      | item :: rest =>
        { session with
          pending := rest
          worker := if item.kind = .compact then .compacting item.ticket else .taken item }
      | [] =>
        if session.inbox ≠ [] then { session with worker := .delivering }
        else { session with running := false, current := none, worker := .absent }
  | _ => session

def userMessage : Session :=
  match session.worker with
  | .taken item =>
    { session with
      current := some item.text
      cancel := false
      messages := session.messages ++ [.user item.text item.ticket]
      worker := .turn item.ticket .turning }
  | _ => session

def takeSteer : Session :=
  match session.worker, session.pending.find? (·.kind = .steer) with
  | .turn _ .turning, some item =>
    { session with pending := session.pending.eraseP (·.kind = .steer), worker := .taken item }
  | _, _ => session

def requestPermission (request : Nat) : Session :=
  match session.worker with
  | .turn ticket .turning =>
    { session with
      asks := session.asks.set request {}
      worker := .turn ticket (.asking request) }
  | _ => session

/-- `request_permission`, from the answer on. -/
def wakeUp : Session :=
  match session.worker with
  | .turn ticket (.asking request) =>
    match session.asks.get? request with
    | some ask =>
      if ask.answered then
        { session with asks := session.asks.erase request, worker := .turn ticket (.woken ask) }
      else session
    | none => session
  | _ => session

def judge : Session :=
  match session.worker with
  | .turn ticket (.woken ask) =>
    if session.cancel = true ∨ ask.decision = none then
      { session with worker := .turn ticket (.ending .interrupted) }
    else if ask.decision = some "reject" ∧ ask.message = none then
      { session with worker := .turn ticket .declining }
    else { session with worker := .turn ticket .turning }
  | _ => session

def notice : Session :=
  match session.worker with
  | .turn ticket .turning =>
    if session.cancel then { session with worker := .turn ticket (.ending .interrupted) }
      else session
  | _ => session

def finish (failed : Bool) : Session :=
  match session.worker with
  | .turn ticket .turning =>
    { session with worker := .turn ticket (.ending (if failed then .failed else .succeeded)) }
  | _ => session

def declined : Session :=
  match session.worker with
  | .turn _ .declining => { session with current := none, worker := .looping }
  | _ => session

def wait : Session :=
  match session.worker with
  | .compacting ticket =>
    { session with
      worker := if session.cancel then .turn ticket (.ending .interrupted)
        else .summarizing ticket }
  | .delivering => { session with worker := if session.cancel then .looping else .handing }
  | _ => session

def compact : Session :=
  match session.worker with
  | .summarizing ticket =>
    { session with
      messages := session.messages ++ [.compaction ticket]
      worker := .turn ticket (.ending .succeeded) }
  | _ => session

def deliverInbox (stored : Entry → Bool) : Session :=
  match session.worker, session.inbox with
  | .handing, [] => { session with worker := .looping }
  | .handing, entry :: rest =>
    { session with
      inbox := rest
      messages := session.messages ++ [.synthetic entry]
      worker := .turn entry.ticket (if stored entry then .turning else .ending .succeeded) }
  | _, _ => session

def idle : Session :=
  match session.worker with
  | .turn ticket (.ending outcome) =>
    { session with
      messages := session.messages ++ [.idle outcome ticket]
      outcome := some outcome
      current := none
      pending := if outcome = .interrupted then [] else session.pending
      worker := if session.parentId = none then .looping else .settling }
  | _ => session

def spawned (child : String) (background : Bool) : Session :=
  match session.worker with
  | .turn _ .turning => { session with children := session.children ++ [(child, background)] }
  | _ => session

def wrote (text : String) : Session :=
  match session.worker with
  | .turn _ .turning => { session with finalText := text }
  | _ => session

def returned : Session :=
  match session.worker with
  | .settling => { session with worker := .looping }
  | _ => session

def work (stored : String → Bool) (request : Nat) : Section → Session
  | .pop => session.pop (stored session.id)
  | .userMessage => session.userMessage
  | .takeSteer => session.takeSteer
  | .requestPermission => session.requestPermission request
  | .wakeUp => session.wakeUp
  | .judge => session.judge
  | .notice => session.notice
  | .finish failed => session.finish failed
  | .declined => session.declined
  | .wait => session.wait
  | .compact => session.compact
  | .deliverInbox => session.deliverInbox fun entry => stored entry.childId
  | .idle => session.idle
  | .childSettled => session.returned
  | .spawned child background => session.spawned child background
  | .wrote text => session.wrote text

end Session

/-- The service.  A session stays an object of its own after it is removed, and one created later
under its id is another. -/
structure Engine where
  objects : Nat → Session
  made : Nat := 0
  sessions : Dict String Nat := ∅
  tickets : Nat := 0
  /-- `Lever.INTERRUPT_IGNORED` -/
  interruptIgnored : Bool := false

namespace Engine

def fresh (interruptIgnored : Bool) : Engine where
  objects _ := { id := "", parentId := none, title := "" }
  interruptIgnored := interruptIgnored

variable (engine : Engine)

def modify (object : Nat) (f : Session → Session) : Engine :=
  { engine with objects := Function.update engine.objects object (f (engine.objects object)) }

def drawn : Engine := { engine with tickets := engine.tickets + 1 }

def get (sid : String) : Option Session := (engine.sessions.get? sid).map engine.objects

def create (sid parent title : String) : Engine :=
  if sid ∈ engine.sessions then engine
  else
    let session : Session :=
      { id := sid, parentId := if parent = "" then none else some parent, title }
    { engine with
      objects := Function.update engine.objects engine.made session
      made := engine.made + 1
      sessions := engine.sessions.set sid engine.made }

def enqueue (sid : String) (kind : Kind) (text : String) : Engine :=
  match engine.sessions.get? sid with
  | none => engine
  | some object =>
    (engine.modify object (·.accept { kind, text, ticket := engine.tickets })).drawn

def prompt (sid text : String) (delivery : Option String) : Engine :=
  engine.enqueue sid (if delivery = some "steer" then .steer else .prompt) text

def compact (sid : String) : Engine := engine.enqueue sid .compact ""

def childrenOf (parent : String) : List String :=
  engine.sessions.keys.filter fun sid => (engine.get sid).any (·.parentId = some parent)

/-- The loop of `_tree`, for so many turns at most: none where it goes on. -/
def treeLoop : Nat → List String → Nat → Option (List String)
  | 0, _, _ => none
  | turns + 1, ordered, index =>
    match ordered[index]? with
    | none => some ordered
    | some sid => treeLoop turns (ordered ++ engine.childrenOf sid) (index + 1)

/-- `_tree`.  A tree of sessions takes the loop one turn more than it has members; the tree of a
session that is its own descendant never ends. -/
def tree (root : String) : Option (List String) :=
  engine.treeLoop (engine.sessions.keys.length + 1)
    (if root ∈ engine.sessions then [root] else []) 0

def cancel : Nat → Nat → Engine → Option Engine
  | 0, _, _ => none
  | depth + 1, object, engine => do
    let engine := engine.modify object Session.cancelled
    let ids ← engine.tree (engine.objects object).id
    ids.tail.foldlM
      (fun engine sid =>
        match engine.sessions.get? sid with
        | none => some engine
        | some child =>
          if (engine.objects child).running then cancel depth child engine else some engine)
      engine

def interrupt (sid : String) : Option (Bool × Engine) :=
  match engine.sessions.get? sid with
  | none => none
  | some object =>
    if engine.interruptIgnored then some (true, engine)
    else if (engine.objects object).running then
      (cancel (engine.sessions.keys.length + 1) object engine).map fun later => (true, later)
    else some (false, engine)

def remove (sid : String) : Option Engine := do
  let doomed ← engine.tree sid
  let later ← doomed.foldlM
    (fun engine sid =>
      match engine.sessions.get? sid with
      | none => some engine
      | some object => cancel (engine.sessions.keys.length + 1) object engine)
    engine
  return { later with sessions := doomed.foldl Dict.erase later.sessions }

def replyPermission (sid : String) (request : Nat) (decision : String) (message : Option String) :
    Engine :=
  match engine.sessions.get? sid with
  | none => engine
  | some object => engine.modify object (·.replied request decision message)

def childSettled (object : Nat) : Engine :=
  let child := engine.objects object
  match child.parentId.bind engine.sessions.get? with
  | none => engine
  | some parent =>
    let entry : Entry :=
      { ticket := engine.tickets, childId := child.id, text := child.finalText,
        description := child.title }
    if child.worker = .settling ∧ child.outcome = some .succeeded ∧
        (child.id, true) ∈ (engine.objects parent).children then
      (engine.modify parent (·.hear entry)).drawn
    else engine

def work (object : Nat) (step : Section) : Engine :=
  let told := match step with
    | .childSettled => engine.childSettled object
    | _ => engine
  let worked := told.modify object
    (·.work (fun sid => decide (sid ∈ engine.sessions)) engine.tickets step)
  match step with
  | .requestPermission => worked.drawn
  | _ => worked

end Engine

/-- A step of the service: a request, or a step of the worker of a session.  A worker that is
elsewhere takes none. -/
inductive Op
  | create (sid parent title : String)
  | prompt (sid text : String) (delivery : Option String)
  | compact (sid : String)
  | interrupt (sid : String)
  | remove (sid : String)
  | replyPermission (sid : String) (request : Nat) (decision : String) (message : Option String)
  | work (object : Nat) (step : Section)

namespace Engine

def next : Op → Engine → Engine
  | .create sid parent title, engine => engine.create sid parent title
  | .prompt sid text delivery, engine => engine.prompt sid text delivery
  | .compact sid, engine => engine.compact sid
  | .interrupt sid, engine => ((engine.interrupt sid).map Prod.snd).getD engine
  | .remove sid, engine => (engine.remove sid).getD engine
  | .replyPermission sid request decision message, engine =>
    engine.replyPermission sid request decision message
  | .work object step, engine => engine.work object step

end Engine

end BlizzardMock.OpenCode2
