import BlizzardMock.MockHub.Api
import BlizzardMock.MockRunner.Levers

/-! `MockRunnerService`: the driver that performs a runner's calls of a hub, under levers that
distort them, beside the hub it calls. -/

namespace BlizzardMock.MockRunner

open Method MockHub

abbrev Fields := List (String × Json)

structure Submission where
  choice : String
  epoch : Int
  fromNodeId : String
  routeToken : Option String
  deriving DecidableEq

structure Held where
  chunkId : String
  epoch : Int
  fromNodeId : String
  routeToken : Option String := none
  lastSubmission : Option Submission := none
  deriving DecidableEq

structure GitCommit where
  forge : String
  repo : String
  branch : String
  commit : String
  deriving DecidableEq

structure MockRunnerService where
  token : Option String
  name : String
  workspaceId : String
  levers : InMemoryLeverStore := ∅
  runnerId : Option String := none
  held : Dict String Held := ∅
  runnerSeq : Int := 0
  transcriptSeq : Int := 0
  gitCommitDeclarations : Dict String (Dict String GitCommit) := ∅

/-- What comes between the driver and the hub at one call: what others do to the hub before it,
whether the call arrives, and whether its answer does. -/
structure Passage where
  others : List Op := []
  arrives : Bool := true
  answered : Bool := true

structure Push where
  fact : Fact
  reply : Reply RunnerFactAck
  before : MockHubService
  after : MockHubService

structure Stack where
  runner : MockRunnerService
  hub : MockHubService
  passages : Stream' Passage
  clock : Stream' DateTime
  uuids : Stream' String
  pushes : List Push := []

abbrev DriveM := EStateM PyError Stack

namespace MockRunnerService

def readRunner {α : Type} (f : MockRunnerService → α) : DriveM α := read fun stack => f stack.runner

def setRunner (f : MockRunnerService → MockRunnerService) : DriveM Unit :=
  write fun stack => { stack with runner := f stack.runner }

def now : DriveM DateTime := do
  let instant ← read (·.clock.head)
  write fun stack => { stack with clock := stack.clock.tail }
  return instant

def uuid4Hex : DriveM String := do
  let hex ← read (·.uuids.head)
  write fun stack => { stack with uuids := stack.uuids.tail }
  return hex

section Levers

def find (kind : RunnerLever) (chunkId : Option String) : DriveM (Option Lever) :=
  readRunner (·.levers.find kind.value chunkId)

def consume (lever : Lever) : DriveM Unit :=
  setRunner fun runner => { runner with levers := runner.levers.consume lever }

def applyDelay (chunkId : Option String) : DriveM Unit := do
  whenSome (fun lever => do
    consume lever
    let ms ← settle (Json.get lever.payload "ms" (.int 0)).toInt
    refuseIf (ms < 0) .valueError) (← find .delay chunkId)

def pull (kind : RunnerLever) (chunkId : String) : DriveM Bool := do
  let lever ← find kind (some chunkId)
  whenSome consume lever
  return lever.isSome

end Levers

variable [Platform] {α : Type}

/-- A call of the gateway; one that fails comes back with the status 0. -/
def call (route : Option String → HubM (Reply α)) : DriveM (Reply α) := do
  let passage ← read (·.passages.head)
  let token ← readRunner (·.token)
  write fun stack => { stack with
    hub := stack.hub.after passage.others
    passages := stack.passages.tail }
  if passage.arrives then do
    let reply ← read fun stack => answer (route token) stack.hub
    write fun stack => { stack with hub := Method.after (route token) stack.hub }
    if passage.answered then
      match reply with
      | .ok reply => return reply
      | .error error => return .refused 500 (some error)
    else return .refused 0 none
  else return .refused 0 none

/-- `_push_fact`, and what each verb that pushes a fact of its own does: the fact takes the lane's
next number. -/
def pushFact (kind : String) (payload : Fields) : DriveM (Reply RunnerFactAck) := do
  setRunner fun runner => { runner with runnerSeq := runner.runnerSeq + 1 }
  let seq ← readRunner (·.runnerSeq)
  let fact : Fact := { seq, kind, payload }
  let before ← read fun stack => stack.hub.after stack.passages.head.others
  let reply ← call (Api.pushFacts · [fact])
  write fun stack => { stack with pushes := ⟨fact, reply, before, stack.hub⟩ :: stack.pushes }
  return reply

def stamped (held : Held) (payload : Fields) : Fields :=
  payload ++ (held.routeToken.map fun token => ("route_token", .str token)).toList

def reportLease (held : Held) : DriveM Unit := do
  let _ ← pushFact leaseMinted
    (stamped held [("chunk_id", .str held.chunkId), ("epoch", .int held.epoch)])
  return ()

def reportedVersion : String := "0.4.0"

def defaultCapabilities : List RunnerCapability := [{ harnessId := "claude_code", default := true }]

def claudeCodeHarnessId : String := "claude_code"

def register (capabilities : Option (List RunnerCapability))
    (subscriptions : Option (List DeclaredSubscription)) (declining : List RunnerDecliningView) :
    DriveM (Reply RunnerRegistrationResponse) := do
  applyDelay none
  let runner ← readRunner id
  let reply ← call (Api.registerRunner · {
    name := some runner.name
    workspaceId := runner.workspaceId
    capabilities := capabilities.getD defaultCapabilities
    subscriptions
    declining
    version := some reportedVersion })
  match reply with
  | .served _ response => setRunner fun runner => { runner with runnerId := some response.runnerId }
  | .refused .. => pure ()
  return reply

def peek : DriveM (Reply (List QueuePeekEntry)) := do
  applyDelay none
  call Api.peekQueue

def peekMatched (capabilities : List RunnerCapability) (policy : String) (enrolled : Bool) :
    DriveM (Reply (List QueuePeekEntry)) := do
  applyDelay none
  call fun token => Api.peekMatchedQueue (if enrolled then token else none) capabilities policy

def Held.ofClaim (chunkId : String) (response : RouteClaimResponse) : Held where
  chunkId
  epoch := response.envelope.epoch + 1
  fromNodeId := response.envelope.node.nodeId
  routeToken := some response.routeToken

def claim (chunkId : String) (environmentIds : List String) :
    DriveM (Reply RouteClaimResponse) := do
  applyDelay (some chunkId)
  let workspaceId ← readRunner (·.workspaceId)
  let reply ← call (Api.claimRoute · chunkId workspaceId environmentIds)
  match reply with
  | .served _ response => do
    let held := Held.ofClaim chunkId response
    setRunner fun runner => { runner with held := runner.held.set chunkId held }
    reportLease held
  | .refused .. => pure ()
  return reply

def selectNext (entries : List QueuePeekEntry) (strict : Bool) : Option QueuePeekEntry :=
  if strict then entries.head?.filter (·.blocked.isNone) else entries.find? (·.blocked.isNone)

def claimNext (environmentIds : List String) (strict : Bool) :
    DriveM (Option (Reply RouteClaimResponse)) := do
  match ← call Api.peekQueue with
  | .served _ entries =>
    match selectNext entries strict with
    | none => return none
    | some entry => some <$> claim entry.chunkId environmentIds
  | .refused status error => return some (.refused status error)

def advance (chunkId : String) (response : ApplyResponse) : DriveM Unit := do
  whenSome (fun held =>
    match response.outcome, response.nextEnvelope with
    | .next, some envelope => do
      let held : Held := { held with
                           fromNodeId := envelope.node.nodeId, epoch := envelope.epoch + 1 }
      setRunner fun runner => { runner with held := runner.held.set chunkId held }
      reportLease held
    | _, _ => setRunner fun runner => { runner with held := runner.held.erase chunkId })
    (← readRunner (·.held.get? chunkId))

def conflictingNode : String := "conflicting-node"

def staleRouteToken : String := "mock-stale-route-token-does-not-match-any-live-route"

/-- What `complete` comes to: it drove the hub or did not, its ack was lost, and the answer to a
duplicate delivery. -/
inductive Completed
  | idle (reason : String)
  | drove (droppedAck : Bool) (reply : Reply ApplyResponse)
      (replayed : Option (Reply ApplyResponse))

def complete (chunkId choice : String) : DriveM Completed := do
  applyDelay (some chunkId)
  match ← readRunner (·.held.get? chunkId) with
  | none => return .idle ("chunk " ++ chunkId ++ " not claimed by this driver")
  | some held => do
    if ← pull .unreachable chunkId then return .idle "runner unreachable mid-lease"
    else do
      let stale ← pull .staleEpoch chunkId
      let conflicting ← pull .conflictingFact chunkId
      let omitted ← pull .omitRouteToken chunkId
      let staleToken ← pull .staleRouteToken chunkId
      let submission : Submission := {
        choice
        epoch := if stale then max (held.epoch - 1) 0 else held.epoch
        fromNodeId := if conflicting then conflictingNode else held.fromNodeId
        routeToken :=
          if staleToken then some staleRouteToken else if omitted then none else held.routeToken }
      setRunner fun runner => { runner with
        held := runner.held.set chunkId { held with lastSubmission := some submission } }
      let submit := call (Api.submitCompletion · chunkId submission.epoch
        submission.fromNodeId choice)
      let reply ← submit
      let replayed ← if ← pull .replay chunkId then some <$> submit else pure none
      if ← pull .dropAck chunkId then return .drove true reply replayed
      else do
        match reply with
        | .served _ response => advance chunkId response
        | .refused .. => pure ()
        return .drove false reply replayed

def getChunk (chunkId : String) : DriveM (Reply ChunkDetail) := do
  applyDelay (some chunkId)
  call (Api.getChunk · chunkId)

def chunkStatuses (chunkIds : List String) : DriveM (Reply (List ChunkStatusView)) := do
  applyDelay none
  call (Api.getChunkStatuses · chunkIds)

def declareGitCommit (leaseId : String) (commit : GitCommit) : DriveM Unit :=
  setRunner fun runner => { runner with
    gitCommitDeclarations := runner.gitCommitDeclarations.set leaseId
      ((runner.gitCommitDeclarations.getD leaseId ∅).set commit.repo commit) }

def orNull : Option String → Json
  | none => .null
  | some text => .str text

/-- A verb of a chunk the driver holds; it does nothing for any other. -/
def whenHeld (chunkId : String) (drive : Held → DriveM α) : DriveM (Option α) := do
  applyDelay (some chunkId)
  match ← readRunner (·.held.get? chunkId) with
  | none => return none
  | some held => some <$> drive held

def escalate (chunkId takeoverCommand wrappedTakeoverCommand : String)
    (cause detail : Option String) :
    DriveM (Option (Reply RunnerFactAck)) :=
  whenHeld chunkId fun held => pushFact escalationRecorded (stamped held
    [("chunk_id", .str chunkId), ("epoch", .int held.epoch),
      ("takeover_command", .str takeoverCommand),
      ("wrapped_takeover_command", .str wrappedTakeoverCommand), ("cause", orNull cause),
      ("detail", orNull detail)])

def decide (chunkId : String) : DriveM (Option (Reply ApplyResponse)) :=
  whenHeld chunkId fun held => call (Api.submitDecision · chunkId held.epoch held.fromNodeId)

def ask (chunkId question : String) (options : List String) (harnessId : Option String) :
    DriveM (Option (Reply RunnerFactAck)) :=
  whenHeld chunkId fun held => do
    let hex ← uuid4Hex
    let instant ← now
    pushFact questionAsked
      [("question_id", .str ("mock-question-" ++ String.ofList (hex.toList.take 24))),
        ("chunk_id", .str chunkId), ("session_id", .str ("mock-session-" ++ chunkId)),
        ("harness_id", .str (harnessId.getD claudeCodeHarnessId)), ("epoch", .int held.epoch),
        ("question", .str question), ("options", .arr (options.map .str)),
        ("asked_at", .str instant.isoformat)]

def placeholderTurn (timestamp : String) : Fields :=
  [("index", .int 0), ("kind", .str "asst"), ("timestamp", .str timestamp),
    ("text", .str "mock turn"),
    ("tool", .null), ("thinking_redacted", .bool false), ("sidechain", .null),
      ("truncated", .bool false)]

def pushTranscript (chunkId segmentId : String) (turns : List Fields) (recordTruncated : Bool) :
    DriveM (Option (Reply TranscriptSegmentAck)) :=
  whenHeld chunkId fun held => do
    setRunner fun runner => { runner with transcriptSeq := runner.transcriptSeq + 1 }
    let seq ← readRunner (·.transcriptSeq)
    let turns ←
      if turns.isEmpty then (fun instant => [placeholderTurn instant.isoformat]) <$> now
        else pure turns
    call (Api.pushTranscripts · [{
      seq, segmentId, chunkId, recordTruncated, turns
      nodeId := held.fromNodeId
      epoch := held.epoch
      spawnGeneration := 1
      turnRangeStart := 0 }])

def pollAnswer (questionId : String) : DriveM (Reply QuestionView) := do
  applyDelay none
  call (Api.getQuestion · questionId)

def pause (actor : String) (reason : Option String) : DriveM (Reply RunnerFactAck) := do
  applyDelay none
  let instant ← now
  pushFact runnerLocallyPaused ([("at", .str instant.isoformat), ("by", .str actor)] ++
    (reason.map fun reason => ("reason", .str reason)).toList)

def resume (actor : String) : DriveM (Reply RunnerFactAck) := do
  applyDelay none
  let instant ← now
  pushFact runnerLocallyResumed [("at", .str instant.isoformat), ("by", .str actor)]

def reportEvent (severity kind message : String) (chunkId leaseId nodeName : Option String)
    (detail : Option Fields) : DriveM (Reply RunnerFactAck) := do
  applyDelay chunkId
  let named : String → Option String → Fields := fun key value =>
    (value.map fun value => (key, .str value)).toList
  pushFact eventRecorded
    ([("severity", .str severity), ("kind", .str kind), ("message", .str message)] ++
      named "chunk_id" chunkId ++ named "lease_id" leaseId ++ named "node_name" nodeName ++
      (detail.map fun detail => ("detail", .obj detail)).toList)

def reportExternalUsage (slug : Json) (sampledAt : String) (windows : List Fields)
    (name : Option String) : DriveM (Reply RunnerFactAck) := do
  applyDelay none
  pushFact externalSubscriptionUsageSampled
    ([("slug", slug), ("sampled_at", .str sampledAt), ("windows", .arr (windows.map .obj))] ++
      (name.map fun name => ("name", .str name)).toList)

def reportExternalUsageMiss (slug : Json) (missedAt reason : String) (name : Option String) :
    DriveM (Reply RunnerFactAck) := do
  applyDelay none
  pushFact externalSubscriptionUsageMissed
    ([("slug", slug), ("missed_at", .str missedAt), ("reason", .str reason)] ++
      (name.map fun name => ("name", .str name)).toList)

def reset : DriveM Unit :=
  setRunner fun runner => { runner with
    held := ∅
    runnerSeq := 0
    transcriptSeq := 0
    gitCommitDeclarations := ∅
    levers := ∅ }

end MockRunnerService

end BlizzardMock.MockRunner
