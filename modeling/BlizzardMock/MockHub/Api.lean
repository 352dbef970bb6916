import BlizzardMock.MockHub.Operations

/-! The routes a runner calls: the levers at the transport's edge, the gate of the bearer token, and
what each route answers past it.  A chunk id stands in a path as it is, so it is taken to be one
segment of it. -/

namespace BlizzardMock.MockHub

/-- What a call comes back with: what a route serves, or a status and what was raised, if anything
was. -/
inductive Reply (α : Type)
  | served (status : Nat) (body : α)
  | refused (status : Nat) (error : Option HubError)

def Reply.body {α : Type} : Reply α → Option α
  | .served _ body => some body
  | .refused .. => none

namespace Api

open Method MockHubService

variable {α β : Type}

def sleep (kind : HubLever) (chunkId : Option String) : HubM Unit := do
  whenSome (fun lever => do
    consumeLever lever
    let _ ← settle ((Json.get lever.payload "ms" (.int 0)).toInt.mapError .builtin)
    return ()) (← findLever kind chunkId)

def unreachable (kind : HubLever) (chunkId : Option String) (route : HubM (Reply α)) :
    HubM (Reply α) := do
  match ← findLever kind chunkId with
  | some lever => do
    consumeLever lever
    return .refused 503 none
  | none => route

def dispatch (chunkId : Option String) (route : HubM (Reply α)) : HubM (Reply α) :=
  unreachable .unreachable chunkId do
    sleep .delay chunkId
    route

/-- `HubLeverMiddleware.dispatch`, of the transcripts' path. -/
def dispatchTranscripts (route : HubM (Reply α)) : HubM (Reply α) :=
  unreachable .unreachable none <| unreachable .unreachableTranscripts none do
    sleep .delayTranscripts none
    sleep .delay none
    route

def refuse (status : Nat) (legacy : Option HubLever) (chunkId : Option String) (error : HubError) :
    HubM (Reply α) := do
  whenSome (fun kind => do whenSome consumeLever (← findLever kind chunkId)) legacy
  return .refused status (some error)

def unhandled : HubError → Nat
  | .chunkNotFound _ => 404
  | _ => 500

/-- `require_active_runner` and the other dependencies of a router: one that raises refuses the
call. -/
def depends (dependency : HubM α) (status : Nat) (route : α → HubM (Reply β)) : HubM (Reply β) := do
  match ← attempt dependency with
  | .ok a => route a
  | .error error => refuse status (some .legacyAuthRefusals) none error

/-- The gate of `fleet_router`; the driver names no tenant. -/
def fleet (token : Option String) (route : String → HubM (Reply α)) : HubM (Reply α) :=
  depends (principal token) 401 fun runnerId =>
    depends (refuseRetiredRunner runnerId "fleet call") 403 fun _ =>
      depends (refuseForeignTenant runnerId none) 400 fun _ => route runnerId

/-- The gate of `claim_router`. -/
def claimGate (token : Option String) (route : String → HubM (Reply α)) : HubM (Reply α) :=
  depends (principal token) 401 fun runnerId =>
    depends (refuseForeignTenant runnerId none) 400 fun _ => route runnerId

def serve (status : Nat) (refusal : HubError → Nat × Option HubLever) (chunkId : Option String)
    (handler : HubM α) : HubM (Reply α) := do
  match ← attempt handler with
  | .ok body => return .served status body
  | .error error => refuse (refusal error).1 (refusal error).2 chunkId error

/-- `require_runner_chunk` -/
def runnerChunk (chunkId runnerId : String) (route : HubM (Reply α)) : HubM (Reply α) := do
  match ← attempt (refuseForeignRunnerChunk chunkId runnerId) with
  | .ok _ => route
  | .error error =>
    refuse (unhandled error) (match error with
      | .chunkNotFound _ => some .legacyReadRefusals
      | _ => none) (some chunkId) error

def chunkRefusal : HubError → Nat × Option HubLever
  | .chunkNotFound _ => (404, some .legacyReadRefusals)
  | .pinnedGraphMissing => (500, some .legacyReadRefusals)
  | _ => (500, none)

def claimRefusal : HubError → Nat × Option HubLever
  | .claimDeniedUnregistered _ | .claimDeniedPaused _ | .claimRunnerLeverRefusal ..
    | .runnerRetired .. =>
    (403, some .legacyClaimRefusals)
  | .claimDeniedTerminal .. | .claimConflict _ | .claimDeniedNotReady .. | .dependencyUnmet _
  | .claimIncompatible .. => (409, some .legacyClaimRefusals)
  | .chunkNotFound _ => (404, some .legacyClaimRefusals)
  | _ => (500, none)

def registerRefusal : HubError → Nat × Option HubLever
  | .runnerVersionRefused _ => (409, some .legacyVersionRefusals)
  | error => (unhandled error, none)

def peekRefusal : HubError → Nat × Option HubLever
  | .unknownProjects _ => (422, some .legacyReadRefusals)
  | error => (unhandled error, none)

def questionRefusal : HubError → Nat × Option HubLever
  | .questionNotFound _ => (404, some .legacyReadRefusals)
  | error => (unhandled error, none)

variable [Platform]

def registerRunner (token : Option String) (registration : Registration) :
    HubM (Reply RunnerRegistrationResponse) :=
  dispatch none <| fleet token fun runnerId =>
    serve 201 registerRefusal none (register runnerId registration)

def peekQueue (token : Option String) : HubM (Reply (List QueuePeekEntry)) :=
  dispatch none <| fleet token fun runnerId =>
    serve 200 peekRefusal none (peek (some runnerId) none)

def peekMatchedQueue (token : Option String) (capabilities : List RunnerCapability)
    (policy : String) :
    HubM (Reply (List QueuePeekEntry)) :=
  dispatch none <| fleet token fun runnerId =>
    serve 200 (fun error => (unhandled error, none)) none
      (peekMatched runnerId capabilities policy none)

def claimRoute (token : Option String) (chunkId workspaceId : String)
    (environmentIds : List String) :
    HubM (Reply RouteClaimResponse) :=
  dispatch none <| claimGate token fun runnerId =>
    serve 201 claimRefusal (some chunkId) do
      refuseForeignRunnerChunk chunkId runnerId
      claim chunkId runnerId workspaceId environmentIds

def submitCompletion (token : Option String) (chunkId : String) (epoch : Int)
    (fromNodeId choice : String) : HubM (Reply ApplyResponse) :=
  dispatch (some chunkId) <| fleet token fun runnerId => runnerChunk chunkId runnerId do
    match ← serve 200 chunkRefusal (some chunkId) (applyCompletion chunkId epoch fromNodeId choice)
        with
    | .served status response => do
      if ← popDropAck chunkId then return .refused 503 none else return .served status response
    | refused => return refused

def submitDecision (token : Option String) (chunkId : String) (epoch : Int) (fromNodeId : String) :
    HubM (Reply ApplyResponse) :=
  dispatch (some chunkId) <| fleet token fun runnerId => runnerChunk chunkId runnerId <|
    serve 200 chunkRefusal (some chunkId) (applyDecision chunkId epoch fromNodeId)

def pushFacts (token : Option String) (facts : List Fact) : HubM (Reply RunnerFactAck) :=
  dispatch none <| fleet token fun runnerId =>
    serve 200 (fun error => (unhandled error, none)) none (ingestFacts runnerId facts)

def pushTranscripts (token : Option String) (records : List TranscriptRecord) :
    HubM (Reply TranscriptSegmentAck) :=
  dispatchTranscripts <| fleet token fun runnerId =>
    serve 200 (fun error => (unhandled error, none)) none (ingestTranscripts runnerId records)

def getChunk (token : Option String) (chunkId : String) : HubM (Reply ChunkDetail) :=
  dispatch (some chunkId) <| fleet token fun runnerId =>
    serve 200 chunkRefusal (some chunkId) (chunkDetail chunkId runnerId)

def getChunkStatuses (token : Option String) (chunkIds : List String) :
    HubM (Reply (List ChunkStatusView)) :=
  dispatch none <| fleet token fun runnerId =>
    serve 200 (fun error => (unhandled error, none)) none (chunkStatuses chunkIds runnerId)

def getQuestion (token : Option String) (questionId : String) : HubM (Reply QuestionView) :=
  dispatch none <| fleet token fun runnerId =>
    serve 200 questionRefusal none (questionView questionId runnerId)

end Api

end BlizzardMock.MockHub
