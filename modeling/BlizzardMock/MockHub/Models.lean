import BlizzardMock.MockHub.Wire

namespace BlizzardMock.MockHub

inductive HubError
  | claimConflict (heldByRunnerId : String)
  | claimDeniedTerminal (chunkId : String) (status : ChunkStatus)
  | claimDeniedNotReady (chunkId : String) (status : ChunkStatus)
  | rekeyDeniedTerminal (chunkId : String) (status : ChunkStatus)
  | noCurrentNode (chunkId : String)
  | releaseNotHolder (chunkId runnerId : String) (detail : Option String)
  | releaseRefused (chunkId reason detail : String)
  | claimDeniedUnregistered (runnerId : String)
  | claimDeniedPaused (runnerId : String)
  | rekeyNotHolder (detail : String)
  | pinnedGraphMissing
  | chunkNotFound (detail : String)
  | chunkNotPausable (detail : String)
  | noRunContext (detail : String)
  | malformedCursor (cursor : String)
  | questionNotFound (detail : String)
  | unresolvableRunner (detail : String)
  | unresolvableHost (detail : String)
  | hostRetired (hostId : String)
  | unknownHost (hostId : String)
  | hostNameTaken (name : String)
  | runnerAlreadyHosted (runnerId hostId : String)
  | runnerLifecycleConflict (runnerId : String)
  | runnerRetireInterrupted (runnerId : String)
  | runnerTokenRefused (reason : String) (runnerId : Option String)
  | noSuchTenant
  | tenantRequired
  | foreignTenantNamed
  | runnerHoldsRoutes (detail : String)
  | unknownRunner (runnerId : String)
  | runnerNeverConnected (runnerId : String)
  | runnerRetired (runnerId : String) (action : Option String)
  | dependencyUnmet (prerequisiteChunkId : String)
  | claimRunnerLeverRefusal (kind runnerId detail : String)
  | claimIncompatible (runnerId reason detail : String)
  | runnerVersionRefused (refusal : RunnerVersionRefusal)
  | unknownProjects (entries : List String)
  | segmentsFromMultipleRunners (owners : List String)
  | systemArtifactNotFound (detail : String)
  /-- A `ValueError` over an id, a slug or a token that is taken. -/
  | alreadyHeld (detail : String)
  | validation
  | builtin (error : PyError)
  deriving DecidableEq

def tenantHeader : String := "X-Blizzard-Tenant"

def HubError.text [Unicode] : HubError → String
  | .claimConflict heldBy => "chunk already claimed by " ++ heldBy
  | .claimDeniedTerminal c status => "chunk " ++ c ++ " is " ++ status.value ++ ", not claimable"
  | .claimDeniedNotReady c status =>
    "chunk " ++ c ++ " is " ++ status.value ++ ", not ready to claim"
  | .rekeyDeniedTerminal c status =>
    "chunk " ++ c ++ " is " ++ status.value ++ ", its route confers no tenure"
  | .noCurrentNode _ => "chunk has no current runner node (terminal)"
  | .releaseNotHolder c r none => "runner " ++ r ++ " does not hold chunk " ++ c ++ "'s route"
  | .releaseNotHolder c r (some detail) =>
    if detail = "" then "runner " ++ r ++ " does not hold chunk " ++ c ++ "'s route"
    else "chunk " ++ c ++ ": " ++ detail
  | .releaseRefused _ _ detail => detail
  | .claimDeniedUnregistered r => "runner " ++ r ++ " is not registered at the hub"
  | .claimDeniedPaused r => "runner " ++ r ++ " is paused at the hub"
  | .rekeyNotHolder detail => detail
  | .pinnedGraphMissing => ""
  | .chunkNotFound detail => detail
  | .chunkNotPausable detail => detail
  | .noRunContext detail => detail
  | .malformedCursor cursor => cursor
  | .questionNotFound detail => detail
  | .unresolvableRunner detail => detail
  | .unresolvableHost detail => detail
  | .hostRetired h => "host " ++ h ++ " is retired"
  | .unknownHost h => "unknown host " ++ h
  | .hostNameTaken name => "a live host is already named " ++ reprStr name
  | .runnerAlreadyHosted r h => "runner " ++ r ++ " already stands under host " ++ h
  | .runnerLifecycleConflict r => "runner " ++ r ++ " changed after it was read — run it again"
  | .runnerRetireInterrupted r => "runner " ++ r ++ " changed after it was read — run it again"
  | .runnerTokenRefused reason _ => "runner token refused: " ++ reason
  | .noSuchTenant => "no such tenant"
  | .tenantRequired => "name the tenant to act in with " ++ tenantHeader
  | .foreignTenantNamed =>
    tenantHeader ++ " names a tenant other than the presented credential's"
  | .runnerHoldsRoutes detail => detail
  | .unknownRunner r => "unknown runner " ++ r
  | .runnerNeverConnected r => "runner " ++ r ++ " has not registered"
  | .runnerRetired r none => "runner " ++ r ++ " is retired"
  | .runnerRetired r (some action) =>
    "runner " ++ r ++ " is retired — " ++ action ++ " refused; `reinstate` it first"
  | .dependencyUnmet p => "chunk depends on unmet prerequisite " ++ p
  | .claimRunnerLeverRefusal _ _ detail => detail
  | .claimIncompatible r _ detail => "runner " ++ r ++ " may not claim the chunk: " ++ detail
  | .runnerVersionRefused refusal => refusal.detail
  | .unknownProjects entries =>
    "no project of the tenant answers to " ++ String.intercalate ", " (entries.map reprStr)
  | .segmentsFromMultipleRunners owners =>
    "segments from multiple runners " ++ (Json.arr (owners.map .str)).repr
  | .systemArtifactNotFound detail => detail
  | .alreadyHeld detail => detail
  | .validation => "validation error"
  | .builtin .typeError => "TypeError"
  | .builtin .valueError => "ValueError"
  | .builtin .overflowError => "OverflowError"

structure EscalationState where
  epoch : Int
  takeoverCommand : String
  wrappedTakeoverCommand : String
  cause : Option String
  detail : Option String
  deriving DecidableEq

structure ReleaseRecord where
  runnerId : String
  epoch : Int
  reason : String
  deriving DecidableEq

structure QuestionState where
  questionId : String
  chunkId : String
  nodeId : Option String
  sessionId : Option String
  harnessId : Option String
  runnerId : String
  epoch : Int
  question : String
  options : List String
  askedAt : String
  answered : Bool := false
  answer : Option String := none
  answeredBy : Option String := none
  answeredAt : Option String := none
  delivered : Bool := false
  deliveredAt : Option String := none
  deriving DecidableEq

def QuestionState.deliveryRefusal (q : QuestionState) (chunkId : String) : Option String :=
  if chunkId ≠ q.chunkId
    then some ("question " ++ q.questionId ++ " belongs to chunk " ++ q.chunkId)
  else if ¬ q.answered then some ("question " ++ q.questionId ++ " is not answered")
  else none

structure ChunkState where
  chunkId : String
  projectId : String
  graphId : String
  graphName : Option String
  defaultModel : List String
  defaultEffort : Option String
  defaultHarnesses : List String
  entry : String
  nodes : Dict String NodeSpec
  workRefs : List WorkRefSpec
  graphArtifacts : List GraphArtifactSpec
  gardenRun : Option GardenRunSpec := none
  gardenProposals : List GardenProposalSpec := []
  currentNodeId : Option String := none
  status : ChunkStatus := .ready
  statusBeforePause : Option ChunkStatus := none
  latestEpoch : Int := 0
  claimed : Bool := false
  routeRunnerId : Option String := none
  routeWorkspaceId : Option String := none
  routeEnvironmentIds : List String := []
  routeTokenRekeyCount : Nat := 0
  liveRouteToken : Option String := none
  /-- The outcome already produced for each `from_node_id#epoch`, for idempotent re-apply. -/
  applied : Dict String ApplyOutcome := ∅
  lastResponse : Option ApplyResponse := none
  escalation : Option EscalationState := none
  releases : List ReleaseRecord := []
  deriving DecidableEq

namespace ChunkState

variable (chunk : ChunkState)

def node (nodeId : String) : Option NodeSpec := chunk.nodes.get? nodeId

/-- `done` or `stopped`: the chunk has no node-step left to run. -/
def Ended : Prop := chunk.status = .done ∨ chunk.status = .stopped

instance : Decidable chunk.Ended := inferInstanceAs (Decidable (_ ∨ _))

def refuseClaim : Except HubError Unit :=
  if chunk.Ended then .error (.claimDeniedTerminal chunk.chunkId chunk.status)
  else if chunk.claimed then
    -- an empty holder is falsy
    .error (.claimConflict (match chunk.routeRunnerId with
      | none => "unknown"
      | some r => if r = "" then "unknown" else r))
  else if chunk.status ≠ .ready then .error (.claimDeniedNotReady chunk.chunkId chunk.status)
  else .ok ()

def refuseRekey : Except HubError Unit :=
  if chunk.Ended then .error (.rekeyDeniedTerminal chunk.chunkId chunk.status) else .ok ()

def refuseRelease (runnerId : String) (epoch : Int) : Except HubError Unit :=
  if chunk.Ended then
    .error (.releaseNotHolder chunk.chunkId runnerId (some "release refused: not-holder"))
  else if ¬ chunk.claimed ∨ chunk.routeRunnerId ≠ some runnerId then
    .error (.releaseNotHolder chunk.chunkId runnerId none)
  else if chunk.status ≠ .running then
    .error (.releaseRefused chunk.chunkId "not-running"
      ("chunk " ++ chunk.chunkId ++ ": release refused: not-running"))
  else if epoch ≠ chunk.latestEpoch then
    .error (.releaseRefused chunk.chunkId "stale"
      ("chunk " ++ chunk.chunkId ++ ": release refused: stale"))
  else .ok ()

/-- The writes of `release`, once `refuse_release` let it through. -/
def released (runnerId : String) (epoch : Int) (reason : String) : ChunkState :=
  { chunk with
    claimed := false
    routeRunnerId := none
    routeWorkspaceId := none
    routeEnvironmentIds := []
    status := .ready
    releases := chunk.releases ++ [⟨runnerId, epoch, reason⟩] }

def refuseEnvelope : Except HubError Unit :=
  if chunk.Ended then .error (.noCurrentNode chunk.chunkId) else .ok ()

def incoherentAttempt (fromNodeId : String) (epoch : Int) (openQuestionIds : List String) :
    Option String :=
  match chunk.currentNodeId.filter (fromNodeId ≠ ·) with
  | some current => some ("node `" ++ fromNodeId ++ "` is not the chunk's current node `" ++
      current ++ "` at epoch " ++ toString epoch)
  | none =>
    if chunk.escalation.any (·.epoch = epoch) then
      some ("the attempt at epoch " ++ toString epoch ++
        " escalated — requeue the chunk before it moves on")
    else match openQuestionIds with
      | q :: _ => some ("question " ++ q ++ " is open — answer it before the chunk moves on")
      | [] => none

def hubExecuted (fromNodeId : String) : Option String :=
  if (chunk.node fromNodeId).any (·.executor = .hub) then
    some ("node `" ++ fromNodeId ++ "` is hub-executed — the hub authors its transitions")
  else none

/-- The writes of `claim`, once nothing refuses it. -/
def claimedBy (runnerId workspaceId : String) (environmentIds : List String)
    (nodeId routeToken : String) : ChunkState :=
  { chunk with
    claimed := true
    routeRunnerId := some runnerId
    routeWorkspaceId := some workspaceId
    routeEnvironmentIds := environmentIds
    currentNodeId := some nodeId
    status := .running
    liveRouteToken := some routeToken }

def unrouted : ChunkState :=
  { chunk with
    claimed := false
    routeRunnerId := none
    routeWorkspaceId := none
    routeEnvironmentIds := []
    status := if chunk.status = .running then .ready else chunk.status }

/-- `chunk.current_node_id or chunk.entry`: an empty node id is falsy. -/
def currentOrEntry : String :=
  match chunk.currentNodeId with
  | some n => if n = "" then chunk.entry else n
  | none => chunk.entry

end ChunkState

def shipsFromLeaseHolder (owner : Option String) (runnerId : String) : Bool :=
  match owner with
  | none => true
  | some o => o = runnerId

end BlizzardMock.MockHub
