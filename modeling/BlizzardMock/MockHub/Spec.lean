import BlizzardMock.Data.Dict

namespace BlizzardMock.MockHub

inductive Executor | runner | hub
  deriving DecidableEq

inductive SessionMode | resume | fresh
  deriving DecidableEq

inductive JudgedBy | worker | human
  deriving DecidableEq

inductive ChunkStatus
  | notReady | ready | paused | running | delivering | needsHuman | done | stopped
  deriving DecidableEq

theorem ChunkStatus.ready_ne_running : ChunkStatus.ready ≠ .running := by decide

def ChunkStatus.value : ChunkStatus → String
  | .notReady => "not_ready"
  | .ready => "ready"
  | .paused => "paused"
  | .running => "running"
  | .delivering => "delivering"
  | .needsHuman => "needs_human"
  | .done => "done"
  | .stopped => "stopped"

/-- `TERMINAL_STATUSES`. -/
def ChunkStatus.Terminal (status : ChunkStatus) : Prop := status = .done ∨ status = .stopped

instance (status : ChunkStatus) : Decidable status.Terminal := inferInstanceAs (Decidable (_ ∨ _))

/-- `PAUSABLE_STATUSES`. -/
def ChunkStatus.Pausable (status : ChunkStatus) : Prop := ¬ status.Terminal ∧ status ≠ .delivering

instance (status : ChunkStatus) : Decidable status.Pausable := inferInstanceAs (Decidable (_ ∧ _))

/-- `PRE_CLAIM_STATUSES`. -/
def ChunkStatus.PreClaim (status : ChunkStatus) : Prop := status = .notReady ∨ status = .ready

instance (status : ChunkStatus) : Decidable status.PreClaim := inferInstanceAs (Decidable (_ ∨ _))

def statusIfPaused (status : ChunkStatus) : ChunkStatus :=
  if ¬ status.Pausable ∨ status = .needsHuman then status else .paused

def terminal : String := "done"

def reservedHubSourceName : String := "hub"

inductive ApplyOutcome | next | hubNodeTaken | parkedAtGate | done | failure
  deriving DecidableEq

structure ChoiceSpec where
  name : String
  description : String := ""
  «to» : String
  requiresChecks : Bool := false
  deriving DecidableEq

structure RotatePolicySpec where
  maxContextTokens : Option Int := none
  maxTranscriptBytes : Option Int := none
  maxInvocations : Option Int := none
  deriving DecidableEq

structure NodeSpec where
  executor : Executor := .runner
  session : SessionMode := .resume
  sessionSource : Option String := none
  sessionName : Option String := none
  sessionModel : List String := []
  sessionEffort : Option String := none
  sessionHarnesses : List String := []
  sessionCompactionWindow : Option String := none
  sessionRotate : Option RotatePolicySpec := none
  judgedBy : JudgedBy := .worker
  prompt : Option String := none
  judgementPrompt : Option String := none
  choices : List ChoiceSpec := []
  produces : List String := []
  checks : List String := []
  checksCwd : Option String := none
  checksTimeout : Option Int := none
  retriesMax : Option Int := none
  deriving DecidableEq

structure WorkRefSpec where
  source : String
  ref : String
  deriving DecidableEq

/-- Its `kind` is always `asset`, the one kind a graph-scoped artifact carries. -/
structure GraphArtifactSpec where
  name : String
  content : String
  deriving DecidableEq

inductive GardenProposalClosureKind | passed | accepted
  deriving DecidableEq

inductive GardenProposalItemOutcome | minted | declined
  deriving DecidableEq

inductive GardenProposalOrigin | routineRun | operator
  deriving DecidableEq

inductive RoutineProposalState | open | closed | all
  deriving DecidableEq

structure GardenRunSpec where
  routineName : String
  scopeSlug : String
  deriving DecidableEq

structure GardenProposalClosureSpec where
  closure : GardenProposalClosureKind
  reason : Option String := none
  closedBy : String := "u_1"
  closedAt : Option String := none
  itemOutcome : Option GardenProposalItemOutcome := none
  source : Option String := none
  ref : Option String := none
  deriving DecidableEq

structure GardenProposalSpec where
  proposalId : String
  «class» : String
  title : String
  body : String
  findings : List String := []
  createdAt : Option String := none
  closure : Option GardenProposalClosureSpec := none
  deriving DecidableEq

def firstProjectId : String := "proj_00000000000000000000000000"
def defaultProjectSlug : String := "default"
def defaultProjectName : String := "Default"

structure ChunkSpec where
  chunkId : Option String := none
  projectId : Option String := none
  graphId : String := "gr_mock"
  graphName : Option String := none
  defaultModel : List String := []
  defaultEffort : Option String := none
  defaultHarnesses : List String := []
  entry : String
  nodes : Dict String NodeSpec
  workRefs : List WorkRefSpec := []
  graphArtifacts : List GraphArtifactSpec := []
  gardenRun : Option GardenRunSpec := none
  gardenProposals : List GardenProposalSpec := []
  status : ChunkStatus := .ready
  /-- `_routeless`: a chunk is running only under a live route, so none is seeded running. -/
  routeless : status ≠ .running := by first | exact ChunkStatus.ready_ne_running | decide

end BlizzardMock.MockHub
