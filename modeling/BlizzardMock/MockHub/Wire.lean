import BlizzardMock.MockHub.Spec
import BlizzardMock.Python.DateTime

/-! Response bodies, as far as the modelled methods answer them. -/

namespace BlizzardMock.MockHub

structure EnvelopeChoice where
  name : String
  description : String
  requiresChecks : Bool
  deriving DecidableEq

structure NodeConfig where
  nodeId : String
  nodeName : String
  executor : Executor
  session : SessionMode
  sessionSource : Option String
  sessionName : Option String
  sessionModel : List String
  sessionEffort : Option String
  sessionHarnesses : List String
  sessionCompactionWindow : Option String
  sessionRotate : Option RotatePolicySpec
  judgedBy : JudgedBy
  checks : List String
  checksCwd : Option String
  checksTimeout : Option Int
  produces : List String
  retriesMax : Option Int
  choices : List EnvelopeChoice
  deriving DecidableEq

structure WorkRefView where
  source : String
  ref : String
  label : String
  deriving DecidableEq

structure GraphArtifact where
  name : String
  kind : String
  content : String
  deriving DecidableEq

structure NodeEnvelope where
  chunkId : String
  graphId : String
  graphName : Option String
  epoch : Int
  node : NodeConfig
  prompt : Option String
  judgementPrompt : Option String
  workRefs : List WorkRefView
  graphArtifacts : List GraphArtifact
  deriving DecidableEq

structure RouteClaimResponse where
  chunkId : String
  runnerId : String
  workspaceId : String
  environmentIds : List String
  envelope : NodeEnvelope
  routeToken : String
  deriving DecidableEq

structure RouteTokenRekeyResponse where
  chunkId : String
  routeToken : String
  deriving DecidableEq

structure ReleaseResponse where
  chunkId : String
  releasedId : Nat
  deriving DecidableEq

structure ApplyResponse where
  outcome : ApplyOutcome
  nextEnvelope : Option NodeEnvelope := none
  detail : Option String := none
  deriving DecidableEq

structure HubAdvanceResponse where
  chunkId : String
  status : String
  ran : Bool
  detail : String
  deriving DecidableEq

structure ProjectFields where
  projectId : String
  projectSlug : Option String
  projectName : Option String
  deriving DecidableEq

structure ChunkSummary where
  chunkId : String
  graphId : String
  graphName : Option String
  status : String
  terminal : Bool
  promotable : Bool
  currentNodeId : Option String
  workRefs : List WorkRefSpec
  defaultModel : List String
  defaultEffort : Option String
  defaultHarnesses : List String
  runnerId : Option String
  runnerName : Option String
  workspaceId : Option String
  environmentCount : Nat
  project : ProjectFields
  deriving DecidableEq

structure RouteView where
  runnerId : String
  runnerName : Option String
  workspaceId : String
  environmentIds : List String
  deriving DecidableEq

structure QuestionView where
  questionId : String
  chunkId : String
  nodeId : Option String
  sessionId : Option String
  harnessId : Option String
  runnerId : String
  runnerName : Option String
  epoch : Int
  question : String
  options : List String
  askedAt : String
  answered : Bool
  answer : Option String
  answeredBy : Option String
  answeredAt : Option String
  delivered : Bool
  deliveredAt : Option String
  superseded : Bool
  project : Option ProjectFields
  deriving DecidableEq

structure ChunkEscalationView where
  epoch : Int
  takeoverCommand : String
  wrappedTakeoverCommand : String
  cause : Option String
  detail : Option String
  deriving DecidableEq

inductive ChunkDeleteRefusal | status
  deriving DecidableEq

structure ChunkDetail where
  chunkId : String
  graphId : String
  status : String
  currentNodeId : Option String
  latestEpoch : Option Int
  workRefs : List WorkRefSpec
  defaultModel : List String
  defaultEffort : Option String
  defaultHarnesses : List String
  route : Option RouteView
  pausable : Bool
  statusIfPaused : String
  completable : Bool
  deletable : Bool
  deleteRefusal : Option ChunkDeleteRefusal
  promotable : Bool
  graphEditable : Bool
  terminal : Bool
  currentNodeTerminal : Bool
  escalation : Option ChunkEscalationView
  questions : List QuestionView
  project : ProjectFields
  deriving DecidableEq

structure ChunkStatusView where
  chunkId : String
  status : String
  routeRunnerId : Option String
  latestEpoch : Option Int
  project : ProjectFields
  deriving DecidableEq

structure BlockedView where
  prerequisiteChunkId : String
  deriving DecidableEq

structure QueuePeekEntry where
  chunkId : String
  graphId : String
  position : Nat
  workRefs : List WorkRefSpec
  blocked : Option BlockedView
  project : ProjectFields
  deriving DecidableEq

structure ExternalSubscriptionUsageWindowView where
  window : String
  utilizationPct : Rat
  resetsAt : String
  windowSeconds : Int
  deriving DecidableEq

structure SubscriptionUsageView where
  slug : String
  name : String
  sampledAt : Option String
  windows : List ExternalSubscriptionUsageWindowView
  condition : Option String := none
  missReason : Option String := none
  missedAt : Option String := none
  deriving DecidableEq

structure ServedProjectView where
  entry : String
  projectId : Option String
  slug : Option String := none
  name : Option String := none
  deriving DecidableEq

structure RunnerBindingView where
  project : String
  workspaceId : String
  agents : Int
  workspaceUnreported : Bool
  deriving DecidableEq

structure RunnerDecliningView where
  lever : String
  detail : String
  subscription : Option String
  «until» : Option String
  deriving DecidableEq

structure RunnerCapabilityView where
  harnessId : String
  version : Option String
  tiers : List String
  supportedModels : List String
  default : Bool
  available : Bool
  deriving DecidableEq

structure RunnerView where
  runnerId : String
  runnerName : String
  workspaceId : String
  registeredAt : String
  lastSeenAt : String
  online : Bool
  hubPaused : Bool
  locallyPaused : Bool
  locallyPausedBy : Option String
  locallyPausedReason : Option String
  envCapacity : Option Int
  agents : Option Int
  subscriptions : List SubscriptionUsageView
  capabilities : List RunnerCapabilityView
  gates : List String
  projects : List ServedProjectView
  bindings : Option (List RunnerBindingView)
  subscription : Option String
  subscriptionUnrostered : Bool
  declining : List RunnerDecliningView
  deriving DecidableEq

structure MeTenantView where
  tenantId : String
  name : String
  role : String
  deriving DecidableEq

structure MeView where
  role : Option String
  tenants : List MeTenantView
  deriving DecidableEq

structure WorkItemEntry where
  source : String
  ref : String
  hubSource : Bool
  fetchedAt : String
  title : String
  deriving DecidableEq

structure FleetSummary where
  ready : Nat
  running : Nat
  waiting : Nat
  needs : Nat
  deriving DecidableEq

structure VersionWindowView where
  floor : String
  ceiling : String
  deriving DecidableEq

structure RunnerVersionRefusal where
  reason : String
  runnerVersion : Option String
  hubVersion : String
  floor : String
  detail : String
  deriving DecidableEq

structure RunnerRegistrationResponse where
  runnerId : String
  runnerName : String
  firstRegistration : Bool
  tenantId : String
  tenantName : Option String
  projects : List ServedProjectView
  bindings : Option (List RunnerBindingView)
  subscription : Option String
  subscriptionUnrostered : Bool
  hubVersion : String
  window : VersionWindowView
  deriving DecidableEq

structure RunnerAddResponse where
  runnerId : String
  runnerName : String
  token : String
  deriving DecidableEq

structure RunnerEnrollmentResponse where
  runnerId : String
  token : String
  deriving DecidableEq

structure HostRunnerView where
  runnerId : String
  runnerName : String
  deriving DecidableEq

structure HostRecordResponse where
  hostId : String
  tenantId : String
  hostName : String
  registeredAt : Option String
  lastSeenAt : Option String
  runners : List HostRunnerView
  deriving DecidableEq

structure HostAddResponse where
  hostId : String
  hostName : String
  token : String
  adopted : List String
  deriving DecidableEq

structure RunnerIdentityView where
  runnerId : String
  runnerName : String
  tenantId : String
  tenantName : Option String
  fleetFlags : List (String × Bool)
  deriving DecidableEq

structure RunnerFactAck where
  runnerId : String
  highWater : Int
  applied : List Int
  alreadyApplied : List Int
  rejected : List Int
  deriving DecidableEq

structure HostFactAck where
  hostId : String
  highWater : Int
  applied : List Int
  alreadyApplied : List Int
  rejected : List Int
  deriving DecidableEq

structure TranscriptSegmentAck where
  runnerId : String
  highWater : Int
  applied : List Int
  alreadyApplied : List Int
  capped : List Int
  refused : List Int
  deriving DecidableEq

structure LeaseTranscriptView where
  chunkId : String
  nodeId : String
  epoch : Int
  truncated : Bool
  turns : List (List (String × Json))

end BlizzardMock.MockHub
