import BlizzardMock.Data.Machine
import BlizzardMock.MockHub.Service.Reads

namespace BlizzardMock.MockHub

open Method

inductive ReadOp
  | peek (runnerId project : Option String)
  | peekMatched (runnerId : String) (capabilities : List RunnerCapability) (policy : String)
      (projects : Option (List String))
  | fleetSummary (runnerId : String)
  | requireRunnerChunk (chunkId runnerId : String)
  | refuseForeignRunnerChunk (chunkId runnerId : String)
  | chunkDetail (chunkId runnerId : String)
  | chunkStatuses (chunkIds : List String) (runnerId : String)
  | envelope (chunkId : String)
  | workItems (chunkId : String)
  | questionView (questionId runnerId : String)
  | runnerView (runnerId : String)
  | hostRecord (hostId : String)
  | leaseTranscriptOwner (chunkId runnerId nodeId : String) (epoch : Int)
  | leaseTranscript (chunkId runnerId nodeId : String) (epoch : Int)
  | identity (token : Option String)
  | principal (token : Option String)
  | hostPrincipal (token : Option String)
  | bootstrapCredential (token : Option String)
  | refuseForeignTenant (runnerId : String) (named : Option String)
  | refuseForeignHostTenant (hostId : String) (named : Option String)
  | refuseRetiredRunner (runnerId action : String)
  | tenantNamed (named : Option String)
  | me (named : Option String)
  | systemArtifacts
  | systemArtifact (name : String)
  | scopes (chunkId : Option String)
  | popDropAck (chunkId : String)

inductive RegistryOp
  | seedTenant (name : String) (tenantId : Option String)
  | renameTenant (tenantId name : String)
  | seedProject (slug name tenantId : String) (projectId : Option String)
  | setRunnerProjects (runnerId : String) (entries : List String)
  | addRunner (name tenantId : String) (runnerId token : Option String)
      (projects : Option (List String)) (hostId : Option String)
  | enroll (runnerId tenantId : String)
  | revokeToken (runnerId : String)
  | retire (runnerId actor : String)
  | addHost (name tenantId : String) (adopting : List String) (hostId token : Option String)
  | reportHost (hostId : String) (report : HostReport)
  | addHostRunner (hostId name : String) (projects : Option (List String))
  | register (runnerId : String) (reg : Registration)
  | heartbeat (runnerId : String)
  | setPaused (runnerId : String) (paused : Bool)
  | seedSystemArtifact (name content : String)
  | seedScope (slug description : String) (createdAt : Option String) (retired : Bool)

inductive LeverOp
  | arm (kind : HubLever) (chunkId : Option String) (remaining : Option Int)
      (payload : List (String × Json))
  | clear (kind : String) (chunkId : Option String)
  | clearAll

inductive Op
  | seedChunk (spec : ChunkSpec)
  | claim (chunkId runnerId workspaceId : String) (environmentIds : List String)
  | rekeyRouteToken (chunkId runnerId : String)
  | release (chunkId runnerId : String) (epoch : Int) (reason : String) (routeToken : Option String)
  | pauseChunk (chunkId : String)
  | resumeChunk (chunkId : String)
  | applyCompletion (chunkId : String) (epoch : Int) (fromNodeId choice : String)
  | applyDecision (chunkId : String) (epoch : Int) (fromNodeId : String)
  | hubAdvance (chunkId : String)
  | stopChunk (chunkId : String)
  | retireHostRunner (hostId runnerId actor : String) (force : Bool)
  | ingestFacts (runnerId : String) (facts : List Fact)
  | ingestHostFacts (hostId : String) (facts : List Fact)
  | ingestTranscripts (runnerId : String) (records : List TranscriptRecord)
  | answerQuestion (questionId answer answeredBy : String)
  | registry (op : RegistryOp)
  | lever (op : LeverOp)
  | read (op : ReadOp)
  | reset

def ReadOp.Answer : ReadOp → Type
  | .peek .. => List QueuePeekEntry
  | .peekMatched .. => List QueuePeekEntry
  | .fleetSummary _ => FleetSummary
  | .requireRunnerChunk .. => ChunkState
  | .refuseForeignRunnerChunk .. => Unit
  | .chunkDetail .. => ChunkDetail
  | .chunkStatuses .. => List ChunkStatusView
  | .envelope _ => NodeEnvelope
  | .workItems _ => List WorkItemEntry
  | .questionView .. => QuestionView
  | .runnerView _ => Option RunnerView
  | .hostRecord _ => HostRecordResponse
  | .leaseTranscriptOwner .. => Option String
  | .leaseTranscript .. => LeaseTranscriptView
  | .identity _ => RunnerIdentityView
  | .principal _ => String
  | .hostPrincipal _ => String
  | .bootstrapCredential _ => Option String × Option String
  | .refuseForeignTenant .. => Unit
  | .refuseForeignHostTenant .. => Unit
  | .refuseRetiredRunner .. => Unit
  | .tenantNamed _ => String
  | .me _ => MeView
  | .systemArtifacts => List (String × String)
  | .systemArtifact _ => String
  | .scopes _ => List ScopeRow
  | .popDropAck _ => Bool

def RegistryOp.Answer : RegistryOp → Type
  | .seedTenant .. => TenantRow
  | .renameTenant .. => TenantRow
  | .seedProject .. => ProjectRow
  | .setRunnerProjects .. => List ServedProjectView
  | .addRunner .. => RunnerAddResponse
  | .enroll .. => RunnerEnrollmentResponse
  | .revokeToken _ => Unit
  | .retire .. => Unit
  | .addHost .. => HostAddResponse
  | .reportHost .. => HostRecordResponse
  | .addHostRunner .. => RunnerAddResponse
  | .register .. => RunnerRegistrationResponse
  | .heartbeat _ => Bool
  | .setPaused .. => Unit
  | .seedSystemArtifact .. => Unit
  | .seedScope .. => Unit

def Op.Answer : Op → Type
  | .seedChunk _ => ChunkState
  | .claim .. => RouteClaimResponse
  | .rekeyRouteToken .. => RouteTokenRekeyResponse
  | .release .. => ReleaseResponse
  | .pauseChunk _ => ChunkSummary
  | .resumeChunk _ => ChunkSummary
  | .applyCompletion .. => ApplyResponse
  | .applyDecision .. => ApplyResponse
  | .hubAdvance _ => HubAdvanceResponse
  | .stopChunk _ => Unit
  | .retireHostRunner .. => RunnerRow × List String
  | .ingestFacts .. => RunnerFactAck
  | .ingestHostFacts .. => HostFactAck
  | .ingestTranscripts .. => TranscriptSegmentAck
  | .answerQuestion .. => Unit
  | .registry op => op.Answer
  | .lever _ => Unit
  | .read op => op.Answer
  | .reset => Unit

variable [Platform]

def ReadOp.run : (op : ReadOp) → HubM op.Answer
  | .peek r p => MockHubService.peek r p
  | .peekMatched r caps policy ps => MockHubService.peekMatched r caps policy ps
  | .fleetSummary r => MockHubService.fleetSummary r
  | .requireRunnerChunk c r => MockHubService.requireRunnerChunk c r
  | .refuseForeignRunnerChunk c r => MockHubService.refuseForeignRunnerChunk c r
  | .chunkDetail c r => MockHubService.chunkDetail c r
  | .chunkStatuses cs r => MockHubService.chunkStatuses cs r
  | .envelope c => MockHubService.envelope c
  | .workItems c => MockHubService.workItems c
  | .questionView q r => MockHubService.questionView q r
  | .runnerView r => MockHubService.runnerView r
  | .hostRecord h => MockHubService.hostRecord h
  | .leaseTranscriptOwner c r n e => MockHubService.leaseTranscriptOwner c r n e
  | .leaseTranscript c r n e => MockHubService.leaseTranscript c r n e
  | .identity t => MockHubService.identity t
  | .principal t => MockHubService.principal t
  | .hostPrincipal t => MockHubService.hostPrincipal t
  | .bootstrapCredential t => MockHubService.bootstrapCredential t
  | .refuseForeignTenant r t => MockHubService.refuseForeignTenant r t
  | .refuseForeignHostTenant h t => MockHubService.refuseForeignHostTenant h t
  | .refuseRetiredRunner r action => MockHubService.refuseRetiredRunner r action
  | .tenantNamed t => MockHubService.tenantNamed t
  | .me t => MockHubService.me t
  | .systemArtifacts => MockHubService.systemArtifacts
  | .systemArtifact n => MockHubService.systemArtifact n
  | .scopes c => MockHubService.scopes c
  | .popDropAck c => MockHubService.popDropAck c

def RegistryOp.run : (op : RegistryOp) → HubM op.Answer
  | .seedTenant n t => MockHubService.seedTenant n t
  | .renameTenant t n => MockHubService.renameTenant t n
  | .seedProject slug n t p => MockHubService.seedProject slug n t p
  | .setRunnerProjects r ps => MockHubService.setRunnerProjects r ps
  | .addRunner n t r token ps h => MockHubService.addRunner n t r token ps h
  | .enroll r t => MockHubService.enroll r t
  | .revokeToken r => MockHubService.revokeToken r
  | .retire r actor => MockHubService.retire r actor
  | .addHost n t rs h token => MockHubService.addHost n t rs h token
  | .reportHost h report => MockHubService.reportHost h report
  | .addHostRunner h n ps => MockHubService.addHostRunner h n ps
  | .register r reg => MockHubService.register r reg
  | .heartbeat r => MockHubService.heartbeat r
  | .setPaused r p => MockHubService.setPaused r p
  | .seedSystemArtifact n content => MockHubService.seedSystemArtifact n content
  | .seedScope slug description at' retired =>
    MockHubService.seedScope slug description at' retired

def LeverOp.apply : LeverOp → InMemoryLeverStore → InMemoryLeverStore
  | .arm kind chunkId remaining payload, levers =>
    levers.arm ⟨kind.value, chunkId, remaining, payload⟩
  | .clear kind chunkId, levers => levers.clear kind chunkId
  | .clearAll, _ => ∅

def Op.run : (op : Op) → HubM op.Answer
  | .seedChunk spec => MockHubService.seedChunk spec
  | .claim c r w es => MockHubService.claim c r w es
  | .rekeyRouteToken c r => MockHubService.rekeyRouteToken c r
  | .release c r e reason token => MockHubService.release c r e reason token
  | .pauseChunk c => MockHubService.pauseChunk c
  | .resumeChunk c => MockHubService.resumeChunk c
  | .applyCompletion c e n choice => MockHubService.applyCompletion c e n choice
  | .applyDecision c e n => MockHubService.applyDecision c e n
  | .hubAdvance c => MockHubService.hubAdvance c
  | .stopChunk c => MockHubService.stopChunk c
  | .retireHostRunner h r actor force => MockHubService.retireHostRunner h r actor force
  | .ingestFacts r facts => MockHubService.ingestFacts r facts
  | .ingestHostFacts h facts => MockHubService.ingestHostFacts h facts
  | .ingestTranscripts r records => MockHubService.ingestTranscripts r records
  | .answerQuestion q a actor => MockHubService.answerQuestion q a actor
  | .registry op => op.run
  | .lever op => MockHubService.setLevers op.apply
  | .read op => op.run
  | .reset => MockHubService.reset

namespace MockHubService

def next (op : Op) (hub : MockHubService) : MockHubService := Method.after op.run hub

def after (ops : List Op) (hub : MockHubService) : MockHubService := Machine.after next ops hub

def answers : List Op → MockHubService → List (Σ op : Op, Except HubError op.Answer)
  | [], _ => []
  | op :: ops, hub => ⟨op, answer op.run hub⟩ :: answers ops (hub.next op)

/-- Every call of a run meets a condition in the hub it is made of. -/
def Meets (C : Op → MockHubService → Prop) (ops : List Op) (hub : MockHubService) : Prop :=
  Machine.Meets next C ops hub

def Reachable (hub : MockHubService) : Prop := ∃ sources ops, hub = after ops (fresh sources)

theorem reachable_run (sources : Sources) (ops : List Op) : (after ops (fresh sources)).Reachable :=
  ⟨sources, ops, rfl⟩

end MockHubService

def Sources.still : Sources := ⟨fun _ => default, fun _ => 0, fun _ => "", fun _ => ""⟩

end BlizzardMock.MockHub
