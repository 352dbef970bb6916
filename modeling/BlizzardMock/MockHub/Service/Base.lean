import Mathlib.Data.Stream.Init
import BlizzardMock.Data.Method
import BlizzardMock.Ids
import BlizzardMock.Levers
import BlizzardMock.MockHub.Matching

namespace BlizzardMock.MockHub

open Method

/-- Where readings and random tails come from, one after another. -/
structure Sources where
  clock : Stream' DateTime
  rng : Stream' Nat
  secrets : Stream' String
  uuids : Stream' String

abbrev LeaseKey := String × String × String × Int

abbrev TranscriptKey := String × String × Int

inductive TranscriptKeyState | accepted | rejected
  deriving DecidableEq

structure TranscriptRecord where
  seq : Int
  segmentId : String
  chunkId : String
  nodeId : String
  epoch : Int
  spawnGeneration : Int
  turnRangeStart : Int
  recordTruncated : Bool := false
  supersedes : Option String := none
  turns : List (List (String × Json))

structure Books where
  factHighWater : Dict String Int := ∅
  hostFactHighWater : Dict String Int := ∅
  transcriptHighWater : Dict String Int := ∅
  epochOwners : Dict (String × String × Int) String := ∅
  transcriptOwners : Dict TranscriptKey (LeaseKey × String) := ∅
  transcriptChunkBytes : Dict (String × String) Int := ∅
  transcriptKeyState : Dict TranscriptKey TranscriptKeyState := ∅
  transcriptRejected : Dict TranscriptKey TranscriptRecord := ∅
  transcriptSegments : Dict LeaseKey (Dict TranscriptKey TranscriptRecord) := ∅

structure MockHubService extends Books where
  store : InMemoryHubState
  levers : InMemoryLeverStore
  sources : Sources

abbrev HubM := EStateM HubError MockHubService

inductive HubLever
  | delay | dropAck | conflictingFact | unreachable | unreachableTranscripts | delayTranscripts
  | replay | staleEnvelope | chunkUnknown | dependencyUnmet | hostPlaneAbsent | fleetFlags
  | artifactRefusal | idpOffered | versionRefused | legacyClaimRefusals | legacyIdentityRefusals
  | legacyVersionRefusals | legacyRekeyRefusals | legacyReadRefusals | legacyHostRunnerRefusals
  | legacyAuthRefusals | claimRunnerRetired | claimRunnerVersionRefused | pinnedGraphMissing
  | enforceReleaseRouteToken | runnerReadMissing | hostAddRunnerLifecycleConflict
  | hostRetireLifecycleConflict
  deriving DecidableEq

def HubLever.value : HubLever → String
  | .delay => "delay"
  | .dropAck => "drop_ack"
  | .conflictingFact => "conflicting_fact"
  | .unreachable => "unreachable"
  | .unreachableTranscripts => "unreachable_transcripts"
  | .delayTranscripts => "delay_transcripts"
  | .replay => "replay"
  | .staleEnvelope => "stale_envelope"
  | .chunkUnknown => "chunk_unknown"
  | .dependencyUnmet => "dependency_unmet"
  | .hostPlaneAbsent => "host_plane_absent"
  | .fleetFlags => "fleet_flags"
  | .artifactRefusal => "artifact_refusal"
  | .idpOffered => "idp_offered"
  | .versionRefused => "version_refused"
  | .legacyClaimRefusals => "legacy_claim_refusals"
  | .legacyIdentityRefusals => "legacy_identity_refusals"
  | .legacyVersionRefusals => "legacy_version_refusals"
  | .legacyRekeyRefusals => "legacy_rekey_refusals"
  | .legacyReadRefusals => "legacy_read_refusals"
  | .legacyHostRunnerRefusals => "legacy_host_runner_refusals"
  | .legacyAuthRefusals => "legacy_auth_refusals"
  | .claimRunnerRetired => "claim_runner_retired"
  | .claimRunnerVersionRefused => "claim_runner_version_refused"
  | .pinnedGraphMissing => "pinned_graph_missing"
  | .enforceReleaseRouteToken => "enforce_release_route_token"
  | .runnerReadMissing => "runner_read_missing"
  | .hostAddRunnerLifecycleConflict => "host_add_runner_lifecycle_conflict"
  | .hostRetireLifecycleConflict => "host_retire_lifecycle_conflict"

namespace MockHubService

def lever (levers : InMemoryLeverStore) (kind : HubLever) (chunkId : Option String) :
    Option Lever :=
  levers.find kind.value chunkId

def readStore {α : Type} (f : HubRows → α) : HubM α := read fun hub => f hub.store.toHubRows

def setRegistry (f : Registry → Registry) : HubM Unit :=
  write fun hub => { hub with store.toRegistry := f hub.store.toRegistry }

def setChunks (f : Table ChunkState.chunkId → Table ChunkState.chunkId) : HubM Unit :=
  write fun hub => { hub with store.chunks := f hub.store.chunks }

def putChunk (chunk : ChunkState) : HubM Unit := setChunks (·.put chunk)

def putQuestion (question : QuestionState) : HubM Unit :=
  write fun hub => { hub with store.questions := hub.store.questions.put question }

def reportedFacts (runnerId : String) : HubM ReportedRunnerFacts := do
  write fun hub => { hub with store.reported := hub.store.reported.setdefault runnerId {} }
  read fun hub => hub.store.reported.getD runnerId {}

def report (runnerId : String) (f : ReportedRunnerFacts → ReportedRunnerFacts) : HubM Unit := do
  let facts ← reportedFacts runnerId
  write fun hub => { hub with store.reported := hub.store.reported.set runnerId (f facts) }

def readBooks {α : Type} (f : Books → α) : HubM α := read fun hub => f hub.toBooks

def setBooks (f : Books → Books) : HubM Unit := write fun hub =>
      { hub with toBooks := f hub.toBooks }

def readLevers {α : Type} (f : InMemoryLeverStore → α) : HubM α := read fun hub => f hub.levers

def setLevers (f : InMemoryLeverStore → InMemoryLeverStore) : HubM Unit :=
  write fun hub => { hub with levers := f hub.levers }

def findLever (kind : HubLever) (chunkId : Option String) : HubM (Option Lever) :=
  readLevers (lever · kind chunkId)

def consumeLever (lever : Lever) : HubM Unit := setLevers (·.consume lever)

def readSources {α : Type} (f : Sources → α) : HubM α := read fun hub => f hub.sources

def setSources (f : Sources → Sources) : HubM Unit :=
  write fun hub => { hub with sources := f hub.sources }

def now : HubM DateTime := do
  let instant ← readSources (·.clock.head)
  setSources fun sources => { sources with clock := sources.clock.tail }
  return instant

def randomTail : HubM Nat := do
  let randomness ← readSources (·.rng.head)
  setSources fun sources => { sources with rng := sources.rng.tail }
  return randomness

def tokenUrlsafe : HubM String := do
  let secret ← readSources (·.secrets.head)
  setSources fun sources => { sources with secrets := sources.secrets.tail }
  return secret

def uuid4Hex : HubM String := do
  let hex ← readSources (·.uuids.head)
  setSources fun sources => { sources with uuids := sources.uuids.tail }
  return hex

def mint [Platform] (kind : String) : HubM String := do
  let instant ← now
  let randomness ← randomTail
  return mintedId kind (Platform.timestampMillis instant) randomness

def require (chunkId : String) : HubM ChunkState := do
  orRaise (.chunkNotFound ("unknown chunk " ++ chunkId)) (← readStore (·.chunks.get? chunkId))

def tenant (tenantId : String) : HubM TenantRow := do
  orRaise .noSuchTenant (← readStore (·.tenants.get? tenantId))

def added (runnerId : String) : HubM RunnerRow := do
  orRaise (.unknownRunner runnerId) (← readStore (·.runners.get? runnerId))

def host (hostId : String) : HubM HostRow := do
  orRaise (.unknownHost hostId) (← readStore (·.hosts.get? hostId))

def tenantRunner (tenantId runnerId : String) : HubM RunnerRow := do
  let row ← readStore (·.runners.get? runnerId)
  orRaise (.unknownRunner runnerId) (row.filter (·.tenantId = tenantId))

def tenantName (store : Registry) (tenantId : String) : Option String :=
  (store.tenants.get? tenantId).map (·.name)

def runnerName (store : Registry) (runnerId : Option String) : Option String :=
  ((runnerId.filter (· ≠ "")).bind store.runners.get?).map (·.name)

def projectFields (store : Registry) (projectId : String) : ProjectFields :=
  let project := store.projects.get? projectId
  ⟨projectId, project.map (·.slug), project.map (·.name)⟩

def tenantProjects (store : Registry) (tenantId : String) : List ProjectRow :=
  store.projects.rows.filter (·.tenantId = tenantId)

def tenantHosts (store : Registry) (tenantId : String) : List HostRow :=
  store.hosts.rows.filter (·.tenantId = tenantId)

/-- A `proj_` value names a project by id, any other by its current slug. -/
def resolveProject (store : Registry) (tenantId value : String) : Option ProjectRow :=
  if (projectPrefix ++ "_").toList.isPrefixOf value.toList then
    (store.projects.get? value).filter (·.tenantId = tenantId)
  else (tenantProjects store tenantId).find? (·.slug = value)

def declared (store : Registry) (tenantId : String) (entries : List String) :
    List ServedEntry :=
  entries.map fun entry => ⟨entry, (resolveProject store tenantId entry).map (·.projectId)⟩

def servedProjectIds (row : RunnerRow) : List String := row.projects.filterMap (·.projectId)

def hostReport (store : Registry) (row : RunnerRow) : Option HostRow :=
  (row.hostId.bind store.hosts.get?).filter (·.registeredAt.isSome)

def workspaceUnreported (host : HostRow) (binding : RunnerBinding) : Bool :=
  !(host.workspaces.map Prod.fst).contains binding.workspaceId

def subscriptionUnrostered (host : HostRow) (subscription : Option String) : Bool :=
  match subscription with
  | none => false
  | some slug => !(host.subscriptions.map (·.slug)).contains slug

def withheld (store : Registry) (row : RunnerRow) (binding : RunnerBinding) : Bool :=
  match hostReport store row with
  | none => false
  | some host => workspaceUnreported host binding || subscriptionUnrostered host row.subscription

def bindingViews (store : Registry) (row : RunnerRow) :
    Option (List RunnerBindingView) × Bool :=
  let host := hostReport store row
  (row.bindings.map fun bindings => bindings.map fun b =>
      ⟨b.project, b.workspaceId, row.agents.getD 0, host.any (workspaceUnreported · b)⟩,
    host.any (subscriptionUnrostered · row.subscription))

def offeredEntries (store : Registry) (row : RunnerRow) : List ServedEntry :=
  match row.bindings with
  | none => row.projects
  | some bindings =>
    let reachable := (bindings.filter fun b => !withheld store row b).map RunnerBinding.project
    row.projects.filter fun e => reachable.contains e.entry

def offeredProjectIds (store : Registry) (row : RunnerRow)
    (projects : Option (List String)) : List String :=
  let offered := (offeredEntries store row).filterMap ServedEntry.projectId
  match projects with
  | none => offered
  | some wanted =>
    let named := (row.projects.filter fun e =>
      wanted.contains e.entry || e.projectId.any wanted.contains).map ServedEntry.projectId
    offered.filter fun id => named.contains (some id)

def servedViews (store : Registry) (row : RunnerRow) : List ServedProjectView :=
  row.projects.map fun e =>
    match e.projectId.bind store.projects.get? with
    | none => { entry := e.entry, projectId := e.projectId }
    | some p => ⟨e.entry, some p.projectId, some p.slug, some p.name⟩

variable [Platform]

def unservedDetail (store : Registry) (projectId : String) : String :=
  "runner does not serve project " ++
    ((store.projects.get? projectId).elim (reprStr projectId) (·.slug))

def blockedMarking (levers : InMemoryLeverStore) (chunkId : String) : Option BlockedView :=
  (lever levers .dependencyUnmet (some chunkId)).map fun lever =>
    ⟨(Json.get lever.payload "prerequisite_chunk_id" (.str "unknown")).text⟩

end MockHubService

end BlizzardMock.MockHub
