import BlizzardMock.MockHub.ChunkLaws

namespace BlizzardMock.MockHub

open Method

variable [Platform]

namespace MockHubService

variable (hub : MockHubService) (chunk : ChunkState)

/-- Whether a completion steps the chunk: no lever answers in its place, its key is new, and the
chunk accepts the attempt. -/
def TakesCompletion (epoch : Int) (fromNodeId choice target : String) : Prop :=
  hub.Unpinned chunk.chunkId ∧ (hub.Unreplayed chunk.chunkId ∨ chunk.lastResponse = none) ∧
    chunk.applied.get? (ChunkState.appliedKey fromNodeId epoch) = none ∧
    chunk.Accepts (openQuestionIds hub.store.toHubRows chunk.chunkId epoch) epoch fromNodeId choice
      target

def TakesDecision (epoch : Int) (fromNodeId : String) : Prop :=
  hub.Unpinned chunk.chunkId ∧
    chunk.decisionRefusal (openQuestionIds hub.store.toHubRows chunk.chunkId epoch) epoch
      fromNodeId = none

def TakesAdvance : Prop := hub.Unpinned chunk.chunkId ∧ chunk.ParkedAtHubNode

end MockHubService

/-- What a call writes of a chunk it finds, each write under the guards the call puts on it. -/
inductive ChunkStep (hub : MockHubService) : Op → ChunkState → ChunkState → Prop
  | claimed {chunk : ChunkState} {r w : String} {es : List String}
    (free : chunk.refuseClaim = .ok ()) :
    ChunkStep hub (.claim chunk.chunkId r w es) chunk (chunk.claimedBy r w es chunk.currentOrEntry
      (MockHubService.claimToken chunk chunk.chunkId))
  | rekeyed {chunk : ChunkState} {r token : String} {count : Nat} (live : chunk.claimed)
      (holder : chunk.routeRunnerId = some r) (allowed : chunk.refuseRekey = .ok ()) :
    ChunkStep hub (.rekeyRouteToken chunk.chunkId r) chunk
      { chunk with routeTokenRekeyCount := count, liveRouteToken := some token }
  | released {chunk : ChunkState} {r reason : String} {e : Int} {token : Option String}
      (allowed : chunk.refuseRelease r e = .ok ()) :
    ChunkStep hub (.release chunk.chunkId r e reason token) chunk
      { chunk.released r e reason with liveRouteToken := none }
  | paused {chunk : ChunkState} (allowed : chunk.status.Pausable) :
    ChunkStep hub (.pauseChunk chunk.chunkId) chunk chunk.paused
  | resumed {chunk : ChunkState} : ChunkStep hub (.resumeChunk chunk.chunkId) chunk chunk.resumed
  | completed {chunk next : ChunkState} {e : Int} {n choice target : String}
      {response : ApplyResponse}
      (takes : hub.TakesCompletion chunk e n choice target)
      (landing : chunk.Landing target next response) :
    ChunkStep hub (.applyCompletion chunk.chunkId e n choice) chunk
      (next.recorded (ChunkState.appliedKey n e) response)
  | decided {chunk : ChunkState} {e : Int} {n : String} (takes : hub.TakesDecision chunk e n) :
    ChunkStep hub (.applyDecision chunk.chunkId e n) chunk { chunk with status := .needsHuman }
  | advanced {chunk : ChunkState} (takes : hub.TakesAdvance chunk) :
    ChunkStep hub (.hubAdvance chunk.chunkId) chunk { chunk with status := .done }
  | stopped {chunk : ChunkState} :
    ChunkStep hub (.stopChunk chunk.chunkId) chunk
      { chunk with status := .stopped, claimed := false }
  | unrouted {chunk : ChunkState} {h r actor : String} {force : Bool} (live : chunk.claimed)
      (holder : chunk.routeRunnerId = some r) :
    ChunkStep hub (.retireHostRunner h r actor force) chunk chunk.unrouted
  | pushed {chunk later : ChunkState} {r : String} {facts : List Fact} (h : chunk.Pushed later) :
    ChunkStep hub (.ingestFacts r facts) chunk later

namespace MockHubService

/-- Whether a call puts a new chunk, or none, in the place of the one under an id. -/
def Renews (id : String) (op : Op) (hub : MockHubService) : Prop :=
  op = .reset ∨ ∃ spec chunk, op = .seedChunk spec ∧ answer (seedChunk spec) hub = .ok chunk ∧
    chunk.chunkId = id

end MockHubService

inductive Fate (hub : MockHubService) (op : Op) (id : String) :
    Option ChunkState → Option ChunkState → Prop
  | kept (held : Option ChunkState) : Fate hub op id held held
  | moved {chunk later : ChunkState} (filed : chunk.chunkId = id)
      (h : ChunkStep hub op chunk later) :
    Fate hub op id (some chunk) (some later)
  | seeded {spec : ChunkSpec} {projectId : String} (held : Option ChunkState)
      (entry : spec.entry ∈ spec.nodes)
      (renews : hub.Renews id op) : Fate hub op id held (some (spec.seeded id projectId))
  | cleared (held : Option ChunkState) (renews : hub.Renews id op) : Fate hub op id held none

namespace MockHubService

def Moves (hub : MockHubService) (op : Op) (later : MockHubService) : Prop :=
  ∀ id, Fate hub op id (hub.chunks.get? id) (later.chunks.get? id)

def Pushes (hub later : MockHubService) : Prop :=
  Table.Evolves ChunkState.Pushed hub.chunks later.chunks

def Seeds (hub : MockHubService) (answer : Except HubError ChunkState) (later : MockHubService) :
    Prop :=
  match answer with
  | .ok chunk => later.chunks = hub.chunks.put chunk
  | .error _ => later.chunks = hub.chunks

end MockHubService

end BlizzardMock.MockHub
