import BlizzardMock.MockHub.PlaceLaws

namespace BlizzardMock.MockHub

open Method

namespace MockHubService

/-- One armed lever may have been spent, and nothing else was written. -/
def Spends (hub later : MockHubService) : Prop :=
  later = hub ∨ ∃ kind chunkId armed, lever hub.levers kind chunkId = some armed ∧
    later = { hub with levers := hub.levers.consume armed }

/-- A guard leaves the hub as it is where it lets a call through, and spends one lever at most where
it refuses it. -/
def Guards {α : Type} (hub : MockHubService) (answer : Except HubError α) (later : MockHubService) :
    Prop :=
  match answer with
  | .ok _ => later = hub
  | .error _ => hub.Spends later

def Declines {α : Type} (hub : MockHubService) (answer : Except HubError α)
    (later : MockHubService) :
    Prop :=
  ∀ e, answer = .error e → hub.Spends later

section Guards

variable {α β : Type} {hub : MockHubService}

theorem guards_of_keeps {m : HubM α} [h : Keeps id m] :
    hub.Guards (answer m hub) (Method.after m hub) := by
  have same : Method.after m hub = hub := h.keeps hub
  rw [same]
  cases answer m hub with
  | ok a => rfl
  | error e => exact .inl rfl

theorem guards_bind {m : HubM α} {g : α → HubM β}
    (first : hub.Guards (answer m hub) (Method.after m hub))
    (rest : ∀ a, answer m hub = .ok a → hub.Guards (answer (g a) hub) (Method.after (g a) hub)) :
    hub.Guards (answer (m >>= g) hub) (Method.after (m >>= g) hub) := by
  apply outcome_bind (P := hub.Guards)
  · intro e raised
    rw [raised] at first
    exact first
  · intro a answered
    have same : Method.after m hub = hub := by rwa [answered] at first
    rw [same]
    exact rest a answered

theorem declines_bind {m : HubM α} {g : α → HubM β}
    (first : hub.Guards (answer m hub) (Method.after m hub))
    (rest : ∀ a, answer m hub = .ok a → hub.Declines (answer (g a) hub) (Method.after (g a) hub)) :
    hub.Declines (answer (m >>= g) hub) (Method.after (m >>= g) hub) := by
  apply outcome_bind (P := hub.Declines)
  · intro e raised _ _
    rw [raised] at first
    exact first
  · intro a answered
    have same : Method.after m hub = hub := by rwa [answered] at first
    rw [same]
    exact rest a answered

theorem guards_lever {kind : HubLever} {chunkId : Option String} {found : Option Lever}
    {e : Lever → HubError}
    (held : ∀ armed, found = some armed → lever hub.levers kind chunkId = some armed) :
    let refuse : HubM Unit := whenSome (fun armed => do
      consumeLever armed
      raise (e armed)) found
    hub.Guards (answer refuse hub) (Method.after refuse hub) := by
  cases found with
  | none => rfl
  | some armed => exact .inr ⟨kind, chunkId, armed, held armed rfl, rfl⟩

theorem guards_checkPinnedGraph (c : String) :
    hub.Guards (answer (checkPinnedGraph c) hub) (Method.after (checkPinnedGraph c) hub) := by
  simp only [checkPinnedGraph]
  apply guards_bind guards_of_keeps
  intro found answered
  cases answered
  apply guards_lever
  intro armed held
  exact held

theorem guards_refuseByClaimLever (kind : HubLever) (c r detail : String) :
    hub.Guards (answer (refuseByClaimLever kind c r detail) hub)
      (Method.after (refuseByClaimLever kind c r detail) hub) := by
  simp only [refuseByClaimLever]
  apply guards_bind guards_of_keeps
  intro found answered
  cases answered
  apply guards_lever
  intro armed held
  exact (Option.filter_eq_some_iff.mp held).1

theorem guards_refuseRetiredRunner (r action : String) :
    hub.Guards (answer (refuseRetiredRunner r action) hub)
      (Method.after (refuseRetiredRunner r action) hub) := by
  simp only [refuseRetiredRunner]
  exact guards_of_keeps

variable [Platform]

theorem guards_refuseClaimant (chunk : ChunkState) (c r : String) :
    hub.Guards (answer (refuseClaimant chunk c r) hub)
      (Method.after (refuseClaimant chunk c r) hub) := by
  simp only [refuseClaimant]
  apply guards_bind guards_of_keeps
  intro row _
  apply guards_bind guards_of_keeps
  intro registration _
  apply guards_bind guards_of_keeps
  intro _ _
  apply guards_bind guards_of_keeps
  intro found answered
  cases answered
  apply guards_bind (guards_lever fun armed held => held)
  intro _ _
  exact guards_of_keeps

end Guards

end MockHubService

namespace ChunkState

variable [Unicode] {chunk : ChunkState}

theorem nodeEnvelope_of_mem {nodeId : String} (mem : nodeId ∈ chunk.nodes) (e : Int) :
    ∃ envelope, chunk.nodeEnvelope nodeId e = .ok envelope := by
  obtain ⟨node, held⟩ := Dict.mem_iff.mp mem
  obtain ⟨envelope, answered, _⟩ := nodeEnvelope_of_node held e
  exact ⟨envelope, answered⟩

omit [Unicode] in
theorem Placed.current_of_ready (placed : chunk.Placed) (free : chunk.refuseClaim = .ok ()) :
    ∀ nodeId, chunk.currentNodeId = some nodeId → nodeId ∈ chunk.nodes := by
  intro nodeId current
  have ready := (ready_of_refuseClaim free).2
  exact (placed.current nodeId current).resolve_right fun at_end =>
    not_settled_of_ready ready at_end.2

theorem Placed.claim_envelope (placed : chunk.Placed) (free : chunk.refuseClaim = .ok ()) :
    ∃ envelope, chunk.nodeEnvelope chunk.currentOrEntry chunk.latestEpoch = .ok envelope := by
  have ready := (ready_of_refuseClaim free).2
  exact nodeEnvelope_of_mem (placed.currentOrEntry_mem (not_settled_of_ready ready)) _

end ChunkState

namespace MockHubService

variable [Platform] {hub : MockHubService}

theorem claim_declines (placed : hub.AllChunks ChunkState.Placed) (c r w : String)
    (es : List String) :
    hub.Declines (answer (claim c r w es) hub) (Method.after (claim c r w es) hub) := by
  simp only [claim]
  apply declines_bind guards_of_keeps
  intro chunk found
  have held := found_of_require rfl found
  apply declines_bind (guards_checkPinnedGraph c)
  intro _ _
  apply declines_bind (guards_refuseRetiredRunner r "claim")
  intro _ _
  apply declines_bind (guards_refuseByClaimLever _ c r _)
  intro _ _
  apply declines_bind (guards_refuseByClaimLever _ c r _)
  intro _ _
  apply declines_bind (guards_refuseClaimant chunk c r)
  intro _ allowed
  obtain ⟨envelope, built⟩ := (placed c chunk held).claim_envelope (free_of_refuseClaimant allowed)
  rw [built]
  intro e raised
  cases raised

/-- A claim that raises leaves every row as it was: the envelope it builds once the route is written
is never missing its node. -/
theorem refused_claim_writes_nothing (reachable : hub.Reachable) (c r w : String)
    (es : List String) :
    (∀ e, answer (claim c r w es) hub = .error e → hub.Spends (hub.next (.claim c r w es))) ∧
      ∀ chunk, hub.chunks.get? c = some chunk → chunk.refuseClaim = .ok () →
        (∀ nodeId, chunk.currentNodeId = some nodeId → nodeId ∈ chunk.nodes) ∧
          ∃ envelope, chunk.nodeEnvelope chunk.currentOrEntry chunk.latestEpoch = .ok envelope := by
  have placed := reachable_placed reachable
  constructor
  · intro e raised
    exact claim_declines placed c r w es e raised
  · intro chunk held free
    exact ⟨(placed c chunk held).current_of_ready free, (placed c chunk held).claim_envelope free⟩

end MockHubService

section

attribute [local instance] Platform.plain

open MockHubService

def blockedOnce : MockHubService :=
  after [.registry (.addRunner "ann" firstTenantId (some "r") (some "t") none none),
    .registry (.register "r" {
      workspaceId := "w", capabilities := [{ harnessId := "h", default := true }] }),
    .seedChunk { chunkId := some "c", entry := "build", nodes := .ofList [("build", {})] },
    .lever (.arm .dependencyUnmet (some "c") (some 1) [])] (fresh .still)

theorem blocked_claim_writes_nothing :
    (∃ e, answer (claim "c" "r" "w" []) blockedOnce = .error e) ∧
      blockedOnce.Spends (blockedOnce.next (.claim "c" "r" "w" [])) ∧
      (∃ envelope, answer (claim "c" "r" "w" []) (blockedOnce.next (.claim "c" "r" "w" [])) =
        .ok envelope) := by
  have reachable : blockedOnce.Reachable := reachable_run _ _
  have refused := (refused_claim_writes_nothing reachable "c" "r" "w" []).1
  exact ⟨⟨_, rfl⟩, refused _ rfl, ⟨_, rfl⟩⟩

end

end BlizzardMock.MockHub
