import BlizzardMock.MockHub.FateLaws

namespace BlizzardMock.MockHub

open Method

namespace ChunkState

def Settled (chunk : ChunkState) : Prop :=
  chunk.status = .done ∨ chunk.status = .stopped ∨ chunk.status = .needsHuman

/-- The entry is a node of the graph, and so is the current node; only a settled chunk may stand
on the reserved terminal id. -/
structure Placed (chunk : ChunkState) : Prop where
  entry : chunk.entry ∈ chunk.nodes
  current : ∀ nodeId, chunk.currentNodeId = some nodeId →
    nodeId ∈ chunk.nodes ∨ nodeId = terminal ∧ chunk.Settled

variable {chunk : ChunkState}

theorem node_mem {nodeId : String} {node : NodeSpec} (h : chunk.node nodeId = some node) :
    nodeId ∈ chunk.nodes :=
  Dict.mem_iff.mpr ⟨node, h⟩

theorem Placed.of_settled (h : chunk.Placed) {later : ChunkState}
    (nodes : later.nodes = chunk.nodes)
    (entry : later.entry = chunk.entry) (current : later.currentNodeId = chunk.currentNodeId)
    (settled : chunk.Settled → later.Settled) : later.Placed := by
  constructor
  · rw [nodes, entry]
    exact h.entry
  · intro nodeId hn
    rw [current] at hn
    rw [nodes]
    exact (h.current nodeId hn).imp_right fun at_end => ⟨at_end.1, settled at_end.2⟩

theorem Placed.moved (h : chunk.Placed) {later : ChunkState} {nodeId : String}
    (nodes : later.nodes = chunk.nodes) (entry : later.entry = chunk.entry)
    (current : later.currentNodeId = some nodeId) (mem : nodeId ∈ chunk.nodes) : later.Placed := by
  constructor
  · rw [nodes, entry]
    exact h.entry
  · intro other hn
    rw [current] at hn
    cases hn
    rw [nodes]
    exact .inl mem

theorem ready_of_refuseClaim (h : chunk.refuseClaim = .ok ()) :
    chunk.claimed = false ∧ chunk.status = .ready := by
  simp only [refuseClaim] at h
  split at h
  · cases h
  split at h
  · cases h
  case isFalse unclaimed =>
    split at h
    · cases h
    case isFalse ready => exact ⟨Bool.eq_false_iff.mpr unclaimed, not_not.mp ready⟩

theorem running_of_refuseRelease {r : String} {e : Int} (h : chunk.refuseRelease r e = .ok ()) :
    chunk.status = .running := by
  simp only [refuseRelease] at h
  split at h
  · cases h
  split at h
  · cases h
  split at h
  · cases h
  case isFalse running => exact not_not.mp running

theorem Placed.currentOrEntry_mem (h : chunk.Placed) (open' : ¬ chunk.Settled) :
    chunk.currentOrEntry ∈ chunk.nodes := by
  simp only [currentOrEntry]
  cases current : chunk.currentNodeId with
  | none => exact h.entry
  | some nodeId =>
    dsimp only
    split
    · exact h.entry
    · exact (h.current nodeId current).resolve_right fun at_end => open' at_end.2

theorem placed_seeded {spec : ChunkSpec} {id projectId : String} (entry : spec.entry ∈ spec.nodes) :
    (spec.seeded id projectId).Placed := by
  constructor
  · exact entry
  · intro nodeId hn
    cases hn

theorem not_running_of_settled (h : chunk.Settled) : chunk.status ≠ .running := by
  intro running
  simp [Settled, running] at h

theorem not_paused_of_settled (h : chunk.Settled) : chunk.status ≠ .paused := by
  intro paused
  simp [Settled, paused] at h

theorem statusIfPaused_of_settled (h : chunk.Settled) :
    statusIfPaused chunk.status = chunk.status := by
  simp only [statusIfPaused, ChunkStatus.Pausable, ChunkStatus.Terminal]
  cases h with
  | inl done => simp [done]
  | inr rest =>
    cases rest with
    | inl stopped => simp [stopped]
    | inr human => simp [human]

theorem Placed.paused (h : chunk.Placed) : chunk.paused.Placed := by
  simp only [ChunkState.paused]
  split
  · exact h
  · refine h.of_settled rfl rfl rfl fun settled => ?_
    simp only [Settled]
    rw [statusIfPaused_of_settled settled]
    exact settled

theorem Placed.resumed (h : chunk.Placed) : chunk.resumed.Placed := by
  refine h.of_settled rfl rfl rfl fun settled => ?_
  rw [Settled, ChunkState.resumed]
  dsimp only
  rw [if_neg (not_paused_of_settled settled)]
  exact settled

theorem not_settled_of_ready (h : chunk.status = .ready) : ¬ chunk.Settled := by
  simp [Settled, h]

end ChunkState

theorem ChunkStep.placed {hub : MockHubService} {op : Op} {chunk later : ChunkState}
    (step : ChunkStep hub op chunk later) (h : chunk.Placed) : later.Placed := by
  cases step with
  | claimed free =>
    have ready := (ChunkState.ready_of_refuseClaim free).2
    exact h.moved rfl rfl rfl (h.currentOrEntry_mem (ChunkState.not_settled_of_ready ready))
  | rekeyed => exact h.of_settled rfl rfl rfl fun settled => settled
  | released allowed =>
    refine h.of_settled rfl rfl rfl fun settled => ?_
    simp [ChunkState.Settled, ChunkState.running_of_refuseRelease allowed] at settled
  | paused => exact h.paused
  | resumed => exact h.resumed
  | completed takes landing =>
    cases landing with
    | finished => exact ⟨h.entry, fun nodeId hn => .inr ⟨(Option.some.inj hn).symm, .inl rfl⟩⟩
    | nowhere => exact h.of_settled rfl rfl rfl fun settled => settled
    | hubNode response node _ held => exact h.moved rfl rfl rfl (ChunkState.node_mem held)
    | runnerNode response node _ held => exact h.moved rfl rfl rfl (ChunkState.node_mem held)
  | decided => exact h.of_settled rfl rfl rfl fun _ => .inr (.inr rfl)
  | advanced => exact h.of_settled rfl rfl rfl fun _ => .inl rfl
  | stopped => exact h.of_settled rfl rfl rfl fun _ => .inr (.inl rfl)
  | unrouted =>
    refine h.of_settled rfl rfl rfl fun settled => ?_
    rw [ChunkState.Settled, ChunkState.unrouted]
    dsimp only
    rw [if_neg (ChunkState.not_running_of_settled settled)]
    exact settled
  | pushed pushed =>
    rw [pushed.2]
    exact h.of_settled rfl rfl rfl fun settled => settled

theorem reachable_placed [Platform] {hub : MockHubService} (h : hub.Reachable) :
    hub.AllChunks ChunkState.Placed :=
  MockHubService.reachable_allChunks (fun _ _ _ => ChunkState.placed_seeded)
    (fun _ _ _ _ step => step.placed) h

end BlizzardMock.MockHub
