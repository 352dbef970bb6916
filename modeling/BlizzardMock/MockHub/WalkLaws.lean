import BlizzardMock.MockHub.ClaimLaws
import BlizzardMock.MockHub.MatchingLaws

namespace BlizzardMock.MockHub

open Method

namespace ChunkState

variable {start later : ChunkState} {origin : String}

def Live (chunk : ChunkState) : Prop := chunk.claimed = true ∧ ¬ chunk.Ended

structure Strolled (start : ChunkState) (origin : String) (later : ChunkState) : Prop where
  nodes : later.nodes = start.nodes
  harnesses : later.defaultHarnesses = start.defaultHarnesses
  model : later.defaultModel = start.defaultModel
  place : ∃ nodeId, later.currentNodeId = some nodeId ∧
    (Matching.Reaches start origin nodeId ∨ nodeId = terminal ∧ later.Ended)

theorem Strolled.graph (h : start.Strolled origin later) (nodeId : String) :
    later.node nodeId = start.node nodeId := by
  simp only [node, h.nodes]

theorem Strolled.stays (h : start.Strolled origin later) {next : ChunkState}
    (nodes : next.nodes = later.nodes)
    (harnesses : next.defaultHarnesses = later.defaultHarnesses)
    (model : next.defaultModel = later.defaultModel)
    (current : next.currentNodeId = later.currentNodeId) (ended : later.Ended → next.Ended) :
    start.Strolled origin next where
  nodes := nodes.trans h.nodes
  harnesses := harnesses.trans h.harnesses
  model := model.trans h.model
  place := by
    obtain ⟨nodeId, stands, there⟩ := h.place
    exact ⟨nodeId, current.trans stands, there.imp_right fun at_end => ⟨at_end.1, ended at_end.2⟩⟩

theorem Strolled.served (h : start.Strolled origin later) {node : NodeSpec}
    {capabilities : List RunnerCapability}
    (served : Matching.Served start node capabilities) :
    Matching.Served later node capabilities := by
  have harnesses : Matching.effectiveHarnesses later node =
    Matching.effectiveHarnesses start node := by
    simp only [Matching.effectiveHarnesses, h.harnesses]
  have model : Matching.effectiveModel later node = Matching.effectiveModel start node := by
    simp only [Matching.effectiveModel, h.model]
  rw [Matching.Served, harnesses, model]
  exact served

theorem Strolled.reached (h : start.Strolled origin later) (live : later.Live) :
    ∃ nodeId, later.currentNodeId = some nodeId ∧ Matching.Reaches start origin nodeId := by
  obtain ⟨nodeId, stands, there⟩ := h.place
  exact ⟨nodeId, stands, there.resolve_right fun at_end => live.2 at_end.2⟩

theorem choice_of_resolveChoice {node : NodeSpec} {name target : String}
    (h : resolveChoice node name = some target) : ∃ choice ∈ node.choices, choice.to = target := by
  obtain ⟨choice, found, named⟩ := Option.map_eq_some_iff.mp h
  exact ⟨choice, List.mem_of_find?_eq_some found, named⟩

theorem from_of_coherent {fromNodeId nodeId : String} {epoch : Int} {openIds : List String}
    (stands : later.currentNodeId = some nodeId)
    (coherent : later.incoherentAttempt fromNodeId epoch openIds = none) : fromNodeId = nodeId := by
  by_contra apart
  have elsewhere : (some nodeId).filter (fromNodeId ≠ ·) = some nodeId := by simp [apart]
  simp only [incoherentAttempt, stands] at coherent
  rw [elsewhere] at coherent
  cases coherent

theorem Accepts.choice {openIds : List String} {epoch : Int}
    {fromNodeId choice target nodeId : String}
    (accepts : later.Accepts openIds epoch fromNodeId choice target)
    (stands : later.currentNodeId = some nodeId) :
    ∃ node, later.node nodeId = some node ∧ ∃ choice ∈ node.choices, choice.to = target := by
  obtain ⟨_, coherent, _, resolved⟩ := accepts
  rw [from_of_coherent stands coherent] at resolved
  obtain ⟨node, held, named⟩ := Option.bind_eq_some_iff.mp resolved
  exact ⟨node, held, choice_of_resolveChoice named⟩

theorem Strolled.landed (h : start.Strolled origin later) (live : later.Live)
    {openIds : List String}
    {epoch : Int} {fromNodeId choice target : String} {next : ChunkState} {response : ApplyResponse}
    (accepts : later.Accepts openIds epoch fromNodeId choice target)
    (landing : later.Landing target next response) :
    start.Strolled origin next := by
  obtain ⟨nodeId, stands, reached⟩ := h.reached live
  obtain ⟨node, held, chosen⟩ := accepts.choice stands
  rw [h.graph] at held
  have led : target ≠ terminal → Matching.Reaches start origin target := by
    intro goes
    obtain ⟨choice, mem, named⟩ := chosen
    exact reached.tail ⟨node, held, choice, mem, named, goes⟩
  cases landing with
  | finished => exact ⟨h.nodes, h.harnesses, h.model, terminal, rfl, .inr ⟨rfl, .inl rfl⟩⟩
  | nowhere => exact h
  | hubNode response node goes =>
    exact ⟨h.nodes, h.harnesses, h.model, target, rfl, .inl (led goes)⟩
  | runnerNode response node goes =>
    exact ⟨h.nodes, h.harnesses, h.model, target, rfl, .inl (led goes)⟩

theorem Strolled.paused (h : start.Strolled origin later) (live : later.Live) :
    start.Strolled origin later.paused := by
  simp only [ChunkState.paused]
  split
  · exact h
  · exact h.stays rfl rfl rfl rfl fun ended => absurd ended live.2

theorem named_of_nodeEnvelope [Unicode] {nodeId : String} {epoch : Int} {envelope : NodeEnvelope}
    (built : later.nodeEnvelope nodeId epoch = .ok envelope) : envelope.node.nodeId = nodeId := by
  cases held : later.node nodeId with
  | none => simp [nodeEnvelope, held] at built
  | some node =>
    obtain ⟨made, answered, named⟩ := nodeEnvelope_of_node held epoch
    rw [answered] at built
    cases built
    exact named

theorem not_free_of_live (live : later.Live) : later.refuseClaim ≠ .ok () := by
  intro free
  have unclaimed := (ready_of_refuseClaim free).1
  rw [live.1] at unclaimed
  cases unclaimed

end ChunkState

theorem ChunkStep.strolled [Platform] {hub : MockHubService} {op : Op}
    {start chunk later : ChunkState}
    {origin : String} (step : ChunkStep hub op chunk later) (live : chunk.Live)
    (h : start.Strolled origin chunk) : start.Strolled origin later := by
  have stays := fun {next : ChunkState} (nodes : next.nodes = chunk.nodes) harnesses
    model current =>
    h.stays nodes harnesses model current fun ended => absurd ended live.2
  cases step with
  | claimed free => exact absurd free (ChunkState.not_free_of_live live)
  | paused => exact h.paused live
  | completed takes landing =>
    obtain ⟨nodes, harnesses, model, place⟩ := h.landed live takes.2.2.2 landing
    exact ⟨nodes, harnesses, model, place⟩
  | pushed pushed =>
    rw [pushed.2]
    exact stays rfl rfl rfl rfl
  | _ => exact stays rfl rfl rfl rfl

namespace MockHubService

section

variable {α β : Type} {hub : MockHubService}

theorem answer_bind_of_guards {m : HubM α} {g : α → HubM β} {b : β}
    (guards : hub.Guards (answer m hub) (Method.after m hub)) (h : answer (m >>= g) hub = .ok b) :
    ∃ a, answer m hub = .ok a ∧ answer (g a) hub = .ok b ∧
      Method.after (m >>= g) hub = Method.after (g a) hub := by
  cases answered : answer m hub with
  | error e =>
    rw [answer_bind_of_error _ answered] at h
    cases h
  | ok a =>
    rw [answered] at guards
    rw [answer_bind_of_ok _ answered, guards] at h
    exact ⟨a, rfl, h, by rw [after_bind_of_ok _ answered, guards]⟩

theorem found_of_refuseBrakedRunner {r : String} {row : RunnerRow} {found : Option RunnerRow}
    (h : refuseBrakedRunner found r = .ok row) : found = some row := by
  cases found with
  | none => cases h
  | some known =>
    simp only [refuseBrakedRunner] at h
    split at h
    · cases h
    split at h
    · cases h
    · exact congrArg some (Except.ok.inj h)

variable [Platform]

theorem eligible_of_refuseClaimant {chunk : ChunkState} {c r : String}
    (h : answer (refuseClaimant chunk c r) hub = .ok ()) :
    ∃ row, hub.store.runners.get? r = some row ∧
      Matching.capabilityIneligible chunk chunk.currentOrEntry row.capabilities = false := by
  simp only [refuseClaimant] at h
  obtain ⟨found, looked, h, _⟩ := answer_bind_of_guards guards_of_keeps h
  obtain ⟨row, braked, h, _⟩ := answer_bind_of_guards guards_of_keeps h
  obtain ⟨_, _, h, _⟩ := answer_bind_of_guards guards_of_keeps h
  obtain ⟨armed, read, h, _⟩ := answer_bind_of_guards guards_of_keeps h
  cases read
  obtain ⟨_, _, h, _⟩ := answer_bind_of_guards (guards_lever fun armed held => held) h
  obtain ⟨_, _, h, _⟩ := answer_bind_of_guards guards_of_keeps h
  obtain ⟨_, _, h, _⟩ := answer_bind_of_guards guards_of_keeps h
  rw [answer_settle] at braked
  have there : hub.store.runners.get? r = found := Except.ok.inj looked
  refine ⟨row, there.trans (found_of_refuseBrakedRunner braked), ?_⟩
  exact Bool.eq_false_iff.mpr (refuseIf_ok.mp h)

theorem entered_of_claim {c r w : String} {es : List String} {grant : RouteClaimResponse}
    (h : answer (claim c r w es) hub = .ok grant) :
    ∃ row chunk token, hub.store.runners.get? r = some row ∧ hub.chunks.get? c = some chunk ∧
      chunk.refuseClaim = .ok () ∧
      Matching.capabilityIneligible chunk chunk.currentOrEntry row.capabilities = false ∧
      grant.envelope.node.nodeId = chunk.currentOrEntry ∧
      (hub.next (.claim c r w es)).chunks = hub.chunks.put
        (chunk.claimedBy r w es chunk.currentOrEntry token) := by
  change ∃ row chunk token, _ ∧ _ ∧ _ ∧ _ ∧ _ ∧ (Method.after (claim c r w es) hub).chunks = _
  simp only [claim] at h ⊢
  obtain ⟨chunk, required, h, left⟩ := answer_bind_of_guards guards_of_keeps h
  rw [left]
  obtain ⟨_, _, h, left⟩ := answer_bind_of_guards (guards_checkPinnedGraph c) h
  rw [left]
  obtain ⟨_, _, h, left⟩ := answer_bind_of_guards (guards_refuseRetiredRunner r _) h
  rw [left]
  obtain ⟨_, _, h, left⟩ := answer_bind_of_guards (guards_refuseByClaimLever _ c r _) h
  rw [left]
  obtain ⟨_, _, h, left⟩ := answer_bind_of_guards (guards_refuseByClaimLever _ c r _) h
  rw [left]
  obtain ⟨_, allowed, h, left⟩ := answer_bind_of_guards (guards_refuseClaimant chunk c r) h
  rw [left]
  obtain ⟨row, there, eligible⟩ := eligible_of_refuseClaimant allowed
  refine ⟨row, chunk, claimToken chunk c, there, found_of_require rfl required,
    free_of_refuseClaimant allowed, eligible, ?_⟩
  obtain ⟨_, _, h⟩ := answer_bind_ok h
  obtain ⟨envelope, built, h⟩ := answer_bind_ok h
  rw [answer_settle] at built
  cases h
  constructor
  · exact ChunkState.named_of_nodeEnvelope built
  · rw [built]
    rfl

/-- The chunk under an id is claimed, and past no end. -/
def HoldsLive (id : String) (hub : MockHubService) : Prop :=
  ∃ chunk, hub.chunks.get? id = some chunk ∧ chunk.Live

def Strolls (id : String) (start : ChunkState) (origin : String) (hub : MockHubService) : Prop :=
  ∃ later, hub.chunks.get? id = some later ∧ start.Strolled origin later

theorem strolls_next {id origin : String} {start : ChunkState} {op : Op}
    (strolls : hub.Strolls id start origin)
    (kept : ¬ Renews id op hub) (live : hub.HoldsLive id) :
    (hub.next op).Strolls id start origin := by
  obtain ⟨chunk, held, strolled⟩ := strolls
  obtain ⟨same, again, live⟩ := live
  rw [held] at again
  cases again
  have fate := next_moves op hub id
  rw [held] at fate
  generalize moved : (hub.next op).chunks.get? id = new at fate
  cases fate with
  | kept => exact ⟨chunk, moved, strolled⟩
  | moved filed step => exact ⟨_, moved, step.strolled live strolled⟩
  | seeded _ _ renews => exact absurd renews kept
  | cleared _ renews => exact absurd renews kept

theorem strolls_after {id origin : String} {start : ChunkState} {ops : List Op}
    (strolls : hub.Strolls id start origin)
    (run : Meets (fun op hub => ¬ Renews id op hub ∧ hub.HoldsLive id) ops hub) :
    (after ops hub).Strolls id start origin :=
  Machine.invariant (I := Strolls id start origin) (fun _ _ strolls met =>
    strolls_next strolls met.1 met.2)
    run strolls

/-- From a claim on, for as long as the chunk is held and past no end, it walks the choices of its
graph from the node its claimer was handed; wherever it stands, the capabilities its claimer had
registered serve the session of a runner's node. -/
theorem granted_served {c r w : String} {es : List String} {grant : RouteClaimResponse}
    (granted : answer (claim c r w es) hub = .ok grant) {ops : List Op}
    (run : Meets (fun op hub => ¬ Renews c op hub ∧ hub.HoldsLive c) ops
      (hub.next (.claim c r w es))) :
    ∃ row chunk later nodeId, hub.store.runners.get? r = some row ∧ hub.chunks.get? c = some chunk ∧
      (after ops (hub.next (.claim c r w es))).chunks.get? c = some later ∧
      later.currentNodeId = some nodeId ∧
      (nodeId = terminal ∧ later.Ended ∨
        Matching.Reaches chunk grant.envelope.node.nodeId nodeId ∧
          ∀ node, later.node nodeId = some node → node.executor = .runner →
            Matching.Served later node row.capabilities) := by
  obtain ⟨row, chunk, token, there, held, _, eligible, handed, entered⟩ := entered_of_claim granted
  have filed : chunk.chunkId = c := Table.key_of_get? held
  have started : (hub.next (.claim c r w es)).Strolls c chunk chunk.currentOrEntry := by
    refine ⟨chunk.claimedBy r w es chunk.currentOrEntry token, ?_, rfl, rfl, rfl, _,
      rfl, .inl .refl⟩
    rw [entered, ← filed]
    exact Table.get?_put_self _ _
  obtain ⟨later, stays, strolled⟩ := strolls_after started run
  obtain ⟨nodeId, stands, place⟩ := strolled.place
  rw [handed]
  refine ⟨row, chunk, later, nodeId, there, held, stays, stands, ?_⟩
  cases place with
  | inr at_end => exact .inl at_end
  | inl reached =>
    refine .inr ⟨reached, fun node found runner => strolled.served ?_⟩
    rw [strolled.graph] at found
    by_contra unserved
    refine Bool.eq_false_iff.mp eligible (Matching.capabilityIneligible_iff.mpr (.inr ?_))
    exact ⟨nodeId, node, reached, found, runner, unserved⟩

end

end MockHubService

section

attribute [local instance] Platform.plain

open MockHubService

def sonnet : RunnerCapability := { harnessId := "claude", tiers := ["sonnet"] }

def twoSteps : MockHubService :=
  let build : NodeSpec :=
    { choices := [{ name := "go", «to» := "review" }], sessionHarnesses := ["claude"] }
  let review : NodeSpec :=
    { choices := [{ name := "again", «to» := "build" }, { name := "end", «to» := terminal }]
      sessionHarnesses := ["codex", "claude"]
      sessionModel := ["sonnet"] }
  after [.registry (.addRunner "ann" firstTenantId (some "r") (some "t") none none),
    .registry (.register "r" { workspaceId := "w", capabilities := [sonnet] }),
    .seedChunk { chunkId := some "c", entry := "build",
                 nodes := .ofList [("build", build), ("review", review)] }]
    (fresh .still)

theorem granted_served_review : ∃ row chunk later nodeId,
      twoSteps.store.runners.get? "r" = some row ∧
    twoSteps.chunks.get? "c" = some chunk ∧
    (after [.applyCompletion "c" 0 "build" "go", .pauseChunk "c"]
      (twoSteps.next (.claim "c" "r" "w" []))).chunks.get? "c" = some later ∧
    later.currentNodeId = some nodeId ∧
    (nodeId = terminal ∧ later.Ended ∨ Matching.Reaches chunk "build" nodeId ∧
      ∀ node, later.node nodeId = some node → node.executor = .runner →
        Matching.Served later node row.capabilities) := by
  have granted : answer (claim "c" "r" "w" []) twoSteps = .ok _ := rfl
  refine granted_served granted
    ⟨⟨not_renews trivial, _, by rfl, ?_⟩, ⟨not_renews trivial, _, by rfl, ?_⟩, trivial⟩
  all_goals exact ⟨by rfl, by decide⟩

end

end BlizzardMock.MockHub
