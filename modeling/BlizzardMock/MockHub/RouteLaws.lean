import BlizzardMock.MockHub.PlaceLaws

namespace BlizzardMock.MockHub

open Method

/-- The route of a chunk last claimed by `claimer`: a running chunk is claimed, and a claimed one
names its last claimer. -/
structure ChunkState.Routed (chunk : ChunkState) (claimer : Option String) : Prop where
  live : chunk.status = .running → chunk.claimed = true
  holder : chunk.claimed = true → ∃ r, chunk.routeRunnerId = some r ∧ claimer = some r

namespace MockHubService

variable [Platform]

def claimerAfter (id : String) (op : Op) (hub : MockHubService) (claimer : Option String) :
    Option String :=
  match op with
  | .claim c r w es => if c = id ∧ (answer (claim c r w es) hub).isOk then some r else claimer
  | _ => claimer

def lastClaimer (id : String) : List Op → MockHubService → Option String → Option String
  | [], _, claimer => claimer
  | op :: ops, hub, claimer => lastClaimer id ops (hub.next op) (claimerAfter id op hub claimer)

/-- No call sets a chunk running that nobody holds: no completion steps an unclaimed chunk to a
runner node, and none paused while it ran is resumed without its route. -/
def KeepsRoutes (op : Op) (hub : MockHubService) : Prop :=
  match op with
  | .applyCompletion c e n choice => ∀ chunk target node, hub.chunks.get? c = some chunk →
      hub.TakesCompletion chunk e n choice target → target ≠ terminal →
      chunk.node target = some node → node.executor ≠ .hub → chunk.claimed = true
  | .resumeChunk c => ∀ chunk, hub.chunks.get? c = some chunk → chunk.status = .paused →
      chunk.statusBeforePause = some .running → chunk.claimed = true
  | _ => True

end MockHubService

def Claims (hub : MockHubService) (c r w : String) (es : List String)
    (answer : Except HubError RouteClaimResponse) (later : MockHubService) : Prop :=
  match answer with
  | .ok _ => ∃ chunk token, hub.chunks.get? c = some chunk ∧ chunk.refuseClaim = .ok () ∧
      later.chunks = hub.chunks.put (chunk.claimedBy r w es chunk.currentOrEntry token)
  | .error _ => later.chunks = hub.chunks

namespace MockHubService

section Claims

variable {hub : MockHubService} {c r w : String} {es : List String}

theorem claims_bind {α : Type} {m : HubM α} {g : α → HubM RouteClaimResponse} [Keeps work m]
    {s : MockHubService} (same : s.work = hub.work)
    (next : ∀ a t, answer m s = .ok a → t.work = hub.work →
      Claims hub c r w es (answer (g a) t) (Method.after (g a) t)) :
    Claims hub c r w es (answer (m >>= g) s) (Method.after (m >>= g) s) :=
  outcome_bind_of_keeps (P := Claims hub c r w es) same (fun _ _ h => chunks_of_work h) next

variable [Platform]

theorem claim_claims (placed : hub.AllChunks ChunkState.Placed) (c r w : String)
    (es : List String) :
    Claims hub c r w es (answer (claim c r w es) hub) (Method.after (claim c r w es) hub) := by
  simp only [claim]
  apply claims_bind rfl
  intro chunk t found same
  have held := found_of_require rfl found
  apply claims_bind same
  intro _ t _ same
  apply claims_bind same
  intro _ t _ same
  apply claims_bind same
  intro _ t _ same
  apply claims_bind same
  intro _ t _ same
  apply claims_bind same
  intro _ t allowed same
  have free := free_of_refuseClaimant allowed
  have open' := ChunkState.not_settled_of_ready (ChunkState.ready_of_refuseClaim free).2
  obtain ⟨node, hnode⟩ := Dict.mem_iff.mp ((placed c chunk held).currentOrEntry_mem open')
  obtain ⟨envelope, hok, _⟩ := ChunkState.nodeEnvelope_of_node hnode chunk.latestEpoch
  rw [hok]
  exact ⟨chunk, _, held, free, chunks_put same _⟩

end Claims

end MockHubService

theorem running_of_statusIfPaused {status : ChunkStatus} (h : statusIfPaused status = .running) :
    status = .running := by
  cases status <;> revert h <;> decide

namespace ChunkState.Routed

variable {chunk : ChunkState} {claimer : Option String}

theorem of_unclaimed (claimed : chunk.claimed = false) (status : chunk.status ≠ .running) :
    chunk.Routed claimer :=
  ⟨fun running => absurd running status, fun h => by rw [claimed] at h; cases h⟩

theorem same_route (h : chunk.Routed claimer) {later : ChunkState}
    (claimed : later.claimed = chunk.claimed) (holder : later.routeRunnerId = chunk.routeRunnerId)
    (live : later.status = .running → chunk.status = .running ∨ chunk.claimed = true) :
    later.Routed claimer := by
  constructor
  · intro running
    rw [claimed]
    exact (live running).elim h.live id
  · rw [claimed, holder]
    exact h.holder

theorem paused (h : chunk.Routed claimer) : chunk.paused.Routed claimer := by
  simp only [ChunkState.paused]
  split
  · exact h
  · exact h.same_route rfl rfl fun running => .inl (running_of_statusIfPaused running)

theorem resumed (h : chunk.Routed claimer)
    (live : chunk.status = .paused → chunk.statusBeforePause = some .running →
      chunk.claimed = true) :
    chunk.resumed.Routed claimer := by
  refine h.same_route rfl rfl fun running => ?_
  rw [ChunkState.resumed] at running
  dsimp only at running
  split at running
  case isTrue paused =>
    apply Or.inr
    apply live paused
    cases before : chunk.statusBeforePause with
    | none => rw [before] at running; cases running
    | some status => rw [before] at running; exact congrArg some running
  case isFalse => exact .inl running

end ChunkState.Routed

theorem ChunkStep.routed {hub : MockHubService} {op : Op} {chunk later : ChunkState}
    {claimer : Option String} (step : ChunkStep hub op chunk later)
    (held : hub.chunks.get? chunk.chunkId = some chunk) (keeps : hub.KeepsRoutes op)
    (other : ∀ c r w es, op ≠ .claim c r w es) (h : chunk.Routed claimer) :
    later.Routed claimer := by
  cases step with
  | claimed => exact absurd rfl (other _ _ _ _)
  | rekeyed => exact h.same_route rfl rfl .inl
  | released => exact .of_unclaimed rfl (by intro running; cases running)
  | paused => exact h.paused
  | resumed => exact h.resumed (keeps chunk held)
  | completed takes landing =>
    cases landing with
    | finished => exact h.same_route rfl rfl (by intro running; cases running)
    | nowhere => exact h.same_route rfl rfl .inl
    | hubNode => exact h.same_route rfl rfl (by intro running; cases running)
    | runnerNode response node off held' runs =>
      have claimed := keeps chunk _ node held takes off held' runs
      exact h.same_route rfl rfl fun _ => .inr claimed
  | decided => exact h.same_route rfl rfl (by intro running; cases running)
  | advanced => exact h.same_route rfl rfl (by intro running; cases running)
  | stopped => exact .of_unclaimed rfl (by intro running; cases running)
  | unrouted =>
    apply ChunkState.Routed.of_unclaimed rfl
    simp only [ChunkState.unrouted]
    split
    · intro running
      cases running
    · assumption
  | pushed pushed =>
    rw [pushed.2]
    exact h.same_route rfl rfl .inl

namespace MockHubService

def AllRouted (hub : MockHubService) (claimers : String → Option String) : Prop :=
  ∀ id chunk, hub.chunks.get? id = some chunk → chunk.Routed (claimers id)

theorem allRouted_fresh (sources : Sources) : (fresh sources).AllRouted fun _ => none := by
  intro id chunk found
  cases found

variable [Platform]

theorem next_routed {op : Op} {hub : MockHubService} {claimers : String → Option String}
    (other : ∀ c r w es, op ≠ .claim c r w es) (keeps : KeepsRoutes op hub)
    (h : hub.AllRouted claimers) {id : String} {later : ChunkState}
    (found : (hub.next op).chunks.get? id = some later) : later.Routed (claimers id) := by
  have fate := next_moves op hub id
  rw [found] at fate
  generalize held : hub.chunks.get? id = old at fate
  cases fate with
  | kept => exact h id later held
  | moved filed step =>
    rw [← filed] at held
    have routed := h _ _ held
    rw [filed] at routed
    exact step.routed held keeps other routed
  | @seeded spec => exact .of_unclaimed rfl spec.routeless

theorem next_allRouted {op : Op} {hub : MockHubService} {claimers : String → Option String}
    (placed : hub.AllChunks ChunkState.Placed) (keeps : KeepsRoutes op hub)
    (h : hub.AllRouted claimers) :
    (hub.next op).AllRouted fun id => claimerAfter id op hub (claimers id) := by
  intro id later found
  cases op with
  | claim c r w es =>
    have claims := claim_claims placed c r w es
    change (Method.after (claim c r w es) hub).chunks.get? id = some later at found
    unfold claimerAfter
    dsimp only
    generalize answer (claim c r w es) hub = outcome at claims
    cases outcome with
    | error e =>
      rw [claims] at found
      rw [if_neg fun both => Bool.false_ne_true both.2]
      exact h id later found
    | ok response =>
      obtain ⟨chunk, token, held, free, hput⟩ := claims
      rw [hput, Table.get?_put] at found
      split at found
      case isTrue filed =>
        cases found
        rw [if_pos ⟨(Table.key_of_get? held).symm.trans filed.symm, rfl⟩]
        exact ⟨fun _ => rfl, fun _ => ⟨r, rfl, rfl⟩⟩
      case isFalse filed =>
        rw [if_neg fun both => filed (both.1.symm.trans (Table.key_of_get? held).symm)]
        exact h id later found
  | _ =>
    refine next_routed (fun _ _ _ _ same => ?_) keeps h found
    cases same

theorem next_placed {op : Op} {hub : MockHubService} (h : hub.AllChunks ChunkState.Placed) :
    (hub.next op).AllChunks ChunkState.Placed :=
  next_allChunks (fun _ _ _ => ChunkState.placed_seeded) (fun _ _ _ step => step.placed) h

theorem run_allRouted {ops : List Op} {hub : MockHubService} {claimers : String → Option String}
    (run : Meets KeepsRoutes ops hub) (placed : hub.AllChunks ChunkState.Placed)
    (h : hub.AllRouted claimers) :
    (after ops hub).AllRouted fun id => lastClaimer id ops hub (claimers id) := by
  induction ops generalizing hub claimers with
  | nil => exact h
  | cons op ops ih => exact ih run.2 (next_placed placed) (next_allRouted placed run.1 h)

theorem running_holds_route {sources : Sources} {ops : List Op}
    (run : Meets KeepsRoutes ops (fresh sources)) {id : String} {chunk : ChunkState}
    (held : (after ops (fresh sources)).chunks.get? id = some chunk)
    (running : chunk.status = .running) :
    chunk.claimed = true ∧ ∃ r, chunk.routeRunnerId = some r ∧
      lastClaimer id ops (fresh sources) none = some r := by
  have routed := run_allRouted run (allChunks_fresh sources) (allRouted_fresh sources) id chunk held
  exact ⟨routed.live running, routed.holder (routed.live running)⟩

end MockHubService

section

attribute [local instance] Platform.plain

open MockHubService

def twoRunnerNodes : ChunkSpec where
  chunkId := some "c"
  entry := "build"
  nodes := .ofList [("build", { choices := [{ name := "go", «to» := "review" }] }),
    ("review", { choices := [{ name := "back", «to» := "build" }] })]

theorem completion_runs_unclaimed :
    let hub := after [.seedChunk twoRunnerNodes, .applyCompletion "c" 1 "build" "go"] (fresh .still)
    (hub.chunks.get? "c").any (fun chunk => chunk.status = .running ∧ ¬ chunk.claimed ∧
      chunk.routeRunnerId = none) := by
  rfl

def claimedThenBuilt : List Op :=
  [.registry (.addRunner "ann" firstTenantId (some "r") (some "t") none none),
    .registry (.register "r" {
      workspaceId := "w", capabilities := [{ harnessId := "h", default := true }] }),
    .seedChunk twoRunnerNodes,
    .claim "c" "r" "w" [], .applyCompletion "c" 1 "build" "go"]

theorem running_holds_route_claimed :
    ∃ chunk, (after claimedThenBuilt (fresh .still)).chunks.get? "c" = some chunk ∧
      chunk.claimed = true ∧ ∃ r, chunk.routeRunnerId = some r ∧
        lastClaimer "c" claimedThenBuilt (fresh .still) none = some r := by
  have run : Meets KeepsRoutes claimedThenBuilt (fresh .still) := by
    refine ⟨trivial, trivial, trivial, trivial, ?_, trivial⟩
    intro chunk target node held _ _ _ _
    cases held
    rfl
  have held : (after claimedThenBuilt (fresh .still)).chunks.get? "c" = some _ := rfl
  exact ⟨_, held, running_holds_route run held rfl⟩

end

end BlizzardMock.MockHub
