import BlizzardMock.MockHub.PlaceLaws

namespace BlizzardMock.MockHub

open Method MockHubService

namespace ChunkState

/-- A step of the graph is rebuilt from where the chunk is now, and the reserved terminal id is no
node to rebuild it from. -/
def BeyondGraph (chunk : ChunkState) : Prop :=
  chunk.currentNodeId = some terminal ∧ terminal ∉ chunk.nodes

instance (chunk : ChunkState) : Decidable chunk.BeyondGraph := inferInstanceAs (Decidable (_ ∧ _))

def Remembers (chunk later : ChunkState) : Prop :=
  ∀ key outcome, chunk.applied.get? key = some outcome → later.applied.get? key = some outcome

theorem Remembers.of_applied {chunk later : ChunkState} (h : later.applied = chunk.applied) :
    chunk.Remembers later := by
  intro key outcome applied
  rw [h]
  exact applied

variable [Unicode]

theorem rebuild_answers_iff {chunk : ChunkState} (placed : chunk.Placed) (outcome : ApplyOutcome) :
    (∃ response, chunk.rebuild outcome = .ok response ∧ response.outcome = outcome) ↔
      ¬ (outcome = .next ∧ chunk.BeyondGraph) := by
  unfold rebuild
  dsimp only
  split
  case isFalse other => exact iff_of_true ⟨_, rfl, rfl⟩ fun h => other h.1
  case isTrue next =>
    cases current : chunk.currentNodeId with
    | none =>
      apply iff_of_true ⟨_, rfl, rfl⟩
      intro h
      rw [h.2.1] at current
      cases current
    | some nodeId =>
      cases held : chunk.node nodeId with
      | some node =>
        obtain ⟨envelope, hok, _⟩ := nodeEnvelope_of_node held chunk.latestEpoch
        dsimp only
        rw [hok]
        apply iff_of_true ⟨_, rfl, rfl⟩
        intro h
        cases current.symm.trans h.2.1
        exact h.2.2 (node_mem held)
      | none =>
        have missing : nodeId ∉ chunk.nodes := Dict.not_mem_iff.mpr held
        have at_end := (placed.current nodeId current).resolve_left missing
        cases at_end.1
        apply iff_of_false
        · intro h
          obtain ⟨response, hok, _⟩ := h
          dsimp only at hok
          simp only [nodeEnvelope] at hok
          rw [held] at hok
          cases hok
        · intro h
          exact h ⟨next, current, missing⟩

end ChunkState

theorem ChunkStep.remembers {hub : MockHubService} {op : Op} {chunk later : ChunkState}
    (step : ChunkStep hub op chunk later) : chunk.Remembers later := by
  cases step with
  | paused =>
    simp only [ChunkState.paused]
    split <;> exact .of_applied rfl
  | completed takes landing =>
    -- the key of the step is new, so it overwrites none
    have new := takes.2.2.1
    intro key outcome applied
    have other : key ≠ _ := fun h => by
      rw [h, new] at applied
      cases applied
    cases landing <;> exact (Dict.get?_set_of_ne other _ _).trans applied
  | pushed pushed =>
    rw [pushed.2]
    exact .of_applied rfl
  | _ => exact .of_applied rfl

namespace MockHubService

variable [Platform]

theorem applyCompletion_again {hub : MockHubService} {id n : String} {e : Int} {chunk : ChunkState}
    {outcome : ApplyOutcome} (held : hub.chunks.get? id = some chunk)
    (applied : chunk.applied.get? (ChunkState.appliedKey n e) = some outcome)
    (unpinned : hub.Unpinned id) (unreplayed : hub.Unreplayed id) (choice : String) :
    answer (applyCompletion id e n choice) hub = chunk.rebuild outcome ∧
      Method.after (applyCompletion id e n choice) hub = hub := by
  have run := run_applyCompletion held unpinned unreplayed e n choice
  have judged : judgeCompletion chunk (openQuestionIds hub.store.toHubRows id e) e n choice =
      settle (chunk.rebuild outcome) := by
    simp only [judgeCompletion, applied]
  rw [judged] at run
  simp only [answer, Method.after]
  rw [run]
  cases chunk.rebuild outcome <;> exact ⟨rfl, rfl⟩

def appliedOutcome (hub : MockHubService) (id n : String) (e : Int) : Option ApplyOutcome :=
  (hub.chunks.get? id).bind (·.applied.get? (ChunkState.appliedKey n e))

/-- After any run that leaves the chunk in place, a completion applied before is answered with its
outcome, and changes nothing, unless the chunk has left its graph and a node is to be rebuilt. -/
theorem replay_iff_within_graph {hub : MockHubService} (reachable : hub.Reachable) {id n : String}
    {e : Int} {outcome : ApplyOutcome} (applied : hub.appliedOutcome id n e = some outcome)
    (ops : List Op) (run : Meets (fun op hub => ¬ Renews id op hub) ops hub)
    (unpinned : (after ops hub).Unpinned id) (unreplayed : (after ops hub).Unreplayed id) :
    ∃ chunk, (after ops hub).chunks.get? id = some chunk ∧ ∀ choice,
      ((∃ response, answer (applyCompletion id e n choice) (after ops hub) = .ok response ∧
          response.outcome = outcome) ∧
        next (.applyCompletion id e n choice) (after ops hub) = after ops hub ↔
      ¬ (outcome = .next ∧ chunk.BeyondGraph)) := by
  obtain ⟨first, held, applied⟩ := Option.bind_eq_some_iff.mp applied
  obtain ⟨chunk, hchunk, remembers⟩ := follow_chunk (C := fun _ _ => True)
    (R := ChunkState.Remembers) (fun _ _ _ h => h) (fun h h' k o ho => h' k o (h k o ho))
    (fun _ _ _ _ _ _ _ step => step.remembers) (run.mono fun _ _ h => ⟨h, trivial⟩) held
  have placed := reachable_placed (reachable_after reachable ops) id chunk hchunk
  refine ⟨chunk, hchunk, fun choice => ?_⟩
  have again := applyCompletion_again hchunk (remembers _ _ applied) unpinned unreplayed choice
  rw [again.1, ← ChunkState.rebuild_answers_iff placed outcome]
  exact and_iff_left again.2

end MockHubService

section

attribute [local instance] Platform.plain

def buildThenReview : ChunkSpec where
  chunkId := some "c"
  entry := "build"
  nodes := .ofList [("build", { choices := [{ name := "go", «to» := "review" }] }),
    ("review", { choices := [{ name := "merge", «to» := terminal }] })]

def built : MockHubService :=
  after [.seedChunk buildThenReview, .applyCompletion "c" 1 "build" "go"] (fresh .still)

theorem replay_past_terminal_raises :
    let reviewed := after [.applyCompletion "c" 2 "review" "merge"] built
    built.Reachable ∧ built.appliedOutcome "c" "build" 1 = some .next ∧
      reviewed.Unpinned "c" ∧ reviewed.Unreplayed "c" ∧
      answer (applyCompletion "c" 1 "build" "go") reviewed =
        .error (.chunkNotFound "node 'done' missing from chunk c") := by
  refine ⟨reachable_run _ _, ?_, ?_, ?_, ?_⟩ <;> rfl

def shipping : MockHubService :=
  after [.seedChunk {
      chunkId := some "c"
      entry := "build"
      nodes := .ofList [("build", { choices := [{ name := "go", «to» := "review" }] }),
        ("review", { choices := [{ name := "pass", «to» := "ship" }] }),
        ("ship", { choices := [{ name := "merge", «to» := terminal }] })] },
    .applyCompletion "c" 1 "build" "go"] (fresh .still)

theorem replay_iff_within_graph_shipping :
    let reviewed := after [.applyCompletion "c" 2 "review" "pass", .pauseChunk "c"] shipping
    ∃ chunk, reviewed.chunks.get? "c" = some chunk ∧ ∀ choice,
      ((∃ response, answer (applyCompletion "c" 1 "build" choice) reviewed = .ok response ∧
          response.outcome = .next) ∧
        next (.applyCompletion "c" 1 "build" choice) reviewed = reviewed ↔
      ¬ (ApplyOutcome.next = .next ∧ chunk.BeyondGraph)) := by
  have applied : shipping.appliedOutcome "c" "build" 1 = some .next := rfl
  exact replay_iff_within_graph (reachable_run _ _) applied
    [.applyCompletion "c" 2 "review" "pass", .pauseChunk "c"]
      ⟨not_renews trivial, not_renews trivial, trivial⟩ rfl rfl

end

end BlizzardMock.MockHub
