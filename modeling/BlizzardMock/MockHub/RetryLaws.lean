import BlizzardMock.MockHub.CompletionLaws

namespace BlizzardMock.MockHub

open Method

namespace ChunkState

variable (chunk : ChunkState)

/-- A target `_advance` finds: the reserved terminal id, or a node of the graph. -/
def Reaches (target : String) : Prop := target = terminal ∨ target ∈ chunk.nodes

instance (target : String) : Decidable (chunk.Reaches target) := inferInstanceAs (Decidable (_ ∨ _))

variable {chunk}

theorem Landing.failure_iff {target : String} {next : ChunkState} {response : ApplyResponse}
    (landing : chunk.Landing target next response) :
    response.outcome = .failure ↔ ¬ chunk.Reaches target := by
  cases landing with
  | finished _ h outcome => simp [outcome, Reaches, h]
  | nowhere _ h missing outcome =>
    have absent : target ∉ chunk.nodes := Dict.not_mem_iff.mpr missing
    simp [outcome, Reaches, h, absent]
  | hubNode _ node h held outcome =>
    have mem : target ∈ chunk.nodes := Dict.mem_iff.mpr ⟨node, held⟩
    simp [outcome, Reaches, mem]
  | runnerNode _ node h held runs outcome =>
    have mem : target ∈ chunk.nodes := Dict.mem_iff.mpr ⟨node, held⟩
    simp [outcome, Reaches, mem]

theorem rebuild_outcome [Unicode] {outcome : ApplyOutcome} {response : ApplyResponse}
    (h : chunk.rebuild outcome = .ok response) : response.outcome = outcome := by
  simp only [rebuild] at h
  split at h
  case isFalse =>
    cases h
    rfl
  case isTrue =>
    split at h
    case h_1 =>
      cases h
      rfl
    case h_2 nodeId current =>
      cases built : chunk.nodeEnvelope nodeId chunk.latestEpoch with
      | error e =>
        rw [built] at h
        cases h
      | ok envelope =>
        rw [built] at h
        cases h
        rfl

end ChunkState

namespace MockHubService

variable [Platform] {hub : MockHubService} {id n : String} {e : Int} {chunk : ChunkState}

/-- A report of an attempt is judged on its own: it is answered with another outcome than a failure
exactly when the chunk accepts it and its choice points somewhere. -/
def JudgedAfresh (hub : MockHubService) (chunk : ChunkState) (e : Int) (n : String) : Prop :=
  ∀ choice, (∃ response, answer (applyCompletion chunk.chunkId e n choice) hub = .ok response ∧
      response.outcome ≠ .failure) ↔
    ∃ target, chunk.Accepts
      (openQuestionIds hub.store.toHubRows chunk.chunkId e) e n choice target ∧
      chunk.Reaches target

/-- A failure leaves everything to be tried again. -/
def Retryable (hub : MockHubService) (chunk : ChunkState) (e : Int) (n choice : String) : Prop :=
  ∀ response, answer (applyCompletion chunk.chunkId e n choice) hub = .ok response →
    response.outcome = .failure →
      let later := hub.next (.applyCompletion chunk.chunkId e n choice)
      later = hub ∧ chunk.applied.get? (ChunkState.appliedKey n e) = none ∧
        later.JudgedAfresh chunk e n

/-- Whether the failure of a completion is on the chunk's record, from before or from now on. -/
def RecordsFailure (hub : MockHubService) (chunk : ChunkState) (e : Int) (n choice : String) :
    Prop :=
  hub.Unpinned chunk.chunkId ∧
      chunk.applied.get? (ChunkState.appliedKey n e) = some .failure ∨
    ∃ target, hub.TakesCompletion chunk e n choice target ∧ ¬ chunk.Reaches target

theorem applyCompletion_refused (held : hub.chunks.get? id = some chunk)
    (unpinned : hub.Unpinned id)
    (unreplayed : hub.Unreplayed id) {choice detail : String}
    (new : chunk.applied.get? (ChunkState.appliedKey n e) = none)
    (refused : chunk.completionTarget (openQuestionIds hub.store.toHubRows id e) e n choice =
      .error detail) :
    (applyCompletion id e n choice).run hub = .ok (ChunkState.failed detail) hub := by
  rw [run_applyCompletion held unpinned unreplayed]
  simp only [judgeCompletion, new, refused]
  rfl

theorem applyCompletion_taken (held : hub.chunks.get? id = some chunk) (unpinned : hub.Unpinned id)
    (unreplayed : hub.Unreplayed id) {choice target : String}
    (new : chunk.applied.get? (ChunkState.appliedKey n e) = none)
    (accepted : chunk.Accepts (openQuestionIds hub.store.toHubRows id e) e n choice target) :
    ∃ next response, chunk.Landing target next response ∧
      answer (applyCompletion id e n choice) hub = .ok response ∧
      (hub.next (.applyCompletion id e n choice)).chunks.get? id =
        some (next.recorded (ChunkState.appliedKey n e) response) := by
  obtain ⟨response, answered, landing⟩ := chunk.advance_landing target
  have chosen := ChunkState.completionTarget_ok.mpr accepted
  refine ⟨(chunk.advance target).1, response, landing, ?_⟩
  have run : (applyCompletion id e n choice).run hub =
      .ok response { hub with store.chunks := (hub.chunks.put (chunk.advance target).1).put <|
        (chunk.advance target).1.recorded (ChunkState.appliedKey n e) response } := by
    rw [run_applyCompletion held unpinned unreplayed]
    simp only [judgeCompletion, new, chosen, answered]
    rfl
  have filed : ((chunk.advance target).1.recorded (ChunkState.appliedKey n e) response).chunkId =
    id :=
    landing.chunkId.trans (Table.key_of_get? held)
  constructor
  · simp only [answer, run]
  · change (Method.after (applyCompletion id e n choice) hub).chunks.get? id = _
    simp only [Method.after]
    rw [run, ← filed]
    exact Table.get?_put_self _ _

theorem judgedAfresh_of_new (held : hub.chunks.get? chunk.chunkId = some chunk)
    (unpinned : hub.Unpinned chunk.chunkId) (unreplayed : hub.Unreplayed chunk.chunkId)
    (new : chunk.applied.get? (ChunkState.appliedKey n e) = none) : hub.JudgedAfresh chunk e n := by
  intro choice
  cases chosen : chunk.completionTarget
    (openQuestionIds hub.store.toHubRows chunk.chunkId e) e n choice with
  | error detail =>
    have run := applyCompletion_refused held unpinned unreplayed new chosen
    apply iff_of_false
    · intro stepped
      obtain ⟨response, answered, other⟩ := stepped
      simp only [answer, run] at answered
      cases answered
      exact other rfl
    · intro taken
      obtain ⟨target, accepted, _⟩ := taken
      rw [ChunkState.completionTarget_ok.mpr accepted] at chosen
      cases chosen
  | ok target =>
    have accepted := ChunkState.completionTarget_ok.mp chosen
    obtain ⟨next, response, landing, answered, _⟩ :=
      applyCompletion_taken held unpinned unreplayed new accepted
    rw [answered]
    constructor
    · intro stepped
      obtain ⟨_, same, other⟩ := stepped
      cases same
      exact ⟨target, accepted, not_not.mp fun lost => other (landing.failure_iff.mpr lost)⟩
    · intro taken
      obtain ⟨other, also, reaches⟩ := taken
      have same := ChunkState.completionTarget_ok.mpr also
      rw [chosen] at same
      cases same
      exact ⟨response, rfl, fun failed => landing.failure_iff.mp failed reaches⟩

section Cases

variable (unpinned : hub.Unpinned chunk.chunkId) {choice : String}

omit [Platform] in
include unpinned in
theorem recordsFailure_of_applied {outcome : ApplyOutcome}
    (applied : chunk.applied.get? (ChunkState.appliedKey n e) = some outcome) :
    hub.RecordsFailure chunk e n choice ↔ outcome = .failure := by
  constructor
  · intro recorded
    cases recorded with
    | inl before =>
      rw [applied] at before
      exact Option.some.inj before.2
    | inr now =>
      obtain ⟨_, takes, _⟩ := now
      rw [takes.2.2.1] at applied
      cases applied
  · intro failed
    rw [failed] at applied
    exact .inl ⟨unpinned, applied⟩

omit [Platform] in
theorem recordsFailure_of_new (new : chunk.applied.get? (ChunkState.appliedKey n e) = none) :
    hub.RecordsFailure chunk e n choice ↔
      ∃ target, hub.TakesCompletion chunk e n choice target ∧ ¬ chunk.Reaches target := by
  apply or_iff_right
  intro before
  rw [new] at before
  cases before.2

variable (held : hub.chunks.get? chunk.chunkId = some chunk)
  (unreplayed : hub.Unreplayed chunk.chunkId)

include held unpinned unreplayed

theorem retryable_of_applied {outcome : ApplyOutcome}
    (applied : chunk.applied.get? (ChunkState.appliedKey n e) = some outcome) :
    hub.Retryable chunk e n choice ↔ outcome ≠ .failure := by
  have again := applyCompletion_again held applied unpinned unreplayed choice
  constructor
  · intro retryable failed
    cases failed
    have forgotten := (retryable _ again.1 rfl).2.1
    rw [applied] at forgotten
    cases forgotten
  · intro other response answered failed
    rw [again.1] at answered
    exact absurd ((ChunkState.rebuild_outcome answered).symm.trans failed) other

theorem retryable_of_refused {detail : String}
    (new : chunk.applied.get? (ChunkState.appliedKey n e) = none)
    (refused : chunk.completionTarget
      (openQuestionIds hub.store.toHubRows chunk.chunkId e) e n choice =
      .error detail) : hub.Retryable chunk e n choice := by
  intro response _ _
  have same : hub.next (.applyCompletion chunk.chunkId e n choice) = hub := by
    change Method.after (applyCompletion chunk.chunkId e n choice) hub = hub
    simp only [Method.after, applyCompletion_refused held unpinned unreplayed new refused]
  simp only [same]
  exact ⟨trivial, new, judgedAfresh_of_new held unpinned unreplayed new⟩

theorem retryable_of_accepted {target : String}
    (new : chunk.applied.get? (ChunkState.appliedKey n e) = none)
    (accepted : chunk.Accepts
      (openQuestionIds hub.store.toHubRows chunk.chunkId e) e n choice target) :
    hub.Retryable chunk e n choice ↔ chunk.Reaches target := by
  obtain ⟨next, response, landing, answered, put⟩ :=
    applyCompletion_taken held unpinned unreplayed new accepted
  constructor
  · intro retryable
    by_contra lost
    have kept := (retryable response answered (landing.failure_iff.mpr lost)).1
    rw [kept, held] at put
    -- the row that stands is the one with the failure on record
    have recorded := congrArg (fun row => row.applied.get? (ChunkState.appliedKey n e))
      (Option.some.inj put)
    dsimp only [ChunkState.recorded] at recorded
    rw [new, Dict.get?_set_self] at recorded
    cases recorded
  · intro reaches other same failed
    rw [answered] at same
    cases same
    exact absurd reaches (landing.failure_iff.mp failed)

end Cases

/-- A failure leaves everything to be tried again exactly where it goes on no record: its key holds
none, and the choice of a report that is taken points somewhere. -/
theorem retryable_iff_unrecorded (held : hub.chunks.get? chunk.chunkId = some chunk)
    (unreplayed : hub.Unreplayed chunk.chunkId) (e : Int) (n choice : String) :
    hub.Retryable chunk e n choice ↔ ¬ hub.RecordsFailure chunk e n choice := by
  by_cases unpinned : hub.Unpinned chunk.chunkId
  case neg =>
    apply iff_of_true
    · intro response answered _
      obtain ⟨_, _, answered⟩ := answer_bind_ok_iff.mp answered
      obtain ⟨_, passed, _⟩ := answer_bind_ok answered
      exact absurd (answer_checkPinnedGraph.mp passed) unpinned
    · intro recorded
      cases recorded with
      | inl before => exact unpinned before.1
      | inr now =>
        obtain ⟨_, takes, _⟩ := now
        exact unpinned takes.1
  case pos =>
    cases applied : chunk.applied.get? (ChunkState.appliedKey n e) with
    | some outcome =>
      rw [recordsFailure_of_applied unpinned applied]
      exact retryable_of_applied unpinned held unreplayed applied
    | none =>
      rw [recordsFailure_of_new applied]
      cases chosen : chunk.completionTarget
        (openQuestionIds hub.store.toHubRows chunk.chunkId e) e n choice with
      | error detail =>
        apply iff_of_true (retryable_of_refused unpinned held unreplayed applied chosen)
        intro taken
        obtain ⟨target, takes, _⟩ := taken
        rw [ChunkState.completionTarget_ok.mpr takes.2.2.2] at chosen
        cases chosen
      | ok target =>
        have accepted := ChunkState.completionTarget_ok.mp chosen
        rw [retryable_of_accepted unpinned held unreplayed applied accepted]
        constructor
        · intro reaches taken
          obtain ⟨other, takes, lost⟩ := taken
          rw [ChunkState.completionTarget_ok.mpr takes.2.2.2] at chosen
          cases chosen
          exact lost reaches
        · intro untaken
          by_contra lost
          exact untaken ⟨target, ⟨unpinned, .inl unreplayed, applied, accepted⟩, lost⟩

end MockHubService

section

attribute [local instance] Platform.plain

open MockHubService

def loseOrGo : ChunkSpec where
  chunkId := some "c"
  entry := "build"
  nodes := .ofList [("build", { choices := [{ name := "lose", «to» := "nowhere" },
      { name := "go", «to» := "review" }] }),
    ("review", {})]

def seededLost : MockHubService := after [.seedChunk loseOrGo] (fresh .still)

theorem lost_completion_stays_failed :
    let lost := seededLost.next (.applyCompletion "c" 1 "build" "lose")
    seededLost.Reachable ∧ seededLost.Unreplayed "c" ∧
      (answer (applyCompletion "c" 1 "build" "lose") seededLost).toOption.map (·.outcome) =
        some .failure ∧
      (lost.chunks.get? "c").bind (·.applied.get? (ChunkState.appliedKey "build" 1)) =
        some .failure ∧
      (answer (applyCompletion "c" 1 "build" "go") seededLost).toOption.map
        (·.outcome) = some .next ∧
      (answer (applyCompletion "c" 1 "build" "go") lost).toOption.map (·.outcome) =
        some .failure := by
  refine ⟨reachable_run _ _, ?_, ?_, ?_, ?_, ?_⟩ <;> rfl

theorem retryable_unknown_choice :
    ∃ chunk, seededLost.chunks.get? "c" = some chunk ∧
      (seededLost.Retryable chunk 1 "build" "stay" ↔
        ¬ seededLost.RecordsFailure chunk 1 "build" "stay") := by
  have held : seededLost.chunks.get? "c" = some (loseOrGo.seeded "c" firstProjectId) := rfl
  have unreplayed : seededLost.Unreplayed "c" := rfl
  exact ⟨_, held, retryable_iff_unrecorded held unreplayed 1 "build" "stay"⟩

end

end BlizzardMock.MockHub
