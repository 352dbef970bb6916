import BlizzardMock.MockHub.FrameLaws

namespace BlizzardMock.MockHub

open Method

namespace ChunkState

variable (chunk : ChunkState)

def Pushed (later : ChunkState) : Prop :=
  chunk.latestEpoch ≤ later.latestEpoch ∧
    later = { chunk with latestEpoch := later.latestEpoch, escalation := later.escalation }

theorem Pushed.refl : Pushed chunk chunk := ⟨le_refl _, rfl⟩

variable {chunk} in
theorem Pushed.trans {later last : ChunkState} (h : chunk.Pushed later) (h' : later.Pushed last) :
    chunk.Pushed last := by
  constructor
  · exact h.1.trans h'.1
  · rw [h'.2, h.2]

theorem pushed_fenced (epoch : Int) : chunk.Pushed (chunk.fenced epoch) :=
  ⟨le_max_left _ _, rfl⟩

theorem pushed_escalated (escalation : Option EscalationState) :
    chunk.Pushed { chunk with escalation := escalation } :=
  ⟨le_refl _, rfl⟩

variable [Unicode]

theorem nodeEnvelope_of_node {chunk : ChunkState} {nodeId : String} {node : NodeSpec}
    (h : chunk.node nodeId = some node) (epoch : Int) :
    ∃ envelope, chunk.nodeEnvelope nodeId epoch = .ok envelope ∧ envelope.node.nodeId = nodeId := by
  simp only [nodeEnvelope]
  rw [h]
  exact ⟨_, rfl, rfl⟩

/-- The attempts `apply_completion` steps a chunk by: not stale, coherent, and at a runner node
that knows the choice. -/
def Accepts (openQuestionIds : List String) (epoch : Int) (fromNodeId choice target : String) :
    Prop :=
  chunk.latestEpoch ≤ epoch ∧ chunk.incoherentAttempt fromNodeId epoch openQuestionIds = none ∧
    chunk.hubExecuted fromNodeId = none ∧
    (chunk.node fromNodeId).bind (resolveChoice · choice) = some target

instance (openIds : List String) (epoch : Int) (fromNodeId choice target : String) :
    Decidable (chunk.Accepts openIds epoch fromNodeId choice target) :=
  inferInstanceAs (Decidable (_ ∧ _ ∧ _ ∧ _))

theorem completionTarget_ok {chunk : ChunkState} {openIds : List String} {epoch : Int}
    {fromNodeId choice target : String} :
    chunk.completionTarget openIds epoch fromNodeId choice = .ok target ↔
      chunk.Accepts openIds epoch fromNodeId choice target := by
  simp only [completionTarget, Accepts]
  split
  case isTrue stale => simp [not_le.mpr stale]
  case isFalse current =>
    cases chunk.incoherentAttempt fromNodeId epoch openIds with
    | some incoherent => simp
    | none =>
      cases chunk.node fromNodeId with
      | none => simp
      | some node =>
        cases chunk.hubExecuted fromNodeId with
        | some detail => simp
        | none =>
          dsimp only [Option.bind]
          cases resolveChoice node choice <;> simp [not_lt.mp current]

/-- Where `_advance` leaves a chunk, and what it answers. -/
inductive Landing (target : String) : ChunkState → ApplyResponse → Prop
  | finished (response : ApplyResponse) (h : target = terminal)
    (outcome : response.outcome = .done) :
    Landing target { chunk with status := .done, currentNodeId := some terminal } response
  | nowhere (response : ApplyResponse) (h : target ≠ terminal) (missing : chunk.node target = none)
      (outcome : response.outcome = .failure) :
    Landing target chunk response
  | hubNode (response : ApplyResponse) (node : NodeSpec) (h : target ≠ terminal)
      (held : chunk.node target = some node) (outcome : response.outcome = .hubNodeTaken) :
    Landing target { chunk with status := .done, currentNodeId := some target } response
  | runnerNode (response : ApplyResponse) (node : NodeSpec) (h : target ≠ terminal)
      (held : chunk.node target = some node) (runs : node.executor ≠ .hub)
      (outcome : response.outcome = .next) :
    Landing target { chunk with status := .running, currentNodeId := some target } response

omit [Unicode] in
theorem Landing.chunkId {chunk next : ChunkState} {target : String} {response : ApplyResponse}
    (h : chunk.Landing target next response) : next.chunkId = chunk.chunkId := by
  cases h <;> rfl

theorem advance_landing (target : String) :
    ∃ response, (chunk.advance target).2 = .ok response ∧
      chunk.Landing target (chunk.advance target).1 response := by
  simp only [advance]
  split
  case isTrue h => exact ⟨_, rfl, .finished _ h rfl⟩
  case isFalse h =>
    cases held : chunk.node target with
    | none => exact ⟨_, rfl, .nowhere _ h held rfl⟩
    | some node =>
      dsimp only
      split
      case isTrue => exact ⟨_, rfl, .hubNode _ node h held rfl⟩
      case isFalse runs =>
        obtain ⟨envelope, hok, _⟩ := nodeEnvelope_of_node held chunk.latestEpoch
        rw [hok]
        exact ⟨_, rfl, .runnerNode _ node h held runs rfl⟩

end ChunkState

end BlizzardMock.MockHub
