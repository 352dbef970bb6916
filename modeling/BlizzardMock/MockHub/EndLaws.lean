import BlizzardMock.MockHub.FateLaws

namespace BlizzardMock.MockHub

open Method

namespace ChunkState

/-- A step to `target` that leaves the status of an ended chunk alone: it goes nowhere, or takes a
done chunk to where it is done again. -/
def EndsAgain (chunk : ChunkState) (target : String) : Prop :=
  target ≠ terminal ∧ chunk.node target = none ∨
    chunk.status = .done ∧ (target = terminal ∨ (chunk.node target).any (·.executor = .hub))

def StaysEnded (chunk later : ChunkState) : Prop := chunk.Ended → later.status = chunk.status

theorem StaysEnded.refl (chunk : ChunkState) : chunk.StaysEnded chunk := fun _ => rfl

theorem StaysEnded.trans {chunk later last : ChunkState} (h : chunk.StaysEnded later)
    (h' : later.StaysEnded last) : chunk.StaysEnded last := by
  intro ended
  have same := h ended
  rw [← same]
  apply h'
  simp only [Ended]
  rw [same]
  exact ended

theorem Ended.status_ne {chunk : ChunkState} (ended : chunk.Ended) {status : ChunkStatus}
    (done : status ≠ .done) (stopped : status ≠ .stopped) : chunk.status ≠ status := by
  intro h
  cases ended with
  | inl is_done => exact done (h.symm.trans is_done)
  | inr is_stopped => exact stopped (h.symm.trans is_stopped)

theorem Ended.not_pausable {chunk : ChunkState} (ended : chunk.Ended) : ¬ chunk.status.Pausable :=
  fun pausable => pausable.1 ended

theorem Ended.refuses_claim {chunk : ChunkState} (ended : chunk.Ended) :
    chunk.refuseClaim ≠ .ok () := by
  simp only [refuseClaim]
  rw [if_pos ended]
  intro free
  cases free

theorem Ended.refuses_release {chunk : ChunkState} (ended : chunk.Ended) (r : String) (e : Int) :
    chunk.refuseRelease r e ≠ .ok () := by
  simp only [refuseRelease]
  rw [if_pos ended]
  intro free
  cases free

theorem Landing.staysEnded {chunk next : ChunkState} {target : String} {response : ApplyResponse}
    (landing : chunk.Landing target next response) (again : chunk.Ended → chunk.EndsAgain target) :
    chunk.StaysEnded next := by
  intro ended
  have again := again ended
  cases landing with
  | finished response h =>
    cases again with
    | inl nowhere => exact absurd h nowhere.1
    | inr done => exact done.1.symm
  | nowhere => rfl
  | hubNode response node h held =>
    cases again with
    | inl nowhere => rw [nowhere.2] at held; cases held
    | inr done => exact done.1.symm
  | runnerNode response node h held runs =>
    cases again with
    | inl nowhere => rw [nowhere.2] at held; cases held
    | inr done =>
      rw [held] at done
      cases done.2 with
      | inl at_end => exact absurd at_end h
      | inr hub => exact absurd (of_decide_eq_true hub) runs

end ChunkState

namespace MockHubService

/-- No call takes an ended chunk further: no completion steps it to where its status would change,
no decision parks it, and the hub advances none that was stopped. -/
def KeepsEnd (id : String) (op : Op) (hub : MockHubService) : Prop :=
  match op with
  | .applyCompletion c e n choice => c = id → ∀ chunk target, hub.chunks.get? c = some chunk →
      hub.TakesCompletion chunk e n choice target → chunk.Ended → chunk.EndsAgain target
  | .applyDecision c e n => c = id → ∀ chunk, hub.chunks.get? c = some chunk → chunk.Ended →
      ¬ hub.TakesDecision chunk e n
  | .hubAdvance c => c = id → ∀ chunk, hub.chunks.get? c = some chunk → chunk.status = .stopped →
      ¬ hub.TakesAdvance chunk
  | _ => True

end MockHubService

open MockHubService

theorem ChunkStep.staysEnded {hub : MockHubService} {op : Op} {chunk later : ChunkState}
    (step : ChunkStep hub op chunk later) (held : hub.chunks.get? chunk.chunkId = some chunk)
    (keeps : KeepsEnd chunk.chunkId op hub) (running : op ≠ .stopChunk chunk.chunkId) :
    chunk.StaysEnded later := by
  intro ended
  cases step with
  | claimed free => exact absurd free ended.refuses_claim
  | rekeyed => rfl
  | released allowed => exact absurd allowed (ended.refuses_release _ _)
  | paused allowed => exact absurd allowed ended.not_pausable
  | resumed =>
    have not_paused : chunk.status ≠ .paused := ended.status_ne nofun nofun
    exact if_neg not_paused
  | completed takes landing => exact landing.staysEnded (keeps rfl chunk _ held takes) ended
  | decided takes => exact absurd takes (keeps rfl chunk held ended)
  | advanced takes =>
    cases ended with
    | inl done => exact done.symm
    | inr stopped => exact absurd takes (keeps rfl chunk held stopped)
  | stopped => exact absurd rfl running
  | unrouted =>
    have not_running : chunk.status ≠ .running := ended.status_ne nofun nofun
    exact if_neg not_running
  | pushed pushed => rw [pushed.2]

namespace MockHubService

variable [Platform]

/-- In a run of calls that take no ended chunk further, a chunk that has ended keeps its status, the
operator's stop and what renews the chunk aside. -/
theorem ended_keeps_status {hub : MockHubService} {id : String} {chunk : ChunkState}
    (held : hub.chunks.get? id = some chunk) (ended : chunk.Ended) {ops : List Op}
    (run : Meets (fun op hub => ¬ Renews id op hub ∧ op ≠ .stopChunk id ∧ KeepsEnd id op hub)
      ops hub) :
    ∃ later, (after ops hub).chunks.get? id = some later ∧ later.status = chunk.status := by
  obtain ⟨later, found, stays⟩ := follow_chunk ChunkState.StaysEnded.refl
    (fun h h' => ChunkState.StaysEnded.trans h h')
    (fun hub op chunk later keeps held filed step => by
      cases filed
      exact step.staysEnded held keeps.2 keeps.1) run held
  exact ⟨later, found, stays ended⟩

end MockHubService

section

attribute [local instance] Platform.plain

def oneStep : ChunkSpec where
  chunkId := some "c"
  entry := "build"
  nodes := .ofList [("build", { choices := [{ name := "finish", «to» := terminal }] })]

def stoppedEarly : MockHubService := after [.seedChunk oneStep, .stopChunk "c"] (fresh .still)

theorem completion_revives_stopped :
    stoppedEarly.Reachable ∧
      (stoppedEarly.chunks.get? "c").map (·.status) = some .stopped ∧
      ((stoppedEarly.next (.applyCompletion "c" 0 "build" "finish")).chunks.get? "c").map
        (·.status) =
        some .done := by
  refine ⟨reachable_run _ _, ?_, ?_⟩ <;> rfl

theorem ended_keeps_status_stopped :
    ∃ later, (after [.hubAdvance "c", .applyCompletion "c" 0 "build" "abandon"]
        stoppedEarly).chunks.get? "c" = some later ∧ later.status = .stopped := by
  have held : stoppedEarly.chunks.get? "c" = some _ := rfl
  apply ended_keeps_status held (.inr rfl)
  refine ⟨⟨not_renews trivial, ?_, ?_⟩, ⟨not_renews trivial, ?_, ?_⟩, trivial⟩
  · intro same
    cases same
  · intro _ chunk held _ takes
    cases held
    exact absurd takes.2.1 (by decide)
  · intro same
    cases same
  · intro _ chunk target held takes
    cases held
    cases takes.2.2.2.2.2.2

end

end BlizzardMock.MockHub
