import BlizzardMock.MockHub.FateLaws

namespace BlizzardMock.MockHub

open Method

namespace ChunkState

variable {chunk : ChunkState} {e : Int}

theorem fenceRefusal_isSome (nonneg : 0 ≤ e) (stale : e < chunk.latestEpoch) :
    (chunk.fenceRefusal e).isSome = true := by
  -- epoch zero is no fence, but nothing non-negative is behind it
  have fenced : chunk.latestEpoch ≠ 0 := (nonneg.trans_lt stale).ne'
  simp only [fenceRefusal]
  split
  · rfl
  · rw [if_pos ⟨fenced, stale⟩]
    rfl

theorem refuseRelease_of_stale (stale : e < chunk.latestEpoch) (r : String) :
    ∃ error, chunk.refuseRelease r e = .error error := by
  simp only [refuseRelease]
  split
  · exact ⟨_, rfl⟩
  split
  · exact ⟨_, rfl⟩
  split
  · exact ⟨_, rfl⟩
  rw [if_pos stale.ne]
  exact ⟨_, rfl⟩

end ChunkState

theorem ChunkStep.latestEpoch_le {hub : MockHubService} {op : Op} {chunk later : ChunkState}
    (step : ChunkStep hub op chunk later) : chunk.latestEpoch ≤ later.latestEpoch := by
  cases step with
  | paused =>
    simp only [ChunkState.paused]
    split <;> exact le_refl _
  | completed takes landing => cases landing <;> exact le_refl _
  | pushed pushed => exact pushed.1
  | _ => exact le_refl _

namespace MockHubService

structure Rejects [Platform] (hub : MockHubService) (r : String) (fact : Fact) : Prop where
  judged : (applyFact r fact.kind fact.payload).run hub = .ok false hub
  pushed : hub.factHighWater.getD r 0 < fact.seq → ∃ ack later,
    (ingestFacts r [fact]).run hub = .ok ack later ∧ ack.applied = [] ∧ ack.alreadyApplied = [] ∧
      ack.rejected = [fact.seq] ∧ later.store = hub.store

/-- What an epoch behind a chunk's latest is refused: none of it changes the hub. -/
structure Fences [Platform] (hub : MockHubService) (chunk : ChunkState) (e : Int) : Prop where
  completion : ∀ n choice, chunk.applied.get? (ChunkState.appliedKey n e) = none →
    ∃ response, (applyCompletion chunk.chunkId e n choice).run hub = .ok response hub ∧
      response.outcome = .failure
  decision : ∀ n, ∃ response, (applyDecision chunk.chunkId e n).run hub = .ok response hub ∧
    response.outcome = .failure
  release : ∀ r reason token, ∃ error,
    (release chunk.chunkId r e reason token).run hub = .error error hub
  escalation : ∀ r seq payload, chunkIdOf payload = chunk.chunkId → epochOf payload = .ok e →
    hub.Rejects r ⟨seq, escalationRecorded, payload⟩
  question : ∀ r seq payload, chunkIdOf payload = chunk.chunkId → epochOf payload = .ok e →
    hub.store.questions.get? (questionIdOf payload) = none →
    hub.Rejects r ⟨seq, questionAsked, payload⟩

section

variable {hub : MockHubService} {chunk : ChunkState} {e : Int}

theorem applyDecision_stale (held : hub.chunks.get? chunk.chunkId = some chunk)
    (unpinned : hub.Unpinned chunk.chunkId) (stale : e < chunk.latestEpoch) (n : String) :
    ∃ response, (applyDecision chunk.chunkId e n).run hub = .ok response hub ∧
      response.outcome = .failure := by
  have refused (openIds : List String) :
    ∃ detail, chunk.decisionRefusal openIds e n = some detail :=
    ⟨_, if_pos stale⟩
  obtain ⟨detail, hdetail⟩ := refused (openQuestionIds hub.store.toHubRows chunk.chunkId e)
  refine ⟨ChunkState.failed detail, ?_, rfl⟩
  simp only [applyDecision]
  rw [run_bind_of_read (answer_require held), run_checkPinnedGraph unpinned, run_readStore,
    hdetail]
  rfl

variable [Platform]

theorem release_stale (held : hub.chunks.get? chunk.chunkId = some chunk)
    (stale : e < chunk.latestEpoch) (r reason : String) (token : Option String) :
    ∃ error, (MockHubService.release chunk.chunkId r e reason token).run hub =
      .error error hub := by
  obtain ⟨error, refused⟩ := ChunkState.refuseRelease_of_stale stale r
  simp only [MockHubService.release]
  rw [run_bind_of_read (answer_require held), run_findLever, refused]
  -- the lever may refuse it first
  cases lever hub.levers .enforceReleaseRouteToken (some chunk.chunkId) with
  | none => exact ⟨error, rfl⟩
  | some enforced =>
    simp only [whenSome]
    cases releaseTokenRefusal chunk r token with
    | none => exact ⟨error, rfl⟩
    | some detail => exact ⟨_, rfl⟩

theorem applyCompletion_stale (held : hub.chunks.get? chunk.chunkId = some chunk)
    (unpinned : hub.Unpinned chunk.chunkId) (unreplayed : hub.Unreplayed chunk.chunkId)
    (stale : e < chunk.latestEpoch) (n choice : String)
    (new : chunk.applied.get? (ChunkState.appliedKey n e) = none) :
    ∃ response, (applyCompletion chunk.chunkId e n choice).run hub = .ok response hub ∧
      response.outcome = .failure := by
  have refused (openIds : List String) :
      ∃ detail, chunk.completionTarget openIds e n choice = .error detail := ⟨_, if_pos stale⟩
  obtain ⟨detail, hdetail⟩ := refused (openQuestionIds hub.store.toHubRows chunk.chunkId e)
  refine ⟨ChunkState.failed detail, ?_, rfl⟩
  rw [run_applyCompletion held unpinned unreplayed]
  simp only [judgeCompletion]
  rw [new, hdetail]
  rfl

theorem rejects_of_judged {r : String} {fact : Fact}
    (judged : (applyFact r fact.kind fact.payload).run hub = .ok false hub) :
    hub.Rejects r fact := by
  constructor
  · exact judged
  · intro new
    have unread : ¬ fact.seq ≤ hub.factHighWater.getD r 0 := not_le.mpr new
    have judged : ((factLane r).judge fact).run hub = .ok false hub := judged
    have swept : ((factLane r).push [fact] (hub.factHighWater.getD r 0)).run hub =
        .ok { mark := hub.factHighWater.getD r 0, rejected := [fact.seq] } hub := by
      change EStateM.run (if fact.seq ≤ hub.factHighWater.getD r 0 then _ else _) hub = _
      rw [if_neg unread, run_bind_of_run judged]
      rfl
    simp only [ingestFacts]
    rw [run_bind_of_read rfl, run_bind_of_run swept]
    exact ⟨_, _, rfl, rfl, rfl, rfl, rfl⟩

theorem escalation_stale (held : hub.chunks.get? chunk.chunkId = some chunk) (nonneg : 0 ≤ e)
    (stale : e < chunk.latestEpoch) (r : String) (seq : Int) (payload : List (String × Json))
    (named : chunkIdOf payload = chunk.chunkId) (epoch : epochOf payload = .ok e) :
    hub.Rejects r ⟨seq, escalationRecorded, payload⟩ := by
  apply rejects_of_judged
  change (applyEscalationRecorded payload).run hub = .ok false hub
  simp only [applyEscalationRecorded]
  rw [run_readStore, named, held]
  dsimp only
  rw [epoch, run_bind_of_read rfl, if_pos (ChunkState.fenceRefusal_isSome nonneg stale)]
  rfl

theorem question_stale (held : hub.chunks.get? chunk.chunkId = some chunk) (nonneg : 0 ≤ e)
    (stale : e < chunk.latestEpoch) (r : String) (seq : Int) (payload : List (String × Json))
    (named : chunkIdOf payload = chunk.chunkId) (epoch : epochOf payload = .ok e)
    (new : hub.store.questions.get? (questionIdOf payload) = none) :
    hub.Rejects r ⟨seq, questionAsked, payload⟩ := by
  apply rejects_of_judged
  have fenced : questionFenced hub.store.toHubRows payload = .ok true := by
    simp only [questionFenced]
    rw [named, held, new, epoch]
    exact congrArg Except.ok (ChunkState.fenceRefusal_isSome nonneg stale)
  change (applyQuestionAsked r payload).run hub = .ok false hub
  simp only [applyQuestionAsked]
  split
  · rfl
  · rw [run_readStore, fenced, run_bind_of_read rfl]
    rfl

end

/-- The fence of every chunk holds in every hub, and no run lowers it. -/
theorem fence_holds [Platform] :
    (∀ (hub : MockHubService) id chunk e, hub.chunks.get? id = some chunk → hub.Unpinned id →
      hub.Unreplayed id → 0 ≤ e → e < chunk.latestEpoch → hub.Fences chunk e) ∧
    ∀ hub id chunk ops, hub.chunks.get? id = some chunk →
      Meets (fun op hub => ¬ Renews id op hub) ops hub →
      ∃ later, (after ops hub).chunks.get? id = some later ∧
        chunk.latestEpoch ≤ later.latestEpoch := by
  constructor
  · intro hub id chunk e held unpinned unreplayed nonneg stale
    cases Table.key_of_get? held
    exact {
      completion := applyCompletion_stale held unpinned unreplayed stale
      decision := applyDecision_stale held unpinned stale
      release := release_stale held stale
      escalation := escalation_stale held nonneg stale
      question := question_stale held nonneg stale }
  · intro hub id chunk ops held run
    exact follow_chunk (C := fun _ _ => True) (R := fun chunk later =>
      chunk.latestEpoch ≤ later.latestEpoch)
      (fun _ => le_refl _) le_trans (fun _ _ _ _ _ _ _ step => step.latestEpoch_le)
      (run.mono fun _ _ h => ⟨h, trivial⟩) held

end MockHubService

section

attribute [local instance] Platform.plain

open MockHubService

def thirdAttempt : MockHubService :=
  after [.registry (.addRunner "ann" firstTenantId (some "r") (some "t") none none),
    .seedChunk { chunkId := some "c", entry := "build", nodes := .ofList [("build", {})] },
    .ingestFacts "r" [⟨1, leaseMinted, [("chunk_id", .str "c"), ("epoch", .int 3)]⟩]] (fresh .still)

theorem fence_holds_third_attempt :
    ∃ chunk, thirdAttempt.chunks.get? "c" = some chunk ∧ chunk.latestEpoch = 3 ∧
      thirdAttempt.Fences chunk 1 ∧
      ∃ later, (after [.stopChunk "c"] thirdAttempt).chunks.get? "c" = some later ∧
        3 ≤ later.latestEpoch := by
  have held : thirdAttempt.chunks.get? "c" = some _ := rfl
  have fences := fence_holds.1 thirdAttempt "c" _ 1 held rfl rfl (by decide) (by decide)
  have kept := fence_holds.2 thirdAttempt "c" _ [.stopChunk "c"] held ⟨not_renews trivial, trivial⟩
  exact ⟨_, held, rfl, fences, kept⟩

end

end BlizzardMock.MockHub
