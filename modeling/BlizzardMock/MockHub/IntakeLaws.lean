import BlizzardMock.MockHub.MarkLaws

namespace BlizzardMock.MockHub

open Method MockHubService

namespace MockHubService

variable [Platform] {r : String} {fact : Fact} {hub : MockHubService}

theorem admitted_of_rows {s t : MockHubService} (same : s.rows = t.rows) :
    fact.admitted s = fact.admitted t := by
  have store : s.store.toHubRows = t.store.toHubRows := congrArg Prod.fst same
  have chunks : s.chunks = t.chunks := congrArg HubRows.chunks store
  have questions : s.questions = t.questions := congrArg HubRows.questions store
  simp only [Fact.admitted, Fact.escalates, Fact.asks, Fact.delivers, store, chunks, questions]

theorem push_single (new : hub.factHighWater.getD r 0 < fact.seq) :
    (factLane r).push [fact] (hub.factHighWater.getD r 0) = (do
      let accepted ← applyFact r fact.kind fact.payload
      return Lane.judged max { mark := hub.factHighWater.getD r 0 } fact.seq accepted) :=
  if_neg (not_le.mpr new)

def newAck (r : String) (fact : Fact) (hub : MockHubService) : RunnerFactAck :=
  if fact.admitted hub then ⟨r, fact.seq, [fact.seq], [], []⟩
  else ⟨r, hub.factHighWater.getD r 0, [], [], [fact.seq]⟩

theorem ingest_new (new : hub.factHighWater.getD r 0 < fact.seq) {ack : RunnerFactAck}
    (ingested : answer (ingestFacts r [fact]) hub = .ok ack) :
    ack = newAck r fact hub ∧
      (Method.after (ingestFacts r [fact]) hub).marks =
        (Sender.runner r).marked ack.highWater hub.marks ∧
      (Method.after (ingestFacts r [fact]) hub).chunks =
        (Method.after (applyFact r fact.kind fact.payload) hub).chunks := by
  have moved := marks_ingestFacts r [fact] hub
  have answered := ingested
  rw [answer_ingestFacts, push_single new] at answered
  rw [push_single new] at moved
  cases judged : answer (applyFact r fact.kind fact.payload) hub with
  | error e =>
    rw [answer_bind_of_error _ judged] at answered
    cases answered
  | ok accepted =>
    have merit : accepted = fact.admitted hub := (Fact.yields_admitted accepted judged).symm
    rw [answer_bind_of_ok _ judged] at answered moved
    cases answered
    refine ⟨?_, moved, ?_⟩
    · rw [newAck, ← merit]
      cases accepted with
      | true => exact congrArg (fun mark => (⟨r, mark, _, _, _⟩ : RunnerFactAck)) (max_eq_right new.le)
      | false => rfl
    · simp only [ingestFacts]
      rw [after_bind_of_ok _ rfl]
      change (Method.after
        ((factLane r).push [fact] (hub.factHighWater.getD r 0) >>= _) hub).chunks = _
      rw [push_single new, after_bind_of_ok hub (answer_bind_of_ok hub judged _)]
      rw [after_bind_of_ok hub judged]
      rfl

theorem chunks_mint {payload : List (String × Json)} {chunk : ChunkState} {epoch : Int}
    (held : hub.chunks.get? (chunkIdOf payload) = some chunk)
    (minted : epochOf payload = .ok epoch) :
    (Method.after (applyFact r leaseMinted payload) hub).chunks = hub.chunks.put
      (chunk.fenced epoch) := by
  change (Method.after (applyLeaseMinted r payload) hub).chunks = _
  simp only [applyLeaseMinted]
  rw [after_bind_of_ok _ rfl]
  change (Method.after (whenSome _ (hub.chunks.get? (chunkIdOf payload)) >>= _) hub).chunks = _
  rw [held, after_bind_pure]
  simp only [whenSome]
  rw [minted, after_bind_of_ok _ rfl]
  cases row : hub.store.runners.get? r with
  | none =>
    exact congrArg chunks (after_advanceFence_none row chunk epoch)
  | some runner =>
    exact congrArg chunks (after_advanceFence_some row chunk epoch)

end MockHubService

end BlizzardMock.MockHub
