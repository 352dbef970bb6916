import BlizzardMock.MockHub.PlaceLaws

namespace BlizzardMock.MockHub

open Method

namespace MockHubService

theorem offered_served {store : Registry} {row : RunnerRow} {projects : Option (List String)}
    {projectId : String} (h : projectId ∈ offeredProjectIds store row projects) :
    projectId ∈ servedProjectIds row := by
  -- bindings and a filter only ever narrow what the runner declared
  have declared : ∀ e ∈ offeredEntries store row, e ∈ row.projects := by
    simp only [offeredEntries]
    cases row.bindings with
    | none => exact fun _ he => he
    | some bindings => exact fun _ he => (List.mem_filter.mp he).1
  have mem : projectId ∈ (offeredEntries store row).filterMap ServedEntry.projectId := by
    cases projects with
    | none => exact h
    | some wanted => exact (List.mem_filter.mp h).1
  obtain ⟨e, he, names⟩ := List.mem_filterMap.mp mem
  exact List.mem_filterMap.mpr ⟨e, declared e he, names⟩

structure Offered (hub : MockHubService) (row : RunnerRow) (capabilities : List RunnerCapability)
    (chunk : ChunkState) : Prop where
  held : hub.chunks.get? chunk.chunkId = some chunk
  unclaimed : chunk.claimed = false
  ready : chunk.status = .ready
  served : chunk.projectId ∈ servedProjectIds row
  unblocked : lever hub.levers .dependencyUnmet (some chunk.chunkId) = none
  workable : Matching.capabilityIneligible chunk chunk.currentOrEntry capabilities = false

theorem Offered.free {hub : MockHubService} {row : RunnerRow} {chunk : ChunkState}
    {capabilities : List RunnerCapability}
    (h : hub.Offered row capabilities chunk) : chunk.refuseClaim = .ok () := by
  have open' : ¬ chunk.Ended := by
    simp [ChunkState.Ended, h.ready]
  simp only [ChunkState.refuseClaim]
  rw [if_neg open', if_neg (Bool.eq_false_iff.mp h.unclaimed), if_neg (not_not.mpr h.ready)]

theorem run_refuseByClaimLever {hub : MockHubService} {α : Type} {kind : HubLever} {c : String}
    (r detail : String)
    {g : Unit → HubM α} (unarmed : lever hub.levers kind (some c) = none) :
    (refuseByClaimLever kind c r detail >>= g).run hub = (g ()).run hub := by
  apply run_bind_of_run
  simp only [refuseByClaimLever]
  rw [run_findLever, unarmed]
  rfl

theorem run_refuseRetiredRunner {hub : MockHubService} {α : Type} {r : String} {row : RunnerRow}
    (action : String)
    {g : Unit → HubM α} (added : hub.store.runners.get? r = some row)
    (live : row.retiredAt = none) :
    (refuseRetiredRunner r action >>= g).run hub = (g ()).run hub := by
  apply run_bind_of_run
  have kept : ¬ ((some row).any (·.retiredAt.isSome)) = true := by
    simp [live]
  simp only [refuseRetiredRunner]
  rw [run_readStore, added, refuseIf, if_neg kept]
  rfl

variable [Platform]

section

variable {levers : InMemoryLeverStore} {capabilities : List RunnerCapability}

theorem selectMatched_some {policy : Matching.QueueMatchPolicy} {served : List String}
    {filtered : Bool} {ready : List (ChunkState × Nat)} {stopped : List String}
    {found : ChunkState × Nat}
    (h : selectMatched levers capabilities policy served filtered ready stopped = some found) :
    found ∈ ready ∧ found.1.projectId ∈ served ∧ unusable levers capabilities found.1 = false := by
  induction ready generalizing stopped with
  | nil => cases h
  | cons entry rest ih =>
    simp only [selectMatched] at h
    split at h
    case isTrue =>
      have found := ih h
      exact ⟨List.mem_cons_of_mem _ found.1, found.2⟩
    case isFalse admitted =>
      split at h
      case isTrue usable =>
        cases h
        have served := not_not.mp fun unserved => admitted (.inl unserved)
        exact ⟨List.mem_cons_self, served, Bool.eq_false_iff.mpr usable⟩
      case isFalse =>
        split at h
        case isTrue =>
          split at h
          · cases h
          · have found := ih h
            exact ⟨List.mem_cons_of_mem _ found.1, found.2⟩
        case isFalse =>
          have found := ih h
          exact ⟨List.mem_cons_of_mem _ found.1, found.2⟩

theorem unarmed_of_unmarked {c : String} (h : (blockedMarking levers c).isSome = false) :
    lever levers .dependencyUnmet (some c) = none := by
  simp only [blockedMarking, Option.isSome_map] at h
  exact Option.isNone_iff_eq_none.mp (Option.isSome_eq_false_iff.mp h)

theorem offered_of_matchedChunk {hub : MockHubService} {row : RunnerRow} {policy : String}
    {projects : Option (List String)} {found : ChunkState × Nat}
    (h : matchedChunk hub.store.toHubRows hub.levers row capabilities policy projects =
      some found) :
    hub.Offered row capabilities found.1 := by
  obtain ⟨mem, served, usable⟩ := selectMatched_some h
  have ready := List.mem_filter.mp (List.fst_mem_of_mem_zipIdx mem)
  have open' := of_decide_eq_true ready.2
  obtain ⟨unblocked, workable⟩ := Bool.or_eq_false_iff.mp usable
  exact {
    held := Table.mem_rows.mp ready.1
    unclaimed := Bool.eq_false_iff.mpr open'.1
    ready := open'.2
    served := offered_served served
    unblocked := unarmed_of_unmarked unblocked
    workable := workable }

theorem offered_of_peekMatched {hub : MockHubService} {r policy : String} {row : RunnerRow}
    {projects : Option (List String)} {entries : List QueuePeekEntry} {entry : QueuePeekEntry}
    (added : hub.store.runners.get? r = some row)
    (peeked : answer (peekMatched r capabilities policy projects) hub = .ok entries)
    (mem : entry ∈ entries) :
    ∃ chunk, chunk.chunkId = entry.chunkId ∧ hub.Offered row capabilities chunk := by
  have present : answer (MockHubService.added r) hub = .ok row := orRaise_ok.mpr added
  simp only [peekMatched, answer] at peeked
  rw [run_bind_of_read present] at peeked
  have hentries := Except.ok.inj peeked
  rw [← hentries, Option.mem_toList] at mem
  obtain ⟨found, matched, hentry⟩ := Option.map_eq_some_iff.mp mem
  rw [← hentry]
  exact ⟨found.1, rfl, offered_of_matchedChunk matched⟩

end

section

variable {hub : MockHubService}

theorem run_refuseClaimant {α : Type} {r : String} {row : RunnerRow} {chunk : ChunkState}
    {g : Unit → HubM α} (added : hub.store.runners.get? r = some row)
    (registered : ¬ row.NeverConnected) (unpaused : row.paused = false)
    (offered : hub.Offered row row.capabilities chunk) :
    (refuseClaimant chunk chunk.chunkId r >>= g).run hub = (g ()).run hub := by
  apply run_bind_of_run
  have braked : refuseBrakedRunner (hub.store.runners.get? r) r = .ok row := by
    simp [refuseBrakedRunner, added, registered, unpaused]
  simp only [refuseClaimant]
  rw [run_readStore, braked, run_settle_ok, offered.free, run_settle_ok, run_findLever,
    offered.unblocked, run_whenSome_none, run_readStore, run_refuseIf (not_not.mpr offered.served)]
  rw [refuseIf, if_neg (Bool.eq_false_iff.mp offered.workable)]
  rfl

/-- Whatever a matched peek offers a runner, with the capabilities it registered, that runner may
claim, and is handed the envelope of the chunk's current node. -/
theorem offered_claim_succeeds (reachable : hub.Reachable) {r policy w : String} {row : RunnerRow}
    {projects : Option (List String)} {es : List String} {entries : List QueuePeekEntry}
    {entry : QueuePeekEntry} (added : hub.store.runners.get? r = some row)
    (registered : ¬ row.NeverConnected) (unpaused : row.paused = false)
    (live : row.retiredAt = none)
    (peeked : answer (peekMatched r row.capabilities policy projects) hub = .ok entries)
    (mem : entry ∈ entries) (unpinned : hub.Unpinned entry.chunkId)
    (unarmed : ∀ kind, kind = .claimRunnerRetired ∨ kind = .claimRunnerVersionRefused →
      lever hub.levers kind (some entry.chunkId) = none) :
    ∃ chunk response, hub.chunks.get? entry.chunkId = some chunk ∧
      answer (claim entry.chunkId r w es) hub = .ok response ∧
      response.envelope.node.nodeId = chunk.currentOrEntry := by
  obtain ⟨chunk, filed, offered⟩ := offered_of_peekMatched added peeked mem
  rw [← filed] at unpinned unarmed ⊢
  have placed := reachable_placed reachable _ chunk offered.held
  have open' := ChunkState.not_settled_of_ready offered.ready
  obtain ⟨node, hnode⟩ := Dict.mem_iff.mp (placed.currentOrEntry_mem open')
  obtain ⟨envelope, hok, current⟩ := ChunkState.nodeEnvelope_of_node hnode chunk.latestEpoch
  refine ⟨chunk, ⟨chunk.chunkId, r, w, es, envelope, claimToken chunk chunk.chunkId⟩, offered.held,
    ?_, current⟩
  simp only [claim, answer]
  rw [run_bind_of_read (answer_require offered.held), run_checkPinnedGraph unpinned,
    run_refuseRetiredRunner _ added live, run_refuseByClaimLever _ _ (unarmed _ (.inl rfl)),
    run_refuseByClaimLever _ _ (unarmed _ (.inr rfl)),
    run_refuseClaimant added registered unpaused offered, hok]
  rfl

end

end MockHubService

section

attribute [local instance] Platform.plain

open MockHubService

def harness : RunnerCapability := { harnessId := "h", default := true }

def readyToClaim : MockHubService :=
  after [.registry (.addRunner "ann" firstTenantId (some "r") (some "t") none none),
    .registry (.register "r" { workspaceId := "w", capabilities := [harness] }),
    .seedChunk { chunkId := some "c", entry := "build", nodes := .ofList [("build", {})] }]
      (fresh .still)

theorem offered_claim_succeeds_ready :
    ∃ chunk response, readyToClaim.chunks.get? "c" = some chunk ∧
      answer (claim "c" "r" "w" []) readyToClaim = .ok response ∧
      response.envelope.node.nodeId = chunk.currentOrEntry := by
  have added : readyToClaim.store.runners.get? "r" = some _ := rfl
  have peeked : answer (peekMatched "r" [harness] "hold" none) readyToClaim = .ok [_] := rfl
  refine offered_claim_succeeds
    (reachable_run _ _) added ?_ rfl rfl peeked List.mem_cons_self rfl ?_
  · decide
  · intro kind _
    rfl

end

end BlizzardMock.MockHub
