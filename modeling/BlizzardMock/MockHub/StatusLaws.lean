import BlizzardMock.MockHub.FateLaws

namespace BlizzardMock.MockHub

open Method

def ChunkState.NamesHolder (chunk : ChunkState) : Prop :=
  chunk.claimed = true → ∃ r, chunk.routeRunnerId = some r

def ChunkDetail.statusView (detail : ChunkDetail) : ChunkStatusView where
  chunkId := detail.chunkId
  status := detail.status
  routeRunnerId := detail.route.map (·.runnerId)
  latestEpoch := detail.latestEpoch
  project := detail.project

theorem ChunkStep.namesHolder {hub : MockHubService} {op : Op} {chunk later : ChunkState}
    (step : ChunkStep hub op chunk later) (h : chunk.NamesHolder) : later.NamesHolder := by
  cases step with
  | claimed => exact fun _ => ⟨_, rfl⟩
  | rekeyed => exact h
  | released => exact fun claimed => by cases claimed
  | paused =>
    simp only [ChunkState.paused]
    split <;> exact h
  | resumed => exact h
  | completed takes landing =>
    cases landing <;> exact h
  | decided => exact h
  | advanced => exact h
  | stopped => exact fun claimed => by cases claimed
  | unrouted => exact fun claimed => by cases claimed
  | pushed pushed =>
    rw [pushed.2]
    exact h

namespace MockHubService

variable [Platform]

theorem reachable_namesHolder {hub : MockHubService} (reachable : hub.Reachable) :
    hub.AllChunks ChunkState.NamesHolder :=
  reachable_allChunks (fun _ _ _ _ =>
    fun claimed => by cases claimed) (fun _ _ _ _ step => step.namesHolder) reachable

omit [Platform] in
def unlessFound : HubError → Option (Option ChunkDetail)
  | .chunkNotFound _ => some none
  | _ => none

def readDetail (runnerId chunkId : String) : HubM (Option ChunkDetail) :=
  rescue unlessFound (some <$> chunkDetail chunkId runnerId)

instance (r c : String) : Keeps work (readDetail r c) := by
  simp only [readDetail, chunkDetail]
  infer_instance

def chunkDetails (chunkIds : List String) (runnerId : String) : HubM (List ChunkDetail) :=
  collect (readDetail runnerId) chunkIds.eraseDups

variable {hub : MockHubService} {c r : String} {chunk : ChunkState} {project : ProjectRow}
    {row : RunnerRow}

/-- What becomes of one id before any lever is consulted: its chunk is of the runner's tenant, or
there is none for it, or there is no such runner. -/
inductive Gate (hub : MockHubService) (r c : String) : Prop
  | opened (chunk : ChunkState) (held : hub.store.chunks.get? c = some chunk)
      (detail : (requireRunnerChunk c r).run hub = .ok chunk hub)
      (status : (chunkStatus r c).run hub = (statusOfChunk c chunk).run hub)
  | unknown (detail : (requireRunnerChunk c r).run hub = .error
      (.chunkNotFound ("unknown chunk " ++ c)) hub)
      (status : (chunkStatus r c).run hub = .ok none hub)
  | stranger (detail : (requireRunnerChunk c r).run hub = .error (.unknownRunner r) hub)
      (status : (chunkStatus r c).run hub = .error (.unknownRunner r) hub)

omit [Platform] in
theorem run_raise {α β : Type} (e : HubError) (g : α → HubM β) (hub : MockHubService) :
    ((raise e : HubM α) >>= g).run hub = .error e hub := rfl

theorem gate (hub : MockHubService) (r c : String) : Gate hub r c := by
  cases held : hub.store.chunks.get? c with
  | none =>
    refine .unknown ?_ ?_
    · simp only [requireRunnerChunk, require, bind_assoc, run_readStore, held, orRaise, run_raise]
    · simp only [chunkStatus, run_readStore, held, Option.bind_none]
      rfl
  | some chunk =>
    cases known : hub.store.projects.get? chunk.projectId with
    | none =>
      refine .unknown ?_ ?_
      · simp only [requireRunnerChunk, require, bind_assoc, run_readStore, held, orRaise, pure_bind,
          known, run_raise]
      · simp only [chunkStatus, run_readStore, held, Option.bind_some, known, Option.map_none]
        rfl
    | some project =>
      cases there : hub.store.runners.get? r with
      | none =>
        refine .stranger ?_ ?_
        · simp only [requireRunnerChunk, require, added, bind_assoc, run_readStore, held, orRaise,
            pure_bind, known,
            there, run_raise]
        · simp only [chunkStatus, added, bind_assoc, run_readStore, held, Option.bind_some, known,
            Option.map_some,
            orRaise, there, run_raise]
      | some row =>
        by_cases shared : project.tenantId = row.tenantId
        · refine .opened chunk held ?_ ?_
          · simp only [requireRunnerChunk, require, added, bind_assoc, run_readStore, held, orRaise,
              pure_bind, known,
              there, refuseIf, shared, ne_eq, not_true_eq_false, if_false]
            rfl
          · simp only [chunkStatus, added, bind_assoc, run_readStore, held, Option.bind_some, known,
              Option.map_some,
              orRaise, there, pure_bind, shared, ne_eq, not_true_eq_false, if_false]
        · refine .unknown ?_ ?_
          · simp only [requireRunnerChunk, require, added, bind_assoc, run_readStore, held, orRaise,
              pure_bind, known,
              there, refuseIf, shared, ne_eq, not_false_eq_true, if_true, run_raise]
          · simp only [chunkStatus, added, bind_assoc, run_readStore, held, Option.bind_some, known,
              Option.map_some,
              orRaise, there, pure_bind, shared, ne_eq, not_false_eq_true, if_true]
            rfl

theorem run_readDetail_ok {detail : ChunkDetail} {next : MockHubService}
    (h : (chunkDetail c r).run hub = .ok detail next) : (readDetail r c).run hub = .ok
      (some detail) next := by
  change rescue _ _ hub = _
  rw [rescue, run_map_of_ok h]

theorem run_readDetail_missing {text : String} {next : MockHubService}
    (h : (chunkDetail c r).run hub = .error (.chunkNotFound text) next) : (readDetail r c).run hub =
      .ok none next := by
  change rescue _ _ hub = _
  rw [rescue, run_map_of_error h]
  rfl

theorem run_readDetail_error {e : HubError} {next : MockHubService}
    (h : (chunkDetail c r).run hub = .error e next)
    (other : unlessFound e = none) : (readDetail r c).run hub = .error e next := by
  change rescue _ _ hub = _
  rw [rescue, run_map_of_error h]
  simp only [other]

theorem run_reportedHolder (hub : MockHubService) (c : String) :
    ∃ holder next, next.store = hub.store ∧
    (reportedHolder c (some r)).run hub = .ok (some holder) next := by
  cases conflict : lever hub.levers .conflictingFact (some c) with
  | none =>
    refine ⟨r, hub, rfl, ?_⟩
    rw [reportedHolder, run_findLever, conflict]
    rfl
  | some lever =>
    refine ⟨conflictingRunner lever, { hub with levers := hub.levers.consume lever }, rfl, ?_⟩
    rw [reportedHolder, run_findLever, conflict]
    rfl

theorem run_chunkStatus (named : hub.AllChunks ChunkState.NamesHolder) :
    (chunkStatus r c).run hub = (Option.map ChunkDetail.statusView <$> readDetail r c).run hub := by
  cases gate hub r c with
  | stranger detail status =>
    have failed : (chunkDetail c r).run hub = .error (.unknownRunner r) hub := by
      rw [chunkDetail, EStateM.run_bind, detail]
    rw [status, run_map_of_error (run_readDetail_error failed rfl)]
  | unknown detail status =>
    have missing : (chunkDetail c r).run hub = .error
      (.chunkNotFound ("unknown chunk " ++ c)) hub := by
      rw [chunkDetail, EStateM.run_bind, detail]
    rw [status, run_map_of_ok (run_readDetail_missing missing)]
    rfl
  | opened chunk held detail status =>
    have passed : (chunkDetail c r).run hub = (do
        consultChunkUnknown c
        if chunk.claimed then do
          let holder ← reportedHolder c (some (chunk.routeRunnerId.getD ""))
          readStore fun store =>
            chunkDetailOf store chunk (holder.map (routeViewOf store.toRegistry chunk))
        else readStore (chunkDetailOf · chunk none) : HubM ChunkDetail).run hub := by
      rw [chunkDetail, run_bind_of_run detail]
    rw [status, statusOfChunk, run_findLever]
    cases hidden : lever hub.levers .chunkUnknown (some c) with
    | some lever =>
      have consumed : (chunkDetail c r).run hub = .error (.chunkNotFound ("unknown chunk " ++ c))
          { hub with levers := hub.levers.consume lever } := by
        rw [passed, consultChunkUnknown, bind_assoc, run_findLever, hidden]
        rfl
      rw [run_map_of_ok (run_readDetail_missing consumed)]
      rfl
    | none =>
      rw [consultChunkUnknown, bind_assoc, run_findLever, hidden, run_whenSome_none] at passed
      dsimp only
      cases claimed : chunk.claimed with
      | false =>
        simp only [claimed, Bool.false_eq_true, if_false] at passed ⊢
        rw [run_map_of_ok (run_readDetail_ok passed)]
        rfl
      | true =>
        obtain ⟨holder, routed⟩ := named c chunk held claimed
        obtain ⟨reported, next, same, report⟩ := run_reportedHolder (r := holder) hub c
        simp only [claimed, if_true, routed, Option.getD_some] at passed ⊢
        rw [run_bind_of_run report] at passed
        rw [run_bind_of_run report, run_map_of_ok (run_readDetail_ok passed)]
        rfl

/-- Under any levers, the batch read of chunk statuses answers what one read of the detail for each
id would tell, leaving out the ids whose read finds no chunk, and leaves the hub, its levers with
it, as those reads leave it. -/
theorem chunk_statuses_agree {hub : MockHubService} (reachable : hub.Reachable)
    (levers : InMemoryLeverStore)
    (chunkIds : List String) (runnerId : String) :
    answer (chunkStatuses chunkIds runnerId) { hub with levers := levers } =
        (answer (chunkDetails chunkIds runnerId) { hub with levers := levers }).map
          (·.map ChunkDetail.statusView) ∧
      Method.after (chunkStatuses chunkIds runnerId) { hub with levers := levers } =
        Method.after (chunkDetails chunkIds runnerId) { hub with levers := levers } := by
  have named : MockHubService.AllChunks ChunkState.NamesHolder { hub with levers := levers } :=
    fun id chunk held => reachable_namesHolder reachable id chunk held
  have run : (chunkStatuses chunkIds runnerId).run { hub with levers := levers } =
      (List.map ChunkDetail.statusView <$> chunkDetails chunkIds runnerId).run
        { hub with levers := levers } := by
    refine run_collect_map (fun c s named => run_chunkStatus named) ?_ chunkIds.eraseDups named
    intro c s named
    have kept : (Method.after (readDetail runnerId c) s).work = s.work := Keeps.keeps s
    intro id chunk held
    rw [chunks_of_work kept] at held
    exact named id chunk held
  rw [answer_of_run run, after_of_run run, answer_map, after_map]
  exact ⟨rfl, rfl⟩

end MockHubService

section

attribute [local instance] Platform.plain

open MockHubService

def claimedOnce : MockHubService :=
  after [.registry (.addRunner "ann" firstTenantId (some "r") (some "t") none none),
    .registry (.register "r"
      { workspaceId := "w", capabilities := [{ harnessId := "h", default := true }] }),
    .seedChunk { chunkId := some "c", entry := "build", nodes := .ofList [("build", {})] },
    .claim "c" "r" "w" []] (fresh .still)

def conflictOnce : InMemoryLeverStore :=
  (∅ : InMemoryLeverStore).arm
    { kind := HubLever.conflictingFact.value, chunkId := some "c", remaining := some 1 }

theorem chunk_statuses_agree_claimed :
    answer (chunkStatuses ["c", "d", "c"] "r") { claimedOnce with levers := conflictOnce } =
        (answer (chunkDetails ["c", "d", "c"] "r") { claimedOnce with levers := conflictOnce }).map
          (·.map ChunkDetail.statusView) :=
  (chunk_statuses_agree (reachable_run _ _) conflictOnce _ _).1

example : (answer (chunkStatuses ["c", "d", "c"] "r")
      { claimedOnce with levers := conflictOnce }).toOption.map
    (·.map (·.routeRunnerId)) = some [some otherRunnerId] := by rfl

end

end BlizzardMock.MockHub
