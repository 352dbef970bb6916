import BlizzardMock.MockHub.Service.Base

namespace BlizzardMock.MockHub

open Method

def ChunkSpec.seeded (spec : ChunkSpec) (chunkId projectId : String) : ChunkState where
  chunkId := chunkId
  projectId := projectId
  graphId := spec.graphId
  graphName := spec.graphName
  defaultModel := spec.defaultModel
  defaultEffort := spec.defaultEffort
  defaultHarnesses := spec.defaultHarnesses
  entry := spec.entry
  nodes := spec.nodes
  workRefs := spec.workRefs
  graphArtifacts := spec.graphArtifacts
  gardenRun := spec.gardenRun
  gardenProposals := spec.gardenProposals
  status := spec.status

namespace ChunkState

variable [Unicode] (chunk : ChunkState)

def appliedKey (fromNodeId : String) (epoch : Int) : String := fromNodeId ++ "#" ++ toString epoch

def resolveChoice (node : NodeSpec) (choice : String) : Option String :=
  (node.choices.find? (·.name = choice)).map ChoiceSpec.to

def workRefView (ref : WorkRefSpec) : WorkRefView where
  source := ref.source
  ref := ref.ref
  label :=
    if ref.source = reservedHubSourceName then "hub:" ++ ref.ref else ref.source ++ "#" ++ ref.ref

def nodeEnvelope (nodeId : String) (epoch : Int) : Except HubError NodeEnvelope :=
  match chunk.node nodeId with
  | none =>
    .error (.chunkNotFound ("node " ++ reprStr nodeId ++ " missing from chunk " ++ chunk.chunkId))
  | some node =>
    .ok {
      chunkId := chunk.chunkId
      graphId := chunk.graphId
      graphName := chunk.graphName
      epoch := epoch
      node := {
        nodeId := nodeId
        nodeName := nodeId
        executor := node.executor
        session := node.session
        sessionSource := node.sessionSource
        sessionName := node.sessionName
        sessionModel := node.sessionModel
        sessionEffort := node.sessionEffort
        sessionHarnesses := node.sessionHarnesses
        sessionCompactionWindow := node.sessionCompactionWindow
        sessionRotate := node.sessionRotate
        judgedBy := node.judgedBy
        checks := node.checks
        checksCwd := node.checksCwd
        checksTimeout := node.checksTimeout
        produces := node.produces
        retriesMax := node.retriesMax
        choices := node.choices.map fun c => ⟨c.name, c.description, c.requiresChecks⟩ }
      prompt := node.prompt
      judgementPrompt := node.judgementPrompt
      workRefs := chunk.workRefs.map workRefView
      graphArtifacts := chunk.graphArtifacts.map fun a => ⟨a.name, "asset", a.content⟩ }

def failed (detail : String) : ApplyResponse := { outcome := .failure, detail := some detail }

def rebuild (outcome : ApplyOutcome) : Except HubError ApplyResponse :=
  let again : ApplyResponse := { outcome := outcome, detail := some "idempotent re-apply" }
  if outcome = .next then
    match chunk.currentNodeId with
    | none => .ok again
    | some nodeId =>
      (chunk.nodeEnvelope nodeId chunk.latestEpoch).map fun envelope =>
        { outcome := outcome, nextEnvelope := some envelope }
  else .ok again

def completionTarget (openQuestionIds : List String) (epoch : Int) (fromNodeId choice : String) :
    Except String String :=
  if epoch < chunk.latestEpoch then
    .error ("stale epoch " ++ toString epoch ++ " < " ++ toString chunk.latestEpoch)
  else
    match chunk.incoherentAttempt fromNodeId epoch openQuestionIds with
    | some incoherent => .error incoherent
    | none =>
      match chunk.node fromNodeId with
      | none => .error ("unknown node " ++ reprStr fromNodeId)
      | some node =>
        match chunk.hubExecuted fromNodeId with
        | some detail => .error detail
        | none =>
          match resolveChoice node choice with
          | none => .error ("unknown choice " ++ reprStr choice ++ " at " ++ reprStr fromNodeId)
          | some target => .ok target

def advance (target : String) : ChunkState × Except HubError ApplyResponse :=
  if target = terminal then
    ({ chunk with status := .done, currentNodeId := some terminal },
      .ok { outcome := .done, detail := some "reached terminal" })
  else
    match chunk.node target with
    | none => (chunk, .ok (failed ("choice points at unknown node " ++ reprStr target)))
    | some node =>
      if node.executor = .hub then
        ({ chunk with status := .done, currentNodeId := some target },
          .ok { outcome := .hubNodeTaken, detail := some "hub node took over" })
      else
        ({ chunk with status := .running, currentNodeId := some target },
          (chunk.nodeEnvelope target chunk.latestEpoch).map fun envelope =>
            { outcome := .next, nextEnvelope := some envelope })

/-- What `apply_completion` records of a step under its key. -/
def recorded (key : String) (response : ApplyResponse) : ChunkState :=
  { chunk with
    applied := chunk.applied.set key response.outcome
    lastResponse := some response }

def decisionRefusal (openQuestionIds : List String) (epoch : Int) (fromNodeId : String) :
    Option String :=
  if epoch < chunk.latestEpoch then
    some ("stale epoch " ++ toString epoch ++ " < " ++ toString chunk.latestEpoch)
  else chunk.incoherentAttempt fromNodeId epoch openQuestionIds

/-- Whether `hub_advance` finds the chunk at a hub command node. -/
def ParkedAtHubNode : Prop :=
  (chunk.currentNodeId.bind chunk.node).any (·.executor = .hub) ∧ chunk.status ≠ .done

instance : Decidable chunk.ParkedAtHubNode := inferInstanceAs (Decidable (_ ∧ _))

def paused : ChunkState :=
  if chunk.status = .paused then chunk
  else { chunk with
    statusBeforePause := some chunk.status
    status := statusIfPaused chunk.status }

def resumed : ChunkState :=
  { chunk with
    status :=
      if chunk.status = .paused then chunk.statusBeforePause.getD .ready else chunk.status
    statusBeforePause := none }

end ChunkState

namespace MockHubService

def given (value : Option String) : Option String := value.filter (· ≠ "")

def checkPinnedGraph (chunkId : String) : HubM Unit := do
  whenSome (fun lever => do
    consumeLever lever
    raise .pinnedGraphMissing) (← findLever .pinnedGraphMissing (some chunkId))

def claimLeverNames (lever : Lever) (runnerId : String) : Bool :=
  match Json.lookup "runner_id" lever.payload with
  | none => true
  | some (.str r) => r = runnerId
  | some _ => false

def refuseByClaimLever (kind : HubLever) (chunkId runnerId detail : String) : HubM Unit := do
  let lever ← findLever kind (some chunkId)
  whenSome (fun lever => do
    consumeLever lever
    raise (.claimRunnerLeverRefusal kind.value runnerId detail))
    (lever.filter (claimLeverNames · runnerId))

def refuseRetiredRunner (runnerId action : String) : HubM Unit := do
  let row ← readStore (·.runners.get? runnerId)
  refuseIf (row.any (·.retiredAt.isSome)) (.runnerRetired runnerId (some action))

def capabilityDenialDetail : String :=
  "runner capabilities no longer satisfy the chunk's reachable lineage"

def openQuestionIds (store : HubRows) (chunkId : String) (epoch : Int) : List String :=
  (store.questions.rows.filter fun q => q.chunkId = chunkId ∧ q.epoch = epoch ∧ ¬ q.answered).map
    (·.questionId)

def chunkSummary (store : Registry) (chunk : ChunkState) : ChunkSummary :=
  let live := chunk.claimed ∧ ¬ chunk.Ended
  { chunkId := chunk.chunkId
    graphId := chunk.graphId
    graphName := chunk.graphName
    status := chunk.status.value
    terminal := chunk.status.Terminal
    promotable := chunk.status = .notReady
    currentNodeId := chunk.currentNodeId
    workRefs := chunk.workRefs
    defaultModel := chunk.defaultModel
    defaultEffort := chunk.defaultEffort
    defaultHarnesses := chunk.defaultHarnesses
    runnerId := if live then chunk.routeRunnerId else none
    runnerName := if chunk.claimed then runnerName store chunk.routeRunnerId else none
    workspaceId := if live then chunk.routeWorkspaceId else none
    environmentCount := if live then chunk.routeEnvironmentIds.length else 0
    project := projectFields store chunk.projectId }

variable [Platform]

def chunkIdOr : Option String → HubM String
  | some id => pure id
  | none => do
    let hex ← uuid4Hex
    return "ch_" ++ String.ofList (hex.toList.take 24)

def seedChunk (spec : ChunkSpec) : HubM ChunkState := do
  refuseIf (spec.entry ∉ spec.nodes) (.builtin .valueError)
  let chunkId ← chunkIdOr (given spec.chunkId)
  let projectId := (given spec.projectId).getD firstProjectId
  refuseIf (projectId ∉ (← readStore (·.projects.dict))) (.unknownProjects [projectId])
  let chunk := spec.seeded chunkId projectId
  putChunk chunk
  return chunk

/-- The refusals a claim stands on the runner's registration for: read fresh, never cached from
the peek. -/
def refuseClaimant (chunk : ChunkState) (chunkId runnerId : String) : HubM Unit := do
  let registration ← settle (refuseBrakedRunner (← readStore (·.runners.get? runnerId)) runnerId)
  settle chunk.refuseClaim
  whenSome (fun (blocked : Lever) => do
    consumeLever blocked
    raise (.dependencyUnmet
      (Json.get blocked.payload "prerequisite_chunk_id" (.str "unknown")).text))
    (← findLever .dependencyUnmet (some chunkId))
  refuseIf (chunk.projectId ∉ servedProjectIds registration)
    (.claimIncompatible runnerId "project"
      (← readStore (unservedDetail ·.toRegistry chunk.projectId)))
  refuseIf (Matching.capabilityIneligible chunk chunk.currentOrEntry registration.capabilities)
    (.claimIncompatible runnerId "capability" capabilityDenialDetail)

def claimToken (chunk : ChunkState) (chunkId : String) : String :=
  "mock-route-token-" ++ chunkId ++ "-" ++ toString chunk.latestEpoch

def claim (chunkId runnerId workspaceId : String) (environmentIds : List String) :
    HubM RouteClaimResponse := do
  let chunk ← require chunkId
  checkPinnedGraph chunkId
  refuseRetiredRunner runnerId "claim"
  refuseByClaimLever .claimRunnerRetired chunkId runnerId
    ("runner " ++ runnerId ++ " is retired — claim refused; `reinstate` it first")
  refuseByClaimLever .claimRunnerVersionRefused chunkId runnerId
    ("runner " ++ runnerId ++ " reporting no version is refused by the hub's window: too-old")
  refuseClaimant chunk chunkId runnerId
  putChunk (chunk.claimedBy runnerId workspaceId environmentIds chunk.currentOrEntry
    (claimToken chunk chunkId))
  -- the route is written before the envelope is built
  let envelope ← settle (chunk.nodeEnvelope chunk.currentOrEntry chunk.latestEpoch)
  return ⟨chunkId, runnerId, workspaceId, environmentIds, envelope, claimToken chunk chunkId⟩

def rekeyRouteToken (chunkId runnerId : String) : HubM RouteTokenRekeyResponse := do
  let held ← readStore (·.chunks.get? chunkId)
  let chunk ← orRaise (.chunkNotFound ("chunk " ++ chunkId ++ " has no live route"))
    (held.filter (·.claimed))
  refuseIf (chunk.routeRunnerId ≠ some runnerId)
    (.rekeyNotHolder ("token belongs to runner " ++ reprStr runnerId ++ ", not " ++
      chunk.routeRunnerId.elim "None" reprStr))
  settle chunk.refuseRekey
  let count := chunk.routeTokenRekeyCount + 1
  let routeToken := "mock-route-token-" ++ chunkId ++ "-" ++
    toString chunk.latestEpoch ++ "-rekey" ++
    toString count
  putChunk { chunk with routeTokenRekeyCount := count, liveRouteToken := some routeToken }
  return ⟨chunkId, routeToken⟩

/-- Why the `enforce_release_route_token` lever refuses a release, or `none`. -/
def releaseTokenRefusal (chunk : ChunkState) (runnerId : String) (routeToken : Option String) :
    Option String :=
  if ¬ chunk.claimed ∨ chunk.liveRouteToken = none then
    some "chunk has no live route — nothing to authorize this write against"
  else if routeToken ≠ chunk.liveRouteToken then
    some "route token missing or does not match the chunk's live route"
  else if some runnerId ≠ chunk.routeRunnerId then
    some ("runner_id " ++ reprStr runnerId ++ " does not hold the chunk's live route")
  else none

def release (chunkId runnerId : String) (epoch : Int) (reason : String)
    (routeToken : Option String) : HubM ReleaseResponse := do
  let chunk ← require chunkId
  let enforced ← findLever .enforceReleaseRouteToken (some chunkId)
  whenSome (fun _ => whenSome
      (fun detail => raise (.releaseNotHolder chunkId runnerId (some detail)))
      (releaseTokenRefusal chunk runnerId routeToken)) enforced
  settle (chunk.refuseRelease runnerId epoch)
  let chunk := chunk.released runnerId epoch reason
  putChunk { chunk with liveRouteToken := none }
  return ⟨chunkId, chunk.releases.length⟩

def pauseChunk (chunkId : String) : HubM ChunkSummary := do
  let chunk ← require chunkId
  refuseIf (¬ chunk.status.Pausable)
    (.chunkNotPausable ("chunk " ++ chunkId ++ " is " ++ chunk.status.value ++ ", not pausable"))
  putChunk chunk.paused
  readStore (chunkSummary ·.toRegistry chunk.paused)

def resumeChunk (chunkId : String) : HubM ChunkSummary := do
  let chunk ← require chunkId
  putChunk chunk.resumed
  readStore (chunkSummary ·.toRegistry chunk.resumed)

/-- `apply_completion` past the `replay` lever. -/
def judgeCompletion (chunk : ChunkState) (openIds : List String) (epoch : Int)
    (fromNodeId choice : String) : HubM ApplyResponse :=
  match chunk.applied.get? (ChunkState.appliedKey fromNodeId epoch) with
  | some outcome => settle (chunk.rebuild outcome)
  | none =>
    match chunk.completionTarget openIds epoch fromNodeId choice with
    | .error detail => return ChunkState.failed detail
    | .ok target => do
      putChunk (chunk.advance target).1
      let response ← settle (chunk.advance target).2
      putChunk ((chunk.advance target).1.recorded (ChunkState.appliedKey fromNodeId epoch) response)
      return response

def applyCompletion (chunkId : String) (epoch : Int) (fromNodeId choice : String) :
    HubM ApplyResponse := do
  let chunk ← require chunkId
  checkPinnedGraph chunkId
  let replay ← findLever .replay (some chunkId)
  let openIds ← readStore (openQuestionIds · chunkId epoch)
  match replay, chunk.lastResponse with
  | some lever, some response => do
    -- a duplicate delivery: the previous response, no second advance
    consumeLever lever
    return response
  | _, _ => judgeCompletion chunk openIds epoch fromNodeId choice

def applyDecision (chunkId : String) (epoch : Int) (fromNodeId : String) : HubM ApplyResponse := do
  let chunk ← require chunkId
  checkPinnedGraph chunkId
  let openIds ← readStore (openQuestionIds · chunkId epoch)
  match chunk.decisionRefusal openIds epoch fromNodeId with
  | some detail => return ChunkState.failed detail
  | none => do
    putChunk { chunk with status := .needsHuman }
    return { outcome := .parkedAtGate, detail := some "parked at gate" }

def hubAdvance (chunkId : String) : HubM HubAdvanceResponse := do
  let chunk ← require chunkId
  checkPinnedGraph chunkId
  if chunk.ParkedAtHubNode then do
    putChunk { chunk with status := .done }
    return ⟨chunkId, ChunkStatus.done.value, true, "hub node advanced to done"⟩
  else return ⟨chunkId, chunk.status.value, false, "not parked at a hub command node"⟩

def stopChunk (chunkId : String) : HubM Unit := do
  let chunk ← require chunkId
  putChunk { chunk with status := .stopped, claimed := false }

def answerQuestion (questionId answer answeredBy : String) : HubM Unit := do
  let held ← readStore (·.questions.get? questionId)
  let question ← orRaise (.questionNotFound ("unknown question " ++ questionId)) held
  let instant ← now
  putQuestion { question with
    answered := true
    answer := some answer
    answeredBy := some answeredBy
    answeredAt := some instant.isoformat }

def popDropAck (chunkId : String) : HubM Bool := do
  let lever ← findLever .dropAck (some chunkId)
  whenSome consumeLever lever
  return lever.isSome

end MockHubService

end BlizzardMock.MockHub
