import BlizzardMock.MockHub.Service.Registry

namespace BlizzardMock.MockHub

open Method

def otherRunnerId : String := "rn_00000000000000000000000000"

def credentialLapsedCondition : String := "credential_lapsed"

def lapsed (sample : Option SubscriptionUsageView) (miss : Option SubscriptionUsageMiss) :
    Except PyError Bool :=
  match miss with
  | none => .ok false
  | some miss =>
    if miss.reason ≠ credentialLapsedCondition then .ok false
    else
      match sample.bind (·.sampledAt) with
      | none => .ok true
      | some sampledAt => do miss.missedAt.after (← DateTime.fromisoformat sampledAt)

def withCondition (view : SubscriptionUsageView) (lapsed : Bool)
    (miss : Option SubscriptionUsageMiss) : SubscriptionUsageView :=
  { view with
    condition := if lapsed then some credentialLapsedCondition else none
    missReason := miss.map (·.reason)
    missedAt := miss.map (·.missedAt.isoformat) }

def rosterView (reported : ReportedRunnerFacts) (declaration : DeclaredSubscription) :
    Except PyError SubscriptionUsageView := do
  let sample := reported.subscriptionUsage.get? declaration.slug
  let miss := reported.subscriptionUsageMisses.get? declaration.slug
  let lapse ← lapsed sample miss
  return withCondition {
    slug := declaration.slug
    name := declaration.name
    sampledAt := sample.bind (·.sampledAt)
    windows := (sample.map (·.windows)).getD [] } lapse miss

def rosterViews (roster : List DeclaredSubscription) (reported : ReportedRunnerFacts) :
    Except PyError (List SubscriptionUsageView) :=
  -- a duplicate declared slug collapses, the first wins
  let declared := roster.foldl (fun d s => d.setdefault s.slug s)
    (∅ : Dict String DeclaredSubscription)
  (declared.values.insertionSort fun a b => a.slug ≤ b.slug).mapM (rosterView reported)

def reportedView (reported : ReportedRunnerFacts) (slug : String) :
    Except PyError (Option SubscriptionUsageView) := do
  let sample := reported.subscriptionUsage.get? slug
  let miss := reported.subscriptionUsageMisses.get? slug
  let lapse ← lapsed sample miss
  match sample, miss with
  | some sample, miss => return some (withCondition sample lapse miss)
  | none, some miss =>
    if lapse then
      return some (withCondition
        { slug := slug, name := miss.name, sampledAt := none, windows := [] }
        lapse (some miss))
    else return none
  | none, none => return none

def reportedViews (reported : ReportedRunnerFacts) :
    Except PyError (List SubscriptionUsageView) := do
  let slugs := (reported.subscriptionUsage.keys ++ reported.subscriptionUsageMisses.keys).eraseDups
  let views ← (slugs.insertionSort (· ≤ ·)).mapM (reportedView reported)
  return views.filterMap id

def usageConditionViews (reported : ReportedRunnerFacts)
    (declaredSubscriptions : Option (List DeclaredSubscription)) :
    Except PyError (List SubscriptionUsageView) :=
  match declaredSubscriptions with
  | some roster => rosterViews roster reported
  | none => reportedViews reported

def onlySlug {ν : Type} (d : Dict String ν) (slug : Option String) : Dict String ν :=
  match slug with
  | none => ∅
  | some slug => ((d.get? slug).map fun v => (∅ : Dict String ν).set slug v).getD ∅

def runnerSubscriptions (store : Registry) (row : RunnerRow)
    (reported : ReportedRunnerFacts) : Except PyError (List SubscriptionUsageView) :=
  match row.hostId.bind store.hosts.get? with
  | none => usageConditionViews reported row.declaredSubscriptions
  | some host =>
    usageConditionViews {
        subscriptionUsage := onlySlug host.subscriptionUsage row.subscription
        subscriptionUsageMisses := onlySlug host.subscriptionUsageMisses row.subscription }
      (some (host.subscriptions.filter fun d => some d.slug = row.subscription))

namespace MockHubService

variable [Platform]

def readyChunks (store : HubRows) : List ChunkState :=
  store.chunks.rows.filter fun c => ¬ c.claimed ∧ c.status = .ready

def peekEntry (store : Registry) (levers : InMemoryLeverStore) (position : Nat)
    (chunk : ChunkState) : QueuePeekEntry where
  chunkId := chunk.chunkId
  graphId := chunk.graphId
  position := position
  workRefs := chunk.workRefs
  blocked := blockedMarking levers chunk.chunkId
  project := projectFields store chunk.projectId

def peekProject : Option String → Option String → HubM (Option String)
  | some runnerId, some project => do
    let row ← added runnerId
    let resolved ← readStore (resolveProject ·.toRegistry row.tenantId project)
    let resolved ← orRaise (.unknownProjects [project]) resolved
    return some resolved.projectId
  | _, _ => return none

def peek (runnerId project : Option String) : HubM (List QueuePeekEntry) := do
  let projectId ← peekProject runnerId project
  let levers ← readLevers id
  readStore fun store =>
    ((readyChunks store).zipIdx.filter fun c => projectId.all (· = c.1.projectId)).map fun c =>
      peekEntry store.toRegistry levers c.2 c.1

def unusable (levers : InMemoryLeverStore) (capabilities : List RunnerCapability)
    (chunk : ChunkState) : Bool :=
  (blockedMarking levers chunk.chunkId).isSome ||
    Matching.capabilityIneligible chunk chunk.currentOrEntry capabilities

/-- The loop of `peek_matched` over the ready order, `stopped` being the projects it holds. -/
def selectMatched (levers : InMemoryLeverStore) (capabilities : List RunnerCapability)
    (policy : Matching.QueueMatchPolicy) (served : List String) (filtered : Bool) :
    List (ChunkState × Nat) → List String → Option (ChunkState × Nat)
  | [], _ => none
  | (chunk, position) :: rest, stopped =>
    if chunk.projectId ∉ served ∨ chunk.projectId ∈ stopped then
      selectMatched levers capabilities policy served filtered rest stopped
    else if ¬ unusable levers capabilities chunk then some (chunk, position)
    else if policy = .hold then
      if ¬ filtered then none
      else selectMatched levers capabilities policy served filtered rest
        (chunk.projectId :: stopped)
    else selectMatched levers capabilities policy served filtered rest stopped

def matchedChunk (store : HubRows) (levers : InMemoryLeverStore) (row : RunnerRow)
    (capabilities : List RunnerCapability) (policy : String) (projects : Option (List String)) :
    Option (ChunkState × Nat) :=
  selectMatched levers capabilities (.of policy) (offeredProjectIds store.toRegistry row projects)
    projects.isSome (readyChunks store).zipIdx []

def peekMatched (runnerId : String) (capabilities : List RunnerCapability) (policy : String)
    (projects : Option (List String)) : HubM (List QueuePeekEntry) := do
  let row ← added runnerId
  let levers ← readLevers id
  readStore fun store =>
    ((matchedChunk store levers row capabilities policy projects).map fun c =>
      { peekEntry store.toRegistry levers c.2 c.1 with blocked := none }).toList

def summaryOf (store : HubRows) (tenantId : String) : FleetSummary :=
  let projects := (tenantProjects store.toRegistry tenantId).map ProjectRow.projectId
  let held := store.chunks.rows.filter fun c => c.projectId ∈ projects
  let count := fun statuses : List ChunkStatus => (held.filter fun c => c.status ∈ statuses).length
  ⟨count [.ready], count [.running, .delivering], count [.paused], count [.needsHuman]⟩

def fleetSummary (runnerId : String) : HubM FleetSummary := do
  let row ← added runnerId
  readStore (summaryOf · row.tenantId)

def requireRunnerChunk (chunkId runnerId : String) : HubM ChunkState := do
  let chunk ← require chunkId
  let unknown : HubError := .chunkNotFound ("unknown chunk " ++ chunkId)
  let project ← orRaise unknown (← readStore (·.projects.get? chunk.projectId))
  let row ← added runnerId
  refuseIf (project.tenantId ≠ row.tenantId) unknown
  return chunk

def refuseForeignRunnerChunk (chunkId runnerId : String) : HubM Unit := do
  let held ← readStore (·.chunks.get? chunkId)
  whenSome (fun _ => do
    let _ ← requireRunnerChunk chunkId runnerId
    return ()) held

def consultChunkUnknown (chunkId : String) : HubM Unit := do
  whenSome (fun lever => do
    consumeLever lever
    raise (.chunkNotFound ("unknown chunk " ++ chunkId))) (← findLever .chunkUnknown (some chunkId))

/-- The runner a `conflicting_fact` lever reports a route to be held by. -/
def conflictingRunner (lever : Lever) : String :=
  (Json.get lever.payload "runner_id" (.str otherRunnerId)).text

/-- The holder a route is reported under: the `conflicting_fact` lever's, while it is armed. -/
def reportedHolder (chunkId : String) (holder : Option String) : HubM (Option String) := do
  let conflict ← findLever .conflictingFact (some chunkId)
  whenSome consumeLever conflict
  return conflict.elim holder fun lever => some (conflictingRunner lever)

def questionViewOf (store : HubRows) (q : QuestionState) : QuestionView where
  questionId := q.questionId
  chunkId := q.chunkId
  nodeId := q.nodeId
  sessionId := q.sessionId
  harnessId := q.harnessId
  runnerId := q.runnerId
  runnerName := runnerName store.toRegistry (some q.runnerId)
  epoch := q.epoch
  question := q.question
  options := q.options
  askedAt := q.askedAt
  answered := q.answered
  answer := q.answer
  answeredBy := q.answeredBy
  answeredAt := q.answeredAt
  delivered := q.delivered
  deliveredAt := q.deliveredAt
  superseded := false
  project := (store.chunks.get? q.chunkId).map fun c => projectFields store.toRegistry c.projectId

def routeViewOf (store : Registry) (chunk : ChunkState) (holder : String) : RouteView where
  runnerId := holder
  runnerName := runnerName store (some holder)
  workspaceId := chunk.routeWorkspaceId.getD ""
  environmentIds := chunk.routeEnvironmentIds

def chunkDetailOf (store : HubRows) (chunk : ChunkState) (route : Option RouteView) :
    ChunkDetail where
  chunkId := chunk.chunkId
  graphId := chunk.graphId
  status := chunk.status.value
  currentNodeId := chunk.currentNodeId
  -- epoch zero is falsy
  latestEpoch := if chunk.latestEpoch = 0 then none else some chunk.latestEpoch
  workRefs := chunk.workRefs
  defaultModel := chunk.defaultModel
  defaultEffort := chunk.defaultEffort
  defaultHarnesses := chunk.defaultHarnesses
  route := route
  pausable := chunk.status.Pausable
  statusIfPaused := (statusIfPaused chunk.status).value
  completable := chunk.status ≠ .done
  deletable := chunk.status.PreClaim
  deleteRefusal := if chunk.status.PreClaim then none else some .status
  promotable := chunk.status = .notReady
  graphEditable := chunk.status.PreClaim ∧ chunk.currentNodeId = none
  terminal := chunk.status.Terminal
  currentNodeTerminal := chunk.currentNodeId = some terminal
  escalation := chunk.escalation.map fun e =>
    ⟨e.epoch, e.takeoverCommand, e.wrappedTakeoverCommand, e.cause, e.detail⟩
  questions := (store.questions.rows.filter fun q => q.chunkId = chunk.chunkId).map
    (questionViewOf store)
  project := projectFields store.toRegistry chunk.projectId

def chunkDetail (chunkId runnerId : String) : HubM ChunkDetail := do
  let chunk ← requireRunnerChunk chunkId runnerId
  consultChunkUnknown chunkId
  if chunk.claimed then do
    let holder ← reportedHolder chunkId (some (chunk.routeRunnerId.getD ""))
    readStore fun store =>
      chunkDetailOf store chunk (holder.map (routeViewOf store.toRegistry chunk))
  else readStore (chunkDetailOf · chunk none)

def statusViewOf (store : Registry) (chunk : ChunkState) (holder : Option String) :
    ChunkStatusView where
  chunkId := chunk.chunkId
  status := chunk.status.value
  routeRunnerId := holder
  latestEpoch := if chunk.latestEpoch = 0 then none else some chunk.latestEpoch
  project := projectFields store chunk.projectId

/-- A known chunk's status view; the `chunk_unknown` lever leaves the chunk out. -/
def statusOfChunk (chunkId : String) (chunk : ChunkState) : HubM (Option ChunkStatusView) := do
  match ← findLever .chunkUnknown (some chunkId) with
  | some unknown => do
    consumeLever unknown
    return none
  | none =>
    if chunk.claimed then do
      let holder ← reportedHolder chunkId chunk.routeRunnerId
      readStore fun store => some (statusViewOf store.toRegistry chunk holder)
    else readStore fun store => some (statusViewOf store.toRegistry chunk none)

def chunkStatus (runnerId chunkId : String) : HubM (Option ChunkStatusView) := do
  let held ← readStore fun store => (store.chunks.get? chunkId).bind fun chunk =>
    (store.projects.get? chunk.projectId).map fun project => (chunk, project)
  match held with
  | none => return none
  | some (chunk, project) => do
    let row ← added runnerId
    if project.tenantId ≠ row.tenantId then return none else statusOfChunk chunkId chunk

def chunkStatuses (chunkIds : List String) (runnerId : String) : HubM (List ChunkStatusView) :=
  collect (chunkStatus runnerId) chunkIds.eraseDups

def envelope (chunkId : String) : HubM NodeEnvelope := do
  consultChunkUnknown chunkId
  let chunk ← require chunkId
  checkPinnedGraph chunkId
  settle chunk.refuseEnvelope
  let stale ← findLever .staleEnvelope (some chunkId)
  whenSome consumeLever stale
  let epoch := if stale.isSome then max (chunk.latestEpoch - 1) 0 else chunk.latestEpoch
  settle (chunk.nodeEnvelope chunk.currentOrEntry epoch)

def workItems (chunkId : String) : HubM (List WorkItemEntry) := do
  let chunk ← require chunkId
  let instant ← now
  return chunk.workRefs.map fun p =>
    ⟨p.source, p.ref, p.source = reservedHubSourceName, instant.isoformat,
      "mock item " ++ p.source ++ "#" ++ p.ref⟩

def questionView (questionId runnerId : String) : HubM QuestionView := do
  let unknown : HubError := .questionNotFound ("unknown question " ++ questionId)
  let question ← orRaise unknown (← readStore (·.questions.get? questionId))
  let _ ← rethrow (fun e => match e with
    | .chunkNotFound _ => unknown
    | e => e) (requireRunnerChunk question.chunkId runnerId)
  readStore (questionViewOf · question)

def runnerViewOf (store : Registry) (row : RunnerRow) (registeredAt : DateTime)
    (reported : ReportedRunnerFacts) : Except HubError RunnerView := do
  let subscriptions ← (runnerSubscriptions store row reported).mapError .builtin
  -- the view admits a text or nothing where the fact carried any JSON
  let reason ← textOrNone reported.locallyPausedReason
  return {
    runnerId := row.runnerId
    runnerName := row.name
    workspaceId := row.workspaceId.getD ""
    registeredAt := registeredAt.isoformat
    lastSeenAt := (row.lastSeenAt.getD registeredAt).isoformat
    online := true
    hubPaused := row.paused
    locallyPaused := reported.locallyPaused
    locallyPausedBy := reported.locallyPausedBy
    locallyPausedReason := reason
    envCapacity := row.envCapacity
    agents := row.agents
    subscriptions := subscriptions
    capabilities := row.capabilities.map fun c =>
      ⟨c.harnessId, c.version, c.tiers, c.supportedModels, c.default, c.available⟩
    gates := row.gates
    projects := servedViews store row
    bindings := (bindingViews store row).1
    subscription := row.subscription
    subscriptionUnrostered := (bindingViews store row).2
    declining := row.declining }

def runnerView (runnerId : String) : HubM (Option RunnerView) := do
  match ← readStore (·.runners.get? runnerId) with
  | none => return none
  | some row => do
    let registeredAt ← orRaise (.runnerNeverConnected runnerId) row.registeredAt
    let reported ← reportedFacts runnerId
    let view ← readStore (runnerViewOf ·.toRegistry row registeredAt reported)
    let view ← settle view
    return some view

def fleetFlags (levers : InMemoryLeverStore) : List (String × Bool) :=
  match lever levers .fleetFlags none with
  | none => []
  | some lever => lever.payload.map fun f => (f.1, f.2.truthy)

def identityOf (store : Registry) (levers : InMemoryLeverStore) (token : String) :
    Except HubError RunnerIdentityView :=
  match store.runnerForToken token with
  | some row =>
    if row.retiredAt.isSome then .error (.runnerTokenRefused "retired" (some row.runnerId))
    else .ok ⟨row.runnerId, row.name, row.tenantId, tenantName store row.tenantId,
      fleetFlags levers⟩
  | none =>
    match (store.revokedTokens.get? token).bind store.runners.get? with
    | none => .error (.runnerTokenRefused "unknown" none)
    | some row =>
      .error (.runnerTokenRefused (if row.retiredAt.isSome then "retired" else "revoked")
        (some row.runnerId))

def identity : Option String → HubM RunnerIdentityView
  | none => raise (.runnerTokenRefused "missing" none)
  | some token => do
    let levers ← readLevers id
    settle (← readStore (identityOf ·.toRegistry levers token))

def missingAuthorization : String := "missing or malformed Authorization header"
def revokedBearerToken : String := "bearer token has been revoked"

def principalOf (store : Registry) (token : String) : Except HubError String :=
  match store.runnerForToken token with
  | some row => .ok row.runnerId
  | none =>
    if token ∈ store.revokedTokens then .error (.unresolvableRunner revokedBearerToken)
    else .error (.unresolvableRunner "bearer token does not resolve to a known runner")

def principal : Option String → HubM String
  | none => raise (.unresolvableRunner missingAuthorization)
  | some token => do settle (← readStore (principalOf ·.toRegistry token))

def hostPrincipalOf (store : Registry) (token : String) : Except HubError String :=
  match store.hostForToken token with
  | some row => if row.retiredAt.isSome then .error (.hostRetired row.hostId) else .ok row.hostId
  | none =>
    if token ∈ store.revokedHostTokens then .error (.unresolvableHost revokedBearerToken)
    else .error (.unresolvableHost "bearer token does not resolve to a known host")

def hostPrincipal : Option String → HubM String
  | none => raise (.unresolvableHost missingAuthorization)
  | some token => do settle (← readStore (hostPrincipalOf ·.toRegistry token))

def bootstrapCredential (token : Option String) : HubM (Option String × Option String) :=
  readStore fun store =>
    match token with
    | none => (none, none)
    | some token =>
      match store.runnerForToken token with
      | some row => (some row.runnerId, none)
      | none => (none, (store.hostForToken token).map (·.tenantId))

def refuseForeignTenant (runnerId : String) (named : Option String) : HubM Unit := do
  whenSome (fun tenantId => do
    let row ← added runnerId
    refuseIf (tenantId ≠ row.tenantId) .foreignTenantNamed) (given named)

def refuseForeignHostTenant (hostId : String) (named : Option String) : HubM Unit := do
  whenSome (fun tenantId => do
    let row ← host hostId
    refuseIf (tenantId ≠ row.tenantId) .foreignTenantNamed) (given named)

def operatorRole : String := "admin"

def meOf (store : Registry) (named : Option String) : MeView :=
  let rows := store.tenants.rows.insertionSort fun a b => a.tenantId ≤ b.tenantId
  let tenants : List MeTenantView := rows.map fun row => ⟨row.tenantId, row.name, operatorRole⟩
  let resolved := match given named with
    | some id => tenants.find? fun (t : MeTenantView) => t.tenantId = id
    | none => if tenants.length = 1 then tenants.head? else none
  ⟨resolved.map MeTenantView.role, tenants⟩

def me (named : Option String) : HubM MeView := readStore (meOf ·.toRegistry named)

def seedSystemArtifact (name content : String) : HubM Unit :=
  setRegistry (·.putSystemArtifact name content)

def systemArtifacts : HubM (List (String × String)) := readStore (·.listSystemArtifacts)

def systemArtifact (name : String) : HubM String := do
  orRaise (.systemArtifactNotFound ("no system artifact " ++ reprStr name))
    (← readStore (·.systemArtifacts.get? name))

def createdAtOr : Option String → HubM String
  | some createdAt => pure createdAt
  | none => do
    let instant ← now
    return instant.isoformat

def seedScope (slug description : String) (createdAt : Option String) (retired : Bool) :
    HubM Unit := do
  let createdAt ← createdAtOr (given createdAt)
  setRegistry (·.putScope ⟨slug, description, createdAt, retired⟩)

def scopes (chunkId : Option String) : HubM (List ScopeRow) := do
  whenSome (fun id => do
    let _ ← require id
    return ()) chunkId
  readStore (·.listScopes)

end MockHubService

end BlizzardMock.MockHub
