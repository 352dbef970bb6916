import BlizzardMock.MockHub.Service.Transcripts

namespace BlizzardMock.MockHub

open Method

def hubVersion : String := "0.2.0"
def versionWindow : VersionWindowView := ⟨"0.2", "0.2"⟩

structure Registration where
  name : Option String := none
  workspaceId : String
  url : Option String := none
  redirectUris : List String := []
  envCapacity : Option Int := none
  capabilities : List RunnerCapability := []
  subscriptions : Option (List DeclaredSubscription) := none
  gates : List String := []
  projects : Option (List String) := none
  bindings : Option (List RunnerBinding) := none
  subscription : Option String := none
  agents : Option Int := none
  declining : List RunnerDecliningView := []
  version : Option String := none

def RunnerRow.registered (row : RunnerRow) (name : Option String) (reg : Registration)
    (declaration : Option (List ServedEntry)) (instant : DateTime) : RunnerRow :=
  { row with
    registeredAt := row.registeredAt <|> some instant
    lastSeenAt := some instant
    name := name.getD row.name
    workspaceId := some reg.workspaceId
    url := reg.url
    redirectUris := reg.redirectUris
    envCapacity := reg.envCapacity
    capabilities := reg.capabilities
    declaredSubscriptions := reg.subscriptions
    gates := reg.gates
    bindings := reg.bindings
    subscription := reg.subscription
    agents := reg.agents
    declining := reg.declining
    projects := declaration.getD row.projects }

structure HostReport where
  name : Option String := none
  url : Option String := none
  redirectUris : List String := []
  workspaces : List (String × Option Int) := []
  subscriptions : List DeclaredSubscription := []

namespace MockHubService

def firstTenant : TenantRow := ⟨firstTenantId, firstTenantName⟩

def firstProject : ProjectRow :=
  ⟨firstProjectId, firstTenantId, defaultProjectSlug, defaultProjectName⟩

/-- `_found_first_tenant`. -/
def founded (store : Registry) : Registry := (store.putTenant firstTenant).putProject firstProject

def fresh (sources : Sources) : MockHubService where
  store := { toRegistry := founded {} }
  levers := ∅
  sources := sources

def reset : HubM Unit :=
  write fun hub =>
    let store := hub.store.clear
    { hub with
      toBooks := {}
      store := { store with toRegistry := founded store.toRegistry }
      levers := ∅ }

def setPaused (runnerId : String) (paused : Bool) : HubM Unit := do
  let row ← added runnerId
  setRegistry (·.putRunner { row with paused := paused })

def tenantNamed (named : Option String) : HubM String := do
  match given named with
  | some id => do
    let row ← tenant id
    return row.tenantId
  | none => do
    match ← readStore (·.tenants.rows) with
    | [row] => return row.tenantId
    | _ => raise .tenantRequired

def renameTenant (tenantId name : String) : HubM TenantRow := do
  let row ← tenant tenantId
  setRegistry (·.putTenant { row with name := name })
  return { row with name := name }

def setRunnerProjects (runnerId : String) (entries : List String) :
    HubM (List ServedProjectView) := do
  let row ← added runnerId
  let row := { row with projects := ← readStore (declared ·.toRegistry row.tenantId entries) }
  setRegistry (·.putRunner row)
  readStore (servedViews ·.toRegistry row)

def addedDeclaration (store : Registry) (tenantId : String) :
    Option (List String) → Except HubError (List ServedEntry)
  | none =>
    match tenantProjects store tenantId with
    | [project] => .ok [⟨project.projectId, some project.projectId⟩]
    | _ => .ok []
  | some entries =>
    let declaration := declared store tenantId entries
    let unresolved := declaration.filter fun e => e.projectId = none
    if unresolved ≠ [] then .error (.unknownProjects (unresolved.map (·.entry)))
    else .ok declaration

def enroll (runnerId tenantId : String) : HubM RunnerEnrollmentResponse := do
  let row ← added runnerId
  refuseIf (row.tenantId ≠ tenantId) (.unknownRunner runnerId)
  refuseIf (row.retiredAt.isSome) (.runnerRetired runnerId none)
  let secret ← tokenUrlsafe
  let token := "mock-runner-token-" ++ secret
  setRegistry (·.replaceToken runnerId (some token))
  return ⟨runnerId, token⟩

def revokeToken (runnerId : String) : HubM Unit := do
  let row ← added runnerId
  setRegistry (·.replaceToken row.runnerId none)

def retire (runnerId actor : String) : HubM Unit := do
  let row ← added runnerId
  if row.retiredAt.isSome then return ()
  else do
    let instant ← now
    setRegistry (·.putRunner { row with retiredAt := some instant, retiredBy := some actor })
    setRegistry (·.replaceToken runnerId none)

def addRunnerUnderHost (hostId tenantId : String) : HubM HostRow := do
  let row ← readStore (·.hosts.get? hostId)
  let row ← orRaise (.unknownHost hostId) (row.filter (·.tenantId = tenantId))
  refuseIf (row.retiredAt.isSome) (.hostRetired hostId)
  return row

def standingUnder (tenantId : String) : Option String → HubM (Option String)
  | none => return none
  | some hostId => do
    let row ← addRunnerUnderHost hostId tenantId
    return some row.hostId

def tokenOr (kind : String) : Option String → HubM String
  | some token => pure token
  | none => do
    let secret ← tokenUrlsafe
    return kind ++ secret

def hostRecordOf (store : Registry) (row : HostRow) : HostRecordResponse where
  hostId := row.hostId
  tenantId := row.tenantId
  hostName := row.name
  registeredAt := row.registeredAt.map (·.isoformat)
  lastSeenAt := row.lastSeenAt.map (·.isoformat)
  runners := (store.runners.rows.filter fun r =>
    r.hostId = some row.hostId ∧ r.retiredAt = none).map fun r => ⟨r.runnerId, r.name⟩

def hostRecord (hostId : String) : HubM HostRecordResponse := do
  let row ← host hostId
  readStore (hostRecordOf ·.toRegistry row)

def reportedName (store : Registry) (row : HostRow) (name : Option String) : String :=
  let wanted := strip (name.getD "")
  let taken := (tenantHosts store row.tenantId).any fun h =>
    h.name = wanted ∧ h.hostId ≠ row.hostId ∧ h.retiredAt = none
  if wanted ≠ "" ∧ ¬ taken then wanted else row.name

def reportHost (hostId : String) (report : HostReport) : HubM HostRecordResponse := do
  let row ← host hostId
  let name ← readStore (reportedName ·.toRegistry row report.name)
  let instant ← now
  setRegistry (·.putHost { row with
    name := name
    registeredAt := row.registeredAt <|> some instant
    lastSeenAt := some instant
    url := report.url
    redirectUris := report.redirectUris
    workspaces := report.workspaces
    subscriptions := report.subscriptions })
  hostRecord hostId

def heartbeat (runnerId : String) : HubM Bool := do
  match ← readStore (·.runners.get? runnerId) with
  | none => return false
  | some row =>
    if row.NeverConnected then return false
    else do
      let instant ← now
      setRegistry (·.putRunner { row with lastSeenAt := some instant })
      return true

def heldChunks (store : HubRows) (runnerId : String) : List ChunkState :=
  store.chunks.rows.filter fun c => c.claimed ∧ c.routeRunnerId = some runnerId

def holdings (held : List ChunkState) : String :=
  String.intercalate "; " (held.map fun c =>
    let environments := String.intercalate ", " c.routeEnvironmentIds
    c.chunkId ++ " (environments: " ++ (if environments = "" then "none" else environments) ++ ")")

def unroute (chunks : Table ChunkState.chunkId) (held : List ChunkState) :
    Table ChunkState.chunkId :=
  held.foldl (fun table chunk => table.put chunk.unrouted) chunks

/-- Whether the `host_retire_lifecycle_conflict` lever bites: it names this runner or none, and an
interruption needs a held route. -/
def retireConflictBites (lever : Lever) (runnerId : String) (held : List ChunkState) : Bool :=
  (match Json.get lever.payload "runner_id" (.str runnerId) with
    | .str r => r = runnerId
    | _ => false) &&
  (!(Json.get lever.payload "interrupted" (.bool false)).truthy || !held.isEmpty)

def retireHostRunner (hostId runnerId actor : String) (force : Bool) :
    HubM (RunnerRow × List String) := do
  let row ← readStore (·.runners.get? runnerId)
  let runner ← orRaise (.unknownRunner runnerId) (row.filter (·.hostId = some hostId))
  let held ← readStore (heldChunks · runnerId)
  refuseIf (held ≠ [] ∧ ¬ force ∧ runner.retiredAt = none)
    (.runnerHoldsRoutes
      ("runner " ++ runnerId ++ " holds " ++ toString held.length ++ " chunk(s): " ++
      holdings held ++ " — retire with --force to release"))
  let conflict ← findLever .hostRetireLifecycleConflict none
  whenSome (fun lever => do
      consumeLever lever
      if (Json.get lever.payload "interrupted" (.bool false)).truthy then do
        retire runnerId actor
        raise (.runnerRetireInterrupted runnerId)
      else raise (.runnerLifecycleConflict runnerId))
    (conflict.filter (retireConflictBites · runnerId held))
  retire runnerId actor
  setChunks (unroute · held)
  let row ← added runnerId
  return (row, held.map (·.chunkId))

variable [Platform]

def mintOr (kind : String) : Option String → HubM String
  | some id => pure id
  | none => mint kind

def seedProject (slug name tenantId : String) (projectId : Option String) : HubM ProjectRow := do
  let row ← tenant tenantId
  let minted ← mintOr projectPrefix (given projectId)
  refuseIf (minted ∈ (← readStore (·.projects.dict))) (.alreadyHeld
    ("project " ++ minted ++ " already exists"))
  refuseIf ((← readStore (tenantProjects ·.toRegistry row.tenantId)).any (·.slug = slug))
    (.alreadyHeld
    ("tenant " ++ row.tenantId ++ " already holds a project with slug " ++ reprStr slug))
  let project : ProjectRow := ⟨minted, row.tenantId, slug, name⟩
  setRegistry (·.putProject project)
  return project

def seedTenant (name : String) (tenantId : Option String) : HubM TenantRow := do
  let minted ← mintOr tenantPrefix (given tenantId)
  refuseIf (minted ∈ (← readStore (·.tenants.dict))) (.alreadyHeld
    ("tenant " ++ minted ++ " already exists"))
  let row : TenantRow := ⟨minted, name⟩
  setRegistry (·.putTenant row)
  let _ ← seedProject defaultProjectSlug defaultProjectName minted none
  return row

def addRunner (name tenantId : String) (runnerId token : Option String)
    (projects : Option (List String)) (hostId : Option String) : HubM RunnerAddResponse := do
  let row ← tenant tenantId
  let declaration ← settle (← readStore (addedDeclaration ·.toRegistry row.tenantId projects))
  let addedId ← mintOr runnerPrefix (given runnerId)
  let issued ← tokenOr "mock-runner-token-" (given token)
  let instant ← now
  let host ← standingUnder row.tenantId hostId
  refuseIf (addedId ∈ (← readStore (·.runners.dict))) (.alreadyHeld
    ("runner " ++ addedId ++ " is already added"))
  let runner : RunnerRow := {
    runnerId := addedId, tenantId := row.tenantId, name := name, addedAt := instant
    projects := declaration, hostId := host }
  setRegistry (·.addRunner runner issued)
  return ⟨addedId, name, issued⟩

def addHostRunner (hostId name : String) (projects : Option (List String)) :
    HubM RunnerAddResponse := do
  let row ← host hostId
  addRunner name row.tenantId none none projects (some hostId)

def adoptees (store : Registry) (tenantId : String) :
    List String → Except HubError (List RunnerRow)
  | [] => .ok []
  | id :: rest =>
    match (store.runners.get? id).filter (·.tenantId = tenantId) with
    | none => .error (.unknownRunner id)
    | some row => (adoptees store tenantId rest).map (row :: ·)

def refuseAdoption : List RunnerRow → Except HubError Unit
  | [] => .ok ()
  | row :: rest =>
    if row.retiredAt.isSome then .error (.runnerRetired row.runnerId (some "adoption"))
    else
      match row.hostId with
      | some hostId => .error (.runnerAlreadyHosted row.runnerId hostId)
      | none => refuseAdoption rest

/-- The adoptee the `host_add_runner_lifecycle_conflict` lever bites on. -/
def adoptionConflict (lever : Lever) (runners : List RunnerRow) : Option RunnerRow :=
  match Json.get lever.payload "runner_id" .null with
  | .null => runners.head?
  | .str target => runners.find? (·.runnerId = target)
  | _ => none

def refuseAdoptionConflict (runners : List RunnerRow) : HubM Unit := do
  let conflict ← findLever .hostAddRunnerLifecycleConflict none
  whenSome (fun lever => whenSome (fun (runner : RunnerRow) => do
      consumeLever lever
      raise (.runnerLifecycleConflict runner.runnerId)) (adoptionConflict lever runners)) conflict

def adopt (store : Registry) (hostId : String) (runners : List RunnerRow) :
    Registry :=
  runners.foldl (fun st row => st.putRunner { row with hostId := some hostId }) store

/-- The refusals of `add_host`: the runners it adopts, when nothing refuses the addition. -/
def hostAdmission (name tenantId : String) (adopting : List String) : HubM (List RunnerRow) := do
  let runners ← settle (← readStore (adoptees ·.toRegistry tenantId adopting))
  settle (refuseAdoption runners)
  let hosts ← readStore (tenantHosts ·.toRegistry tenantId)
  refuseIf (hosts.any fun h => h.name = name ∧ h.retiredAt = none) (.hostNameTaken name)
  refuseAdoptionConflict runners
  return runners

def addHost (name tenantId : String) (adopting : List String) (hostId token : Option String) :
    HubM HostAddResponse := do
  let row ← tenant tenantId
  let adopting := adopting.eraseDups
  let runners ← hostAdmission name row.tenantId adopting
  let addedId ← mintOr hostPrefix (given hostId)
  let issued ← tokenOr "mock-host-token-" (given token)
  let instant ← now
  refuseIf (addedId ∈ (← readStore (·.hosts.dict))) (.alreadyHeld
    ("host " ++ addedId ++ " is already added"))
  let added : HostRow := {
    hostId := addedId, tenantId := row.tenantId, name := name, addedAt := instant }
  setRegistry (·.addHost added issued)
  setRegistry (adopt · addedId runners)
  return ⟨addedId, name, issued, adopting⟩

/-- The refusal the `version_refused` lever scripts. -/
def scriptedVersionRefusal (lever : Lever) (version : Option String) : RunnerVersionRefusal :=
  let hub := (Json.get lever.payload "hub_version" (.str hubVersion)).text
  let floor := (Json.get lever.payload "floor" (.str versionWindow.floor)).text
  { reason := (Json.get lever.payload "reason" (.str "too-old")).text
    runnerVersion := version
    hubVersion := hub
    floor := floor
    detail := (Json.get lever.payload "detail" (.str ("runner " ++
      (given version).getD "reporting no version" ++ " is outside hub " ++ hub ++
        "'s window (floor " ++
      floor ++ "); upgrade the runner"))).text }

def namesRunner (lever : Lever) (runnerId : String) : Bool :=
  match Json.lookup "runner_id" lever.payload with
  | some (.str r) => r = runnerId
  | _ => false

def refuseVersion (runnerId : String) (version : Option String) : HubM Unit := do
  let lever ← findLever .versionRefused none
  whenSome (fun lever => do
    consumeLever lever
    raise (.runnerVersionRefused (scriptedVersionRefusal lever version)))
    (lever.filter (namesRunner · runnerId))

def register (runnerId : String) (reg : Registration) : HubM RunnerRegistrationResponse := do
  let row ← added runnerId
  refuseVersion runnerId reg.version
  let named := match reg.bindings with
    | none => reg.projects
    | some bindings => some (bindings.map RunnerBinding.project)
  let declaration ← readStore fun store => named.map (declared store.toRegistry row.tenantId)
  let instant ← now
  let current := row.registered (given (reg.name.map strip)) reg declaration instant
  setRegistry (·.putRunner current)
  readStore fun rows =>
    let store := rows.toRegistry
    let views := bindingViews store current
    { runnerId := runnerId
      runnerName := current.name
      firstRegistration := row.registeredAt = none
      tenantId := current.tenantId
      tenantName := tenantName store current.tenantId
      projects := servedViews store current
      bindings := views.1
      subscription := current.subscription
      subscriptionUnrostered := views.2
      hubVersion := MockHub.hubVersion
      window := versionWindow }

end MockHubService

end BlizzardMock.MockHub
