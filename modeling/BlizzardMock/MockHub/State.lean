import BlizzardMock.Data.Table
import Mathlib.Data.List.Sort
import BlizzardMock.MockHub.Models

namespace BlizzardMock.MockHub

structure RunnerCapability where
  harnessId : String
  version : Option String := none
  tiers : List String := []
  supportedModels : List String := []
  default : Bool := false
  available : Bool := true
  deriving DecidableEq

structure DeclaredSubscription where
  slug : String
  name : String
  provider : String
  deriving DecidableEq

structure SubscriptionUsageMiss where
  slug : String
  name : String
  missedAt : DateTime
  reason : String
  deriving DecidableEq

/-- What a runner reports about itself, held per runner id and never gated on a registration. -/
structure ReportedRunnerFacts where
  locallyPaused : Bool := false
  locallyPausedBy : Option String := none
  locallyPausedReason : Json := .null
  subscriptionUsage : Dict String SubscriptionUsageView := ∅
  subscriptionUsageMisses : Dict String SubscriptionUsageMiss := ∅

structure ScopeRow where
  slug : String
  description : String
  createdAt : String
  retired : Bool := false
  deriving DecidableEq

def firstTenantId : String := "ten_00000000000000000000000000"
def firstTenantName : String := "default"

structure TenantRow where
  tenantId : String
  name : String
  deriving DecidableEq

structure ProjectRow where
  projectId : String
  tenantId : String
  slug : String
  name : String
  deriving DecidableEq

structure ServedEntry where
  entry : String
  projectId : Option String
  deriving DecidableEq

structure RunnerBinding where
  project : String
  workspaceId : String
  deriving DecidableEq

structure RunnerRow where
  runnerId : String
  tenantId : String
  name : String
  addedAt : DateTime
  workspaceId : Option String := none
  registeredAt : Option DateTime := none
  lastSeenAt : Option DateTime := none
  url : Option String := none
  redirectUris : List String := []
  envCapacity : Option Int := none
  capabilities : List RunnerCapability := []
  declaredSubscriptions : Option (List DeclaredSubscription) := none
  gates : List String := []
  projects : List ServedEntry := []
  bindings : Option (List RunnerBinding) := none
  subscription : Option String := none
  agents : Option Int := none
  declining : List RunnerDecliningView := []
  paused : Bool := false
  retiredAt : Option DateTime := none
  retiredBy : Option String := none
  hostId : Option String := none
  deriving DecidableEq

def RunnerRow.NeverConnected (row : RunnerRow) : Prop := row.registeredAt = none

instance (row : RunnerRow) : Decidable row.NeverConnected := inferInstanceAs (Decidable (_ = _))

structure HostRow where
  hostId : String
  tenantId : String
  name : String
  addedAt : DateTime
  registeredAt : Option DateTime := none
  lastSeenAt : Option DateTime := none
  url : Option String := none
  redirectUris : List String := []
  workspaces : List (String × Option Int) := []
  subscriptions : List DeclaredSubscription := []
  retiredAt : Option DateTime := none
  retiredBy : Option String := none
  subscriptionUsage : Dict String SubscriptionUsageView := ∅
  subscriptionUsageMisses : Dict String SubscriptionUsageMiss := ∅
  deriving DecidableEq

def refuseBrakedRunner (row : Option RunnerRow) (runnerId : String) : Except HubError RunnerRow :=
  match row with
  | none => .error (.claimDeniedUnregistered runnerId)
  | some row =>
    if row.NeverConnected then .error (.claimDeniedUnregistered runnerId)
    else if row.paused then .error (.claimDeniedPaused runnerId)
    else .ok row

structure Registry where
  tenants : Table TenantRow.tenantId := ∅
  projects : Table ProjectRow.projectId := ∅
  runners : Table RunnerRow.runnerId := ∅
  tokens : Dict String String := ∅
  revokedTokens : Dict String String := ∅
  hosts : Table HostRow.hostId := ∅
  hostTokens : Dict String String := ∅
  revokedHostTokens : Dict String String := ∅
  systemArtifacts : Dict String String := ∅
  scopes : Table ScopeRow.slug := ∅

structure HubRows extends Registry where
  chunks : Table ChunkState.chunkId := ∅
  questions : Table QuestionState.questionId := ∅

structure InMemoryHubState extends HubRows where
  reported : Dict String ReportedRunnerFacts := ∅

namespace Registry

variable (store : Registry)

def putTenant (row : TenantRow) : Registry := { store with tenants := store.tenants.put row }

def putProject (row : ProjectRow) : Registry := { store with projects := store.projects.put row }

def putRunner (row : RunnerRow) : Registry := { store with runners := store.runners.put row }

def putHost (row : HostRow) : Registry := { store with hosts := store.hosts.put row }

def putScope (row : ScopeRow) : Registry := { store with scopes := store.scopes.put row }

def putSystemArtifact (name content : String) : Registry :=
  { store with systemArtifacts := store.systemArtifacts.set name content }

def addRunner (row : RunnerRow) (token : String) : Registry :=
  { store with
    runners := store.runners.put row
    tokens := store.tokens.set token row.runnerId }

def addHost (row : HostRow) (token : String) : Registry :=
  { store with
    hosts := store.hosts.put row
    hostTokens := store.hostTokens.set token row.hostId }

def runnerForToken (token : String) : Option RunnerRow :=
  (store.tokens.get? token).bind store.runners.get?

def hostForToken (token : String) : Option HostRow :=
  (store.hostTokens.get? token).bind store.hosts.get?

def replaceToken (runnerId : String) (token : Option String) : Registry :=
  let held := (store.tokens.entries.filter (·.2 = runnerId)).map Prod.fst
  let tokens := held.foldl Dict.erase store.tokens
  { store with
    tokens := match token with
      | some t => tokens.set t runnerId
      | none => tokens
    revokedTokens := held.foldl (fun d t => d.set t runnerId) store.revokedTokens }

def listSystemArtifacts : List (String × String) :=
  store.systemArtifacts.entries.insertionSort fun a b => a.1 ≤ b.1

def listScopes : List ScopeRow :=
  store.scopes.rows.insertionSort fun a b => b.createdAt ≤ a.createdAt

end Registry

def InMemoryHubState.clear (store : InMemoryHubState) : InMemoryHubState :=
  { reported := store.reported }

end BlizzardMock.MockHub
