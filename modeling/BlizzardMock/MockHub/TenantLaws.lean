import BlizzardMock.MockHub.OfferLaws
import BlizzardMock.MockHub.RosterLaws

namespace BlizzardMock.MockHub

open Method

namespace Roster

def Confined (roster : Roster) : Prop :=
  ∀ r row, roster.runners.get? r = some row → roster.Serves row

variable {roster next : Roster} {events : List Event}

theorem Serves.seed {row : RunnerRow} (serves : roster.Serves row) {project : ProjectRow}
    (fresh : roster.projects.get? project.projectId = none) :
    Serves { roster with projects := roster.projects.put project } row := by
  intro id served
  obtain ⟨held, found, tenant⟩ := serves id served
  have apart : id ≠ project.projectId := by
    intro same
    rw [same, fresh] at found
    cases found
  exact ⟨held, (Table.get?_put_of_ne apart _).trans found, tenant⟩

theorem Serves.of_projects {row other : RunnerRow} (serves : roster.Serves row)
    (projects : other.projects = row.projects) (tenantId : other.tenantId = row.tenantId) :
    roster.Serves other := by
  simp only [Serves, MockHubService.servedProjectIds, projects, tenantId]
  exact serves

theorem Confined.put (confined : roster.Confined) {row : RunnerRow} (serves : roster.Serves row)
    (keyring : Keyring String String) :
    Confined { roster with runners := roster.runners.put row, keyring := keyring } := by
  intro r found held
  rw [Table.get?_put] at held
  split at held
  case isTrue =>
    cases held
    exact serves
  case isFalse => exact confined r found held

theorem Confined.changes (confined : roster.Confined) (changes : Changes roster events next) :
    next.Confined := by
  induction changes with
  | seed project fresh => exact fun r row held => (confined r row held).seed fresh
  | revise held runnerId tenantId retiredAt served =>
    refine confined.put ?_ _
    cases served with
    | inl projects => exact (confined _ _ held).of_projects projects tenantId
    | inr serves => exact serves
  | add token fresh live served => exact confined.put served _
  | retire held runnerId tenantId projects =>
    exact confined.put ((confined _ _ held).of_projects projects tenantId) _
  | trans _ _ first second => exact second (first confined)
  | _ => exact confined

end Roster

namespace MockHubService

def InTenantOf (hub : MockHubService) (chunkId r : String) : Prop :=
  ∃ row chunk project, hub.store.runners.get? r = some row ∧ hub.chunks.get? chunkId = some chunk ∧
    hub.store.projects.get? chunk.projectId = some project ∧ project.tenantId = row.tenantId

variable [Platform]

theorem confined_next (op : Op) {hub : MockHubService} (confined : hub.roster.Confined) :
    (hub.next op).roster.Confined := by
  by_cases h : op = .reset
  · subst h
    intro r row held
    cases held
  · exact confined.changes (changes_next op hub h)

theorem reachable_confined {hub : MockHubService} (reachable : hub.Reachable) :
    hub.roster.Confined := by
  obtain ⟨sources, ops, run⟩ := reachable
  rw [run]
  exact Machine.invariant_always (I := fun hub : MockHubService => hub.roster.Confined)
    (fun op _ confined => confined_next op confined) ops (by intro r row held; cases held)

theorem served_of_claim {hub : MockHubService} {c r w : String} {es : List String}
    {response : RouteClaimResponse} (h : answer (claim c r w es) hub = .ok response) :
    ∃ row chunk, hub.store.runners.get? r = some row ∧ hub.chunks.get? c = some chunk ∧
      chunk.projectId ∈ servedProjectIds row := by
  simp only [claim] at h
  obtain ⟨chunk, s, required, same, h⟩ := answer_bind_of_keeps (f := rows) rfl h
  obtain ⟨_, s₁, _, same₁, h⟩ := answer_bind_of_keeps same h
  obtain ⟨_, s₂, _, same₂, h⟩ := answer_bind_of_keeps same₁ h
  obtain ⟨_, s₃, _, same₃, h⟩ := answer_bind_of_keeps same₂ h
  obtain ⟨_, s₄, _, same₄, h⟩ := answer_bind_of_keeps same₃ h
  obtain ⟨_, _, allowed, _, _⟩ := answer_bind_of_keeps same₄ h
  simp only [refuseClaimant] at allowed
  obtain ⟨found, t, looked, kept, h⟩ := answer_bind_of_keeps same₄ allowed
  obtain ⟨row, t₁, braked, kept₁, h⟩ := answer_bind_of_keeps kept h
  obtain ⟨_, t₂, _, kept₂, h⟩ := answer_bind_of_keeps kept₁ h
  obtain ⟨_, t₃, _, kept₃, h⟩ := answer_bind_of_keeps kept₂ h
  obtain ⟨_, t₄, _, kept₄, h⟩ := answer_bind_of_keeps kept₃ h
  obtain ⟨_, t₅, _, kept₅, h⟩ := answer_bind_of_keeps kept₄ h
  obtain ⟨_, _, serves, _, _⟩ := answer_bind_of_keeps kept₅ h
  rw [answer_settle] at braked
  have runners : s₄.store.runners = hub.store.runners :=
    congrArg (fun w : HubRows × Books => w.1.runners) same₄
  have looked : hub.store.runners.get? r = found := by
    cases looked
    rw [← runners]
  have row_found : found = some row := by
    cases found with
    | none => cases braked
    | some known =>
      simp only [refuseBrakedRunner] at braked
      split at braked
      · cases braked
      · split at braked
        · cases braked
        · exact congrArg some (Except.ok.inj braked)
  refine ⟨row, chunk, looked.trans row_found, found_of_require rfl required, ?_⟩
  exact not_not.mp (refuseIf_ok.mp serves)

/-- Whatever its runners registered, were added with or were set to serve, the hub offers and grants
a runner chunks of its own tenant's projects alone. -/
structure TenantsConfined (hub : MockHubService) : Prop where
  offered {r policy : String} {capabilities : List RunnerCapability}
    {projects : Option (List String)}
    {entries : List QueuePeekEntry} {entry : QueuePeekEntry} :
    answer (peekMatched r capabilities policy projects) hub = .ok entries → entry ∈ entries →
      hub.InTenantOf entry.chunkId r
  granted {c r w : String} {es : List String} {response : RouteClaimResponse} :
    answer (claim c r w es) hub = .ok response → hub.InTenantOf c r

theorem tenants_confined {hub : MockHubService} (reachable : hub.Reachable) :
    hub.TenantsConfined where
  offered {r policy capabilities projects entries entry} peeked mem := by
    cases known : hub.store.runners.get? r with
    | none =>
      simp only [peekMatched] at peeked
      rw [answer_bind_of_error _ (answer_added_none known)] at peeked
      cases peeked
    | some row =>
      obtain ⟨chunk, filed, offer⟩ := offered_of_peekMatched known peeked mem
      obtain ⟨project, found, tenant⟩ :=
        reachable_confined reachable r row known chunk.projectId offer.served
      rw [← filed]
      exact ⟨row, chunk, project, known, offer.held, found, tenant⟩
  granted h := by
    obtain ⟨row, chunk, known, held, served⟩ := served_of_claim h
    obtain ⟨project, found, tenant⟩ :=
      reachable_confined reachable _ row known chunk.projectId served
    exact ⟨row, chunk, project, known, held, found, tenant⟩

end MockHubService

section

attribute [local instance] Platform.plain

open MockHubService

def twoTenants : MockHubService :=
  after [.registry (.addRunner "ann" firstTenantId (some "r") (some "t") none none),
    .registry (.seedTenant "annex" (some "t2")),
      .registry (.seedProject "shop" "Shop" "t2" (some "p2")),
    .registry (.addRunner "bob" "t2" (some "s") (some "u") (some ["shop"]) none),
    .registry (.register "r" { workspaceId := "w", capabilities := [harness] }),
    .registry (.register "s" { workspaceId := "v", capabilities := [harness] }),
    .seedChunk { chunkId := some "c", entry := "build", nodes := .ofList [("build", {})] },
    .seedChunk { chunkId := some "d", projectId := some "p2", entry := "build",
                 nodes := .ofList [("build", {})] }]
    (fresh .still)

def offers (hub : MockHubService) (r : String) : Option (List String) :=
  (answer (peekMatched r [harness] "hold" none) hub).toOption.map (·.map (·.chunkId))

theorem tenants_confined_two :
    offers twoTenants "r" = some ["c"] ∧ offers twoTenants "s" = some ["d"] ∧
      (answer (claim "d" "s" "v" []) twoTenants).isOk = true ∧
      (answer (claim "d" "r" "w" []) twoTenants).isOk = false ∧ twoTenants.TenantsConfined := by
  refine ⟨?_, ?_, ?_, ?_, tenants_confined (reachable_run _ _)⟩
  all_goals decide +kernel

end

end BlizzardMock.MockHub
