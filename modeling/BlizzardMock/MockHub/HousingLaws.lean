import BlizzardMock.MockHub.RosterLaws

namespace BlizzardMock.MockHub

open Method

structure Housing where
  hosts : Table HostRow.hostId
  runners : Table RunnerRow.runnerId

namespace Housing

def Free (housing : Housing) (tenantId hostId name : String) : Prop :=
  ∀ other row, housing.hosts.get? other = some row → row.tenantId = tenantId →
    row.retiredAt = none →
    row.name = name → other = hostId

def Houses (housing : Housing) (tenantId hostId : String) : Prop :=
  ∃ host, housing.hosts.get? hostId = some host ∧ host.tenantId = tenantId

inductive Changes : Housing → Housing → Prop
  | idle (housing) : Changes housing housing
  | addHost {housing row} (fresh : housing.hosts.get? row.hostId = none)
    (free : housing.Free row.tenantId row.hostId row.name) :
    Changes housing { housing with hosts := housing.hosts.put row }
  | report {housing row next} (held : housing.hosts.get? row.hostId = some row)
    (hostId : next.hostId = row.hostId) (tenantId : next.tenantId = row.tenantId)
    (retiredAt : next.retiredAt = row.retiredAt)
    (name : next.name = row.name ∨ housing.Free row.tenantId row.hostId next.name) :
    Changes housing { housing with hosts := housing.hosts.put next }
  | addRunner {housing row} (fresh : housing.runners.get? row.runnerId = none)
    (under : ∀ h, row.hostId = some h → housing.Houses row.tenantId h) :
    Changes housing { housing with runners := housing.runners.put row }
  | revise {housing row next} (held : housing.runners.get? row.runnerId = some row)
    (runnerId : next.runnerId = row.runnerId) (tenantId : next.tenantId = row.tenantId)
    (under : next.hostId = row.hostId ∨
      row.hostId = none ∧ ∃ h, next.hostId = some h ∧ housing.Houses row.tenantId h) :
    Changes housing { housing with runners := housing.runners.put next }
  | trans {housing mid next} (first : Changes housing mid) (second : Changes mid next) :
    Changes housing next

/-- Live hosts of a tenant have names of their own, and a runner's host is of the runner's tenant.
-/
structure Ordered (housing : Housing) : Prop where
  names : ∀ hostId row, housing.hosts.get? hostId = some row → row.retiredAt = none →
    housing.Free row.tenantId hostId row.name
  tenants : ∀ r row h, housing.runners.get? r = some row → row.hostId = some h →
    housing.Houses row.tenantId h

variable {housing next : Housing}

theorem Houses.put {row : HostRow} (kept : ∀ old, housing.hosts.get? row.hostId = some old →
    row.tenantId = old.tenantId) {t h : String} (houses : housing.Houses t h)
    (runners : Table RunnerRow.runnerId) :
    Houses { hosts := housing.hosts.put row, runners := runners } t h := by
  obtain ⟨host, held, tenant⟩ := houses
  simp only [Houses, Table.get?_put]
  by_cases same : h = row.hostId
  · rw [if_pos same]
    rw [same] at held
    exact ⟨row, rfl, (kept host held).trans tenant⟩
  · rw [if_neg same]
    exact ⟨host, held, tenant⟩

theorem Ordered.put_host (ordered : housing.Ordered) {row : HostRow}
    (kept : ∀ old, housing.hosts.get? row.hostId = some old → row.tenantId = old.tenantId)
    (free : row.retiredAt = none → housing.Free row.tenantId row.hostId row.name) :
    Ordered { housing with hosts := housing.hosts.put row } := by
  constructor
  · intro hostId one held live other two held' tenant live' name
    dsimp only at held held'
    rw [Table.get?_put] at held held'
    split at held
    case isTrue same =>
      cases held
      split at held'
      case isTrue same' => exact same'.trans same.symm
      case isFalse => exact (free live other two held' tenant live' name).trans same.symm
    case isFalse apart =>
      split at held'
      case isTrue same' =>
        cases held'
        have back := free live' hostId one held tenant.symm live name.symm
        exact absurd back apart
      case isFalse => exact ordered.names hostId one held live other two held' tenant live' name
  · intro r runner h held under
    exact (ordered.tenants r runner h held under).put kept _

theorem Ordered.put_runner (ordered : housing.Ordered) {row : RunnerRow}
    (under : ∀ h, row.hostId = some h → housing.Houses row.tenantId h) :
    Ordered { housing with runners := housing.runners.put row } := by
  constructor
  · exact ordered.names
  · intro r runner h held standing
    dsimp only at held
    rw [Table.get?_put] at held
    split at held
    case isTrue =>
      cases held
      exact under h standing
    case isFalse => exact ordered.tenants r runner h held standing

theorem Ordered.changes (ordered : housing.Ordered) (changes : Changes housing next) :
    next.Ordered := by
  induction changes with
  | idle => exact ordered
  | addHost fresh free =>
    apply ordered.put_host
    · intro old held
      rw [fresh] at held
      cases held
    · exact fun _ => free
  | report held hostId tenantId retiredAt name =>
    apply ordered.put_host
    · intro old found
      rw [hostId, held] at found
      cases found
      exact tenantId
    · intro live
      rw [hostId, tenantId]
      cases name with
      | inl same =>
        rw [same]
        exact ordered.names _ _ held (retiredAt.symm.trans live)
      | inr free => exact free
  | addRunner fresh under => exact ordered.put_runner under
  | revise held runnerId tenantId under =>
    apply ordered.put_runner
    intro h standing
    rw [tenantId]
    cases under with
    | inl same => exact ordered.tenants _ _ h held (same.symm.trans standing)
    | inr set =>
      obtain ⟨_, h', standing', houses⟩ := set
      rw [standing] at standing'
      cases standing'
      exact houses
  | trans _ _ first second => exact second (first ordered)

theorem Changes.stands (changes : Changes housing next) {r h : String}
    (standing : (housing.runners.get? r).bind RunnerRow.hostId = some h) :
    (next.runners.get? r).bind RunnerRow.hostId = some h := by
  induction changes with
  | addRunner fresh under =>
    dsimp only
    rw [Table.get?_put]
    split
    case isTrue same =>
      rw [same, fresh] at standing
      cases standing
    case isFalse => exact standing
  | revise held runnerId tenantId under =>
    dsimp only
    rw [Table.get?_put]
    split
    case isTrue same =>
      rw [same, runnerId, held] at standing
      cases under with
      | inl kept => exact kept.trans standing
      | inr set =>
        rw [Option.bind_some, set.1] at standing
        cases standing
    case isFalse => exact standing
  | trans _ _ first second => exact second (first standing)
  | _ => exact standing

end Housing

namespace MockHubService

def housing (hub : MockHubService) : Housing := ⟨hub.store.hosts, hub.store.runners⟩

section Primitives

variable {α : Type}

instance (m : HubM α) [h : Keeps registry m] : Keeps housing m :=
  h.comp m fun store => Housing.mk store.hosts store.runners

instance (row : TenantRow) : Keeps housing (setRegistry (·.putTenant row)) := ⟨fun _ => rfl⟩
instance (row : ProjectRow) : Keeps housing (setRegistry (·.putProject row)) := ⟨fun _ => rfl⟩
instance (row : ScopeRow) : Keeps housing (setRegistry (·.putScope row)) := ⟨fun _ => rfl⟩
instance (name content : String) : Keeps housing (setRegistry (·.putSystemArtifact name content)) :=
  ⟨fun _ => rfl⟩
instance (r : String) (token : Option String) :
    Keeps housing (setRegistry (·.replaceToken r token)) :=
  ⟨fun _ => rfl⟩

end Primitives

section Steps

variable {α β : Type}

theorem housed_step {m : HubM α} {g : α → HubM β} [Keeps housing m] {s o : MockHubService}
    (same : s.housing = o.housing)
    (continued : ∀ a t, answer m s = .ok a → t.housing = o.housing →
      Housing.Changes o.housing (Method.after (g a) t).housing) :
    Housing.Changes o.housing (Method.after (m >>= g) s).housing := by
  apply after_bind_of_keeps (f := housing)
    (P := fun t => Housing.Changes o.housing (MockHubService.housing t)) same
  · intro t kept
    rw [kept]
    exact .idle _
  · exact continued

theorem housing_bind (m : HubM α) (g : α → HubM β) [h : ∀ a, Keeps housing (g a)]
    (s : MockHubService) : (Method.after (m >>= g) s).housing = (Method.after m s).housing := by
  rw [after_bind]
  cases answer m s with
  | ok a => exact (h a).keeps _
  | error e => rfl

theorem housed_of_keeps (m : HubM α) [h : Keeps housing m] (hub : MockHubService) :
    Housing.Changes hub.housing (Method.after m hub).housing := by
  rw [h.keeps]
  exact .idle _

theorem housed_trans {m : HubM α} {g : α → HubM β} {s : MockHubService}
    (first : Housing.Changes s.housing (Method.after m s).housing)
    (second : ∀ a, answer m s = .ok a →
      Housing.Changes (Method.after m s).housing (Method.after (g a) (Method.after m s)).housing) :
    Housing.Changes s.housing (Method.after (m >>= g) s).housing := by
  rw [after_bind]
  cases answered : answer m s with
  | ok a => exact first.trans (second a answered)
  | error e => exact first

end Steps

theorem housed_of_added {s o : MockHubService} {r : String} {row : RunnerRow}
    (same : s.housing = o.housing) (h : answer (added r) s = .ok row) :
    row.runnerId = r ∧ o.housing.runners.get? row.runnerId = some row := by
  have found : s.store.runners.get? r = some row := orRaise_ok.mp h
  have key := Table.key_of_get? found
  refine ⟨key, ?_⟩
  rw [key, ← same]
  exact found

theorem housed_of_host {s o : MockHubService} {h : String} {row : HostRow}
    (same : s.housing = o.housing) (found : answer (host h) s = .ok row) :
    row.hostId = h ∧ o.housing.hosts.get? row.hostId = some row := by
  have held : s.store.hosts.get? h = some row := orRaise_ok.mp found
  have key := Table.key_of_get? held
  refine ⟨key, ?_⟩
  rw [key, ← same]
  exact held

theorem housed_putRunner {s o : MockHubService} (same : s.housing = o.housing) {row : RunnerRow}
    (held : o.housing.runners.get? row.runnerId = some row) (next : RunnerRow)
    (identity : next.runnerId = row.runnerId ∧ next.tenantId = row.tenantId ∧
      next.hostId = row.hostId) :
    Housing.Changes o.housing (Method.after (setRegistry (·.putRunner next)) s).housing := by
  change Housing.Changes o.housing { s.housing with runners := s.housing.runners.put next }
  rw [same]
  exact .revise held identity.1 identity.2.1 (.inl identity.2.2)

theorem housed_putHost {s o : MockHubService} (same : s.housing = o.housing) {row : HostRow}
    (held : o.housing.hosts.get? row.hostId = some row) (next : HostRow)
    (identity : next.hostId = row.hostId ∧ next.tenantId = row.tenantId ∧
      next.retiredAt = row.retiredAt)
    (name : next.name = row.name ∨ o.housing.Free row.tenantId row.hostId next.name) :
    Housing.Changes o.housing (Method.after (setRegistry (·.putHost next)) s).housing := by
  change Housing.Changes o.housing { s.housing with hosts := s.housing.hosts.put next }
  rw [same]
  exact .report held identity.1 identity.2.1 identity.2.2 name

theorem housed_setRunnerProjects (r : String) (entries : List String) (hub : MockHubService) :
    Housing.Changes hub.housing (Method.after (setRunnerProjects r entries) hub).housing := by
  simp only [setRunnerProjects]
  refine housed_step rfl fun row s known same => ?_
  refine housed_step same fun declaration s₁ _ same₁ => ?_
  rw [housing_bind]
  exact housed_putRunner same₁ (housed_of_added rfl known).2 _ ⟨rfl, rfl, rfl⟩

theorem housed_setPaused (r : String) (paused : Bool) (hub : MockHubService) :
    Housing.Changes hub.housing (Method.after (setPaused r paused) hub).housing := by
  simp only [setPaused]
  refine housed_step rfl fun row s known same => ?_
  exact housed_putRunner same (housed_of_added rfl known).2 _ ⟨rfl, rfl, rfl⟩

theorem housed_heartbeat (r : String) (hub : MockHubService) :
    Housing.Changes hub.housing (Method.after (heartbeat r) hub).housing := by
  simp only [heartbeat]
  refine housed_step rfl fun known s read same => ?_
  cases read
  dsimp only
  split
  case h_1 => exact same ▸ .idle _
  case h_2 row known =>
    have held := (housed_of_added (s := hub) rfl (orRaise_ok.mpr known)).2
    split
    case isTrue => exact same ▸ .idle _
    case isFalse =>
      refine housed_step same fun instant s₁ _ same₁ => ?_
      rw [housing_bind]
      exact housed_putRunner same₁ held _ ⟨rfl, rfl, rfl⟩

theorem housed_retire (r actor : String) (hub : MockHubService) :
    Housing.Changes hub.housing (Method.after (retire r actor) hub).housing := by
  simp only [retire]
  refine housed_step rfl fun row s known same => ?_
  split
  case isTrue => exact same ▸ .idle _
  case isFalse =>
    refine housed_step same fun instant s₁ _ same₁ => ?_
    rw [housing_bind]
    exact housed_putRunner same₁ (housed_of_added rfl known).2 _ ⟨rfl, rfl, rfl⟩

theorem free_reportedName (hub : MockHubService) (row : HostRow) (name : Option String) :
    reportedName hub.store.toRegistry row name = row.name ∨
      hub.housing.Free row.tenantId row.hostId (reportedName hub.store.toRegistry row name) := by
  simp only [reportedName]
  split
  case isFalse => exact .inl rfl
  case isTrue takes =>
    refine .inr fun other one held tenant live named => ?_
    by_contra apart
    apply takes.2
    have key : one.hostId = other := Table.key_of_get? held
    have mem : one ∈ tenantHosts hub.store.toRegistry row.tenantId :=
      List.mem_filter.mpr ⟨Table.mem_rows.mpr (key ▸ held), decide_eq_true tenant⟩
    exact List.any_eq_true.mpr ⟨one, mem, decide_eq_true ⟨named, key ▸ apart, live⟩⟩

theorem housed_reportHost (h : String) (report : HostReport) (hub : MockHubService) :
    Housing.Changes hub.housing (Method.after (reportHost h report) hub).housing := by
  simp only [reportHost]
  refine housed_step rfl fun row s known same => ?_
  refine housed_step same fun name s₁ read same₁ => ?_
  refine housed_step same₁ fun instant s₂ _ same₂ => ?_
  have held := (housed_of_host rfl known).2
  cases read
  rw [housing_bind]
  refine housed_putHost same₂ held _ ⟨rfl, rfl, rfl⟩ ?_
  rw [← same]
  exact free_reportedName s row report.name

theorem housed_addRunnerUnderHost {s : MockHubService} {h t : String} {row : HostRow}
    (found : answer (addRunnerUnderHost h t) s = .ok row) :
    row.hostId = h ∧ s.housing.Houses t h := by
  simp only [addRunnerUnderHost] at found
  obtain ⟨held, read, found⟩ := answer_bind_ok_iff.mp found
  obtain ⟨there, known, found⟩ := answer_bind_ok_iff.mp found
  obtain ⟨_, _, found⟩ := answer_bind_ok_iff.mp found
  cases found
  cases read
  obtain ⟨held, tenant⟩ := Option.filter_eq_some_iff.mp (orRaise_ok.mp known)
  exact ⟨Table.key_of_get? held, row, held, of_decide_eq_true tenant⟩

theorem houses_of_standingUnder {s : MockHubService} {t : String} {named : Option String}
    {hostId : Option String} (found : answer (standingUnder t named) s = .ok hostId) :
    ∀ h, hostId = some h → s.housing.Houses t h := by
  intro h standing
  cases named with
  | none =>
    cases found
    cases standing
  | some id =>
    obtain ⟨row, under, found⟩ := answer_bind_ok found
    cases found
    have houses := housed_addRunnerUnderHost under
    rw [houses.1] at standing
    cases standing
    exact houses.2

theorem housed_retireHostRunner (h r actor : String) (force : Bool) (hub : MockHubService) :
    Housing.Changes hub.housing (Method.after (retireHostRunner h r actor force) hub).housing := by
  simp only [retireHostRunner]
  refine housed_step rfl fun found s _ same => ?_
  refine housed_step same fun runner s₁ _ same₁ => ?_
  refine housed_step same₁ fun held s₂ _ same₂ => ?_
  refine housed_step same₂ fun _ s₃ _ same₃ => ?_
  refine housed_step same₃ fun conflict s₄ _ same₄ => ?_
  rw [← same₄]
  apply housed_trans
  · cases conflict.filter (retireConflictBites · r held) with
    | none => exact .idle _
    | some lever =>
      simp only [whenSome]
      refine housed_step rfl fun _ s₅ _ same₅ => ?_
      split
      · rw [housing_bind, ← same₅]
        exact housed_retire r actor s₅
      · exact same₅ ▸ .idle _
  · intro _ _
    rw [housing_bind]
    exact housed_retire r actor _

theorem housed_adopt {hub : MockHubService} (hostId : String) {runners : List RunnerRow}
    (held : ∀ row ∈ runners, hub.housing.Houses row.tenantId hostId ∧
      ∃ current, hub.housing.runners.get? row.runnerId = some current ∧
        row.tenantId = current.tenantId ∧ (current.hostId = none ∨ current.hostId = some hostId)) :
    Housing.Changes hub.housing
      (Method.after (setRegistry (adopt · hostId runners)) hub).housing := by
  induction runners generalizing hub with
  | nil => exact .idle _
  | cons row rest ih =>
    obtain ⟨houses, current, found, tenantId, under⟩ := held row List.mem_cons_self
    have key : row.runnerId = current.runnerId := (Table.key_of_get? found).symm
    let next : RunnerRow := { row with hostId := some hostId }
    have first : Housing.Changes hub.housing
      (Method.after (setRegistry (·.putRunner next)) hub).housing := by
      refine .revise (key ▸ found) key tenantId ?_
      cases under with
      | inl alone => exact .inr ⟨alone, hostId, rfl, tenantId ▸ houses⟩
      | inr already => exact .inl already.symm
    refine .trans first (ih ?_)
    intro other mem
    obtain ⟨houses', before, known, tenant, stands⟩ := held other (List.mem_cons_of_mem _ mem)
    refine ⟨houses', ?_⟩
    change ∃ current, (hub.housing.runners.put next).get? other.runnerId = some current ∧ _
    rw [Table.get?_put]
    split
    case isTrue same =>
      have same : other.runnerId = row.runnerId := same
      rw [same, found] at known
      cases known
      exact ⟨next, rfl, tenant.trans tenantId.symm, .inr rfl⟩
    case isFalse => exact ⟨before, known, tenant, stands⟩

variable [Platform]

theorem housed_addRunner (name t : String) (r token : Option String) (ps : Option (List String))
    (h : Option String) (hub : MockHubService) :
    Housing.Changes hub.housing (Method.after (addRunner name t r token ps h) hub).housing := by
  simp only [addRunner]
  refine housed_step rfl fun row s _ same => ?_
  refine housed_step same fun resolved s₁ _ same₁ => ?_
  refine housed_step same₁ fun declaration s₂ _ same₂ => ?_
  refine housed_step same₂ fun addedId s₃ _ same₃ => ?_
  refine housed_step same₃ fun issued s₄ _ same₄ => ?_
  refine housed_step same₄ fun instant s₅ _ same₅ => ?_
  refine housed_step same₅ fun hostId s₆ standing same₆ => ?_
  refine housed_step same₆ fun present s₇ dict same₇ => ?_
  refine housed_step same₇ fun _ s₈ absent same₈ => ?_
  cases dict
  let runner : RunnerRow := {
    runnerId := addedId, tenantId := row.tenantId, name := name, addedAt := instant
    projects := declaration, hostId := hostId }
  have fresh : hub.housing.runners.get? addedId = none := by
    rw [← same₆]
    exact Dict.not_mem_iff.mp (refuseIf_ok.mp absent)
  have under : ∀ h, runner.hostId = some h → hub.housing.Houses runner.tenantId h := by
    rw [← same₅]
    exact houses_of_standingUnder standing
  rw [housing_bind]
  change Housing.Changes hub.housing { s₈.housing with runners := s₈.housing.runners.put runner }
  rw [same₈]
  exact .addRunner fresh under

theorem housed_addHostRunner (h name : String) (ps : Option (List String)) (hub : MockHubService) :
    Housing.Changes hub.housing (Method.after (addHostRunner h name ps) hub).housing := by
  simp only [addHostRunner]
  refine housed_step rfl fun row s _ same => ?_
  rw [← same]
  exact housed_addRunner _ _ _ _ _ _ s

theorem housed_register (r : String) (reg : Registration) (hub : MockHubService) :
    Housing.Changes hub.housing (Method.after (register r reg) hub).housing := by
  have kept (version : Option String) : Keeps housing (refuseVersion r version) := by
    simp only [refuseVersion]
    infer_instance
  simp only [register]
  refine housed_step rfl fun row s known same => ?_
  refine housed_step same fun _ s₁ _ same₁ => ?_
  refine housed_step same₁ fun declaration s₂ _ same₂ => ?_
  refine housed_step same₂ fun instant s₃ _ same₃ => ?_
  rw [housing_bind]
  exact housed_putRunner same₃ (housed_of_added rfl known).2 _ ⟨rfl, rfl, rfl⟩

omit [Platform] in
theorem adoptees_tenant {store : Registry} {t : String} {ids : List String} {rows : List RunnerRow}
    (h : adoptees store t ids = .ok rows) : ∀ row ∈ rows, row.tenantId = t := by
  induction ids generalizing rows with
  | nil =>
    cases h
    simp
  | cons id rest ih =>
    simp only [adoptees] at h
    cases found : (store.runners.get? id).filter (·.tenantId = t) with
    | none =>
      rw [found] at h
      cases h
    | some first =>
      rw [found] at h
      cases tail : adoptees store t rest with
      | error e =>
        rw [tail] at h
        cases h
      | ok others =>
        rw [tail] at h
        cases h
        intro row mem
        cases mem with
        | head => exact of_decide_eq_true (Option.filter_eq_some_iff.mp found).2
        | tail _ mem => exact ih tail row mem

omit [Platform] in
theorem alone_of_refuseAdoption {rows : List RunnerRow} (h : refuseAdoption rows = .ok ()) :
    ∀ row ∈ rows, row.hostId = none := by
  induction rows with
  | nil => simp
  | cons row rest ih =>
    simp only [refuseAdoption] at h
    split at h
    · cases h
    · cases under : row.hostId with
      | some hostId =>
        rw [under] at h
        cases h
      | none =>
        rw [under] at h
        intro other mem
        cases mem with
        | head => exact under
        | tail _ mem => exact ih h other mem

omit [Platform] in
theorem hostAdmission_ok {name t : String} {adopting : List String} {s : MockHubService}
    {runners : List RunnerRow} (h : answer (hostAdmission name t adopting) s = .ok runners) :
    (∀ row ∈ runners, row.tenantId = t ∧ row.hostId = none ∧
      s.housing.runners.get? row.runnerId = some row) ∧
    ∀ hostId, s.housing.Free t hostId name := by
  have found := hostAdmission_adoptees h
  simp only [hostAdmission] at h
  obtain ⟨_, _, h⟩ := answer_bind_ok_iff.mp h
  obtain ⟨rows, settled, h⟩ := answer_bind_ok_iff.mp h
  obtain ⟨_, alone, h⟩ := answer_bind_ok_iff.mp h
  obtain ⟨hosts, read, h⟩ := answer_bind_ok_iff.mp h
  obtain ⟨_, free, h⟩ := answer_bind_ok_iff.mp h
  obtain ⟨_, _, h⟩ := answer_bind_ok h
  cases h
  cases read
  rw [answer_settle] at alone
  constructor
  · intro row mem
    exact ⟨adoptees_tenant found row mem, alone_of_refuseAdoption alone row mem,
      adoptees_held found row mem⟩
  · intro hostId other one held tenant live named
    have key : one.hostId = other := Table.key_of_get? held
    have mem : one ∈ tenantHosts s.store.toRegistry t :=
      List.mem_filter.mpr ⟨Table.mem_rows.mpr (key ▸ held), decide_eq_true tenant⟩
    exact absurd (List.any_eq_true.mpr ⟨one, mem, decide_eq_true ⟨named, live⟩⟩)
      (refuseIf_ok.mp free)

theorem housed_addHost (name t : String) (adopting : List String) (h token : Option String)
    (hub : MockHubService) :
    Housing.Changes hub.housing (Method.after (addHost name t adopting h token) hub).housing := by
  simp only [addHost]
  refine housed_step rfl fun row s _ same => ?_
  refine housed_step same fun runners s₁ admitted same₁ => ?_
  refine housed_step same₁ fun addedId s₂ _ same₂ => ?_
  refine housed_step same₂ fun issued s₃ _ same₃ => ?_
  refine housed_step same₃ fun instant s₄ _ same₄ => ?_
  refine housed_step same₄ fun present s₅ dict same₅ => ?_
  refine housed_step same₅ fun _ s₆ absent same₆ => ?_
  cases dict
  obtain ⟨adopts, free⟩ := hostAdmission_ok admitted
  rw [same] at adopts free
  let added : HostRow := {
    hostId := addedId, tenantId := row.tenantId, name := name, addedAt := instant }
  have fresh : hub.housing.hosts.get? addedId = none := by
    rw [← same₄]
    exact Dict.not_mem_iff.mp (refuseIf_ok.mp absent)
  have first : Housing.Changes s₆.housing
    (Method.after (setRegistry (·.addHost added issued)) s₆).housing := by
    change Housing.Changes s₆.housing { s₆.housing with hosts := s₆.housing.hosts.put added }
    rw [same₆]
    exact .addHost fresh (free addedId)
  rw [← same₆]
  refine housed_trans first fun _ _ => ?_
  rw [housing_bind]
  apply housed_adopt
  intro runner mem
  obtain ⟨tenant, alone, held⟩ := adopts runner mem
  rw [← same₆] at held
  exact ⟨⟨added, Table.get?_put_self _ added, tenant.symm⟩, runner, held, rfl, .inl alone⟩

theorem housed_applyHostFact (h kind : String) (payload : List (String × Json))
    (hub : MockHubService) :
    Housing.Changes hub.housing (Method.after (applyHostFact h kind payload) hub).housing := by
  simp only [applyHostFact]
  cases slugOf payload with
  | none => exact .idle _
  | some slug =>
    dsimp only
    split
    · refine housed_step rfl fun view s _ same => ?_
      refine housed_step same fun row s₁ known same₁ => ?_
      rw [housing_bind]
      exact housed_putHost same₁ (housed_of_host same known).2 _ ⟨rfl, rfl, rfl⟩ (.inl rfl)
    · split
      · split
        · exact .idle _
        · split
          · exact .idle _
          · refine housed_step rfl fun miss s _ same => ?_
            refine housed_step same fun row s₁ known same₁ => ?_
            rw [housing_bind]
            exact housed_putHost same₁ (housed_of_host same known).2 _ ⟨rfl, rfl, rfl⟩ (.inl rfl)
      · exact .idle _

theorem housed_ingestHostFacts (h : String) (facts : List Fact) (hub : MockHubService) :
    Housing.Changes hub.housing (Method.after (ingestHostFacts h facts) hub).housing := by
  simp only [ingestHostFacts]
  refine housed_step rfl fun _ s _ same => ?_
  refine housed_step same fun mark s₁ _ same₁ => ?_
  rw [housing_bind, ← same₁]
  exact (hostFactLane h).push_related
    (R := fun s t : MockHubService => Housing.Changes s.housing t.housing)
    (fun s => .idle s.housing) .trans
    (fun fact => housed_applyHostFact h fact.kind fact.payload) facts mark s₁

instance (slug name t : String) (p : Option String) :
    Keeps housing (seedProject slug name t p) := by
  rw [seedProject]; infer_instance

instance (name : String) (t : Option String) : Keeps housing (seedTenant name t) := by
  rw [seedTenant]; infer_instance

omit [Platform] in
instance (t name : String) : Keeps housing (renameTenant t name) := by
  rw [renameTenant]; infer_instance

omit [Platform] in
instance (r t : String) : Keeps housing (enroll r t) := by
  rw [enroll]; infer_instance

omit [Platform] in
instance (r : String) : Keeps housing (revokeToken r) := by
  rw [revokeToken]; infer_instance

theorem housed_registry (op : RegistryOp) (hub : MockHubService) :
    Housing.Changes hub.housing (Method.after op.run hub).housing := by
  cases op with
  | setRunnerProjects r entries => exact housed_setRunnerProjects r entries hub
  | addRunner name t r token ps h => exact housed_addRunner name t r token ps h hub
  | retire r actor => exact housed_retire r actor hub
  | addHost name t rs h token => exact housed_addHost name t rs h token hub
  | reportHost h report => exact housed_reportHost h report hub
  | addHostRunner h name ps => exact housed_addHostRunner h name ps hub
  | register r reg => exact housed_register r reg hub
  | heartbeat r => exact housed_heartbeat r hub
  | setPaused r paused => exact housed_setPaused r paused hub
  | seedTenant name t => exact housed_of_keeps (seedTenant name t) hub
  | seedProject slug name t p => exact housed_of_keeps (seedProject slug name t p) hub
  | renameTenant t name => exact housed_of_keeps (renameTenant t name) hub
  | enroll r t => exact housed_of_keeps (enroll r t) hub
  | revokeToken r => exact housed_of_keeps (revokeToken r) hub
  | seedSystemArtifact name content =>
    exact housed_of_keeps (setRegistry (·.putSystemArtifact name content)) hub
  | seedScope slug description created retired =>
    have : Keeps housing (seedScope slug description created retired) := by
      rw [seedScope]; infer_instance
    exact housed_of_keeps (seedScope slug description created retired) hub

theorem housed_next (op : Op) (hub : MockHubService) (h : op ≠ .reset) :
    Housing.Changes hub.housing (hub.next op).housing := by
  cases op with
  | registry op => exact housed_registry op hub
  | retireHostRunner host r actor force => exact housed_retireHostRunner host r actor force hub
  | ingestHostFacts host facts => exact housed_ingestHostFacts host facts hub
  | reset => exact absurd rfl h
  | read op =>
    have := keeps_rows_read op
    exact housed_of_keeps op.run hub
  | lever op => exact housed_of_keeps (setLevers op.apply) hub
  | seedChunk spec => exact housed_of_keeps (seedChunk spec) hub
  | claim c r w es => exact housed_of_keeps (claim c r w es) hub
  | rekeyRouteToken c r => exact housed_of_keeps (rekeyRouteToken c r) hub
  | release c r e reason token => exact housed_of_keeps (release c r e reason token) hub
  | pauseChunk c => exact housed_of_keeps (pauseChunk c) hub
  | resumeChunk c => exact housed_of_keeps (resumeChunk c) hub
  | applyCompletion c e n choice => exact housed_of_keeps (applyCompletion c e n choice) hub
  | applyDecision c e n => exact housed_of_keeps (applyDecision c e n) hub
  | hubAdvance c => exact housed_of_keeps (hubAdvance c) hub
  | stopChunk c => exact housed_of_keeps (stopChunk c) hub
  | ingestFacts r facts => exact housed_of_keeps (ingestFacts r facts) hub
  | ingestTranscripts r records => exact housed_of_keeps (ingestTranscripts r records) hub
  | answerQuestion q given actor => exact housed_of_keeps (answerQuestion q given actor) hub

end MockHubService

end BlizzardMock.MockHub
