import BlizzardMock.Data.Keyring
import BlizzardMock.MockHub.FrameLaws

namespace BlizzardMock.MockHub

open Method

structure Roster where
  projects : Table ProjectRow.projectId
  runners : Table RunnerRow.runnerId
  keyring : Keyring String String

namespace Roster

abbrev Event := Keyring.Event String String

def Serves (roster : Roster) (row : RunnerRow) : Prop :=
  ∀ id ∈ MockHubService.servedProjectIds row,
    ∃ project, roster.projects.get? id = some project ∧ project.tenantId = row.tenantId

inductive Changes : Roster → List Event → Roster → Prop
  | idle (roster) : Changes roster [] roster
  | seed {roster} (project : ProjectRow) (fresh : roster.projects.get? project.projectId = none) :
    Changes roster [] { roster with projects := roster.projects.put project }
  | revise {roster row next} (held : roster.runners.get? row.runnerId = some row)
    (runnerId : next.runnerId = row.runnerId) (tenantId : next.tenantId = row.tenantId)
    (retiredAt : next.retiredAt = row.retiredAt)
    (served : next.projects = row.projects ∨ roster.Serves next) :
    Changes roster [] { roster with runners := roster.runners.put next }
  | add {roster row} (token) (fresh : roster.runners.get? row.runnerId = none)
    (live : row.retiredAt = none) (served : roster.Serves row) :
    Changes roster [.issued token row.runnerId] { roster with
      runners := roster.runners.put row, keyring := roster.keyring.grant token row.runnerId }
  | rotate {roster row} (token) (held : roster.runners.get? row.runnerId = some row)
    (live : row.retiredAt = none) :
    Changes roster [.issued token row.runnerId, .revoked row.runnerId] { roster with
      keyring := (roster.keyring.retract row.runnerId).grant token row.runnerId }
  | revoke {roster} (runnerId) :
    Changes roster [.revoked runnerId] { roster with keyring := roster.keyring.retract runnerId }
  | retire {roster row next} (held : roster.runners.get? row.runnerId = some row)
    (runnerId : next.runnerId = row.runnerId) (tenantId : next.tenantId = row.tenantId)
    (projects : next.projects = row.projects) :
    Changes roster [.revoked row.runnerId] { roster with
      runners := roster.runners.put next, keyring := roster.keyring.retract row.runnerId }
  | retired {roster row} (held : roster.runners.get? row.runnerId = some row)
    (already : row.retiredAt.isSome) : Changes roster [.revoked row.runnerId] roster
  | trans {roster mid next events later} (first : Changes roster events mid)
    (second : Changes mid later next) : Changes roster (later ++ events) next

theorem isSome_put {runners : Table RunnerRow.runnerId} {r : String} (row : RunnerRow)
    (h : (runners.get? r).isSome) : ((runners.put row).get? r).isSome := by
  rw [Table.get?_put]
  split
  · rfl
  · exact h

theorem Changes.present {roster next : Roster} {events : List Event}
    (changes : Changes roster events next)
    {r : String} (h : (roster.runners.get? r).isSome) : (next.runners.get? r).isSome := by
  induction changes with
  | revise => exact isSome_put _ h
  | add => exact isSome_put _ h
  | retire => exact isSome_put _ h
  | trans _ _ first second => exact second (first h)
  | _ => exact h

end Roster

open Roster (Changes)

namespace MockHubService

def roster (hub : MockHubService) : Roster :=
  ⟨hub.store.projects, hub.store.runners, ⟨hub.store.tokens, hub.store.revokedTokens⟩⟩

def registry (hub : MockHubService) : Registry := hub.store.toRegistry

section Primitives

variable {α : Type}

instance (m : HubM α) [h : Keeps rows m] : Keeps registry m := h.comp m fun w => w.1.toRegistry
instance (m : HubM α) [h : Keeps aroundChunks m] : Keeps registry m := h.comp m Prod.fst
instance (m : HubM α) [h : Keeps aroundQuestions m] : Keeps registry m := h.comp m Prod.fst
instance (f : Books → Books) : Keeps registry (setBooks f) := ⟨fun _ => rfl⟩

instance (m : HubM α) [h : Keeps registry m] : Keeps roster m :=
  h.comp m fun store => Roster.mk store.projects store.runners ⟨store.tokens, store.revokedTokens⟩

instance (row : TenantRow) : Keeps roster (setRegistry (·.putTenant row)) := ⟨fun _ => rfl⟩
instance (row : HostRow) : Keeps roster (setRegistry (·.putHost row)) := ⟨fun _ => rfl⟩
instance (row : HostRow) (token : String) : Keeps roster (setRegistry (·.addHost row token)) :=
  ⟨fun _ => rfl⟩
instance (row : ScopeRow) : Keeps roster (setRegistry (·.putScope row)) := ⟨fun _ => rfl⟩
instance (name content : String) : Keeps roster (setRegistry (·.putSystemArtifact name content)) :=
  ⟨fun _ => rfl⟩

end Primitives

variable [Platform]

instance (r : String) (payload : List (String × Json)) :
    Keeps registry (applyLeaseMinted r payload) := by
  simp only [applyLeaseMinted, advanceFence]
  infer_instance

instance (r kind : String) (payload : List (String × Json)) :
    Keeps registry (applyFact r kind payload) := by
  simp only [applyFact]
  infer_instance

instance (h kind : String) (payload : List (String × Json)) :
    Keeps roster (applyHostFact h kind payload) := by
  simp only [applyHostFact]
  cases slugOf payload with
  | none => infer_instance
  | some slug =>
    dsimp only
    split
    · infer_instance
    · split
      · split <;> infer_instance
      · infer_instance

instance (r : String) (facts : List Fact) : Keeps registry (ingestFacts r facts) := by
  have judged (fact : Fact) : Keeps registry ((factLane r).judge fact) :=
    inferInstanceAs (Keeps registry (applyFact r fact.kind fact.payload))
  simp only [ingestFacts]
  infer_instance

instance (h : String) (facts : List Fact) : Keeps roster (ingestHostFacts h facts) := by
  have judged (fact : Fact) : Keeps roster ((hostFactLane h).judge fact) :=
    inferInstanceAs (Keeps roster (applyHostFact h fact.kind fact.payload))
  simp only [ingestHostFacts]
  infer_instance

instance (r : String) (records : List TranscriptRecord) :
    Keeps registry (ingestTranscripts r records) := by
  simp only [ingestTranscripts]
  infer_instance

omit [Platform] in
theorem changes_bind {α β : Type} {m : HubM α} {g : α → HubM β} [Keeps roster m]
    {s o : MockHubService}
    {events : Except HubError β → List Roster.Event}
    (quiet : ∀ e, answer m s = .error e → events (.error e) = [])
    (same : s.roster = o.roster)
    (continued : ∀ a t, answer m s = .ok a → t.roster = o.roster →
      Changes o.roster (events (answer (g a) t)) (Method.after (g a) t).roster) :
    Changes o.roster (events (answer (m >>= g) s)) (Method.after (m >>= g) s).roster := by
  rw [after_bind, answer_bind]
  have kept := (Keeps.keeps (f := roster) (m := m) s).trans same
  cases answered : answer m s with
  | ok a => exact continued a _ answered kept
  | error e =>
    rw [quiet e answered, kept]
    exact .idle _

omit [Platform] in
theorem changes_step {α β : Type} {m : HubM α} {g : α → HubM β} [Keeps roster m]
    {s o : MockHubService}
    (same : s.roster = o.roster)
    (continued : ∀ a t, answer m s = .ok a → t.roster = o.roster →
      Changes o.roster [] (Method.after (g a) t).roster) :
    Changes o.roster [] (Method.after (m >>= g) s).roster := by
  apply after_bind_of_keeps (f := roster)
    (P := fun t => Changes o.roster [] (MockHubService.roster t)) same
  · intro t kept
    rw [kept]
    exact .idle _
  · exact continued

omit [Platform] in
theorem roster_bind {α β : Type} (m : HubM α) (g : α → HubM β) [h : ∀ a, Keeps roster (g a)]
    (s : MockHubService) : (Method.after (m >>= g) s).roster = (Method.after m s).roster := by
  rw [after_bind]
  cases answer m s with
  | ok a => exact (h a).keeps _
  | error e => rfl

omit [Platform] in
theorem changes_of_keeps {α : Type} (m : HubM α) [h : Keeps roster m] (hub : MockHubService) :
    Changes hub.roster [] (Method.after m hub).roster := by
  rw [h.keeps]
  exact .idle _

omit [Platform] in
theorem resolveProject_serves {store : Registry} {tenantId value : String} {project : ProjectRow}
    (h : resolveProject store tenantId value = some project) :
    store.projects.get? project.projectId = some project ∧ project.tenantId = tenantId := by
  simp only [resolveProject] at h
  split at h
  · obtain ⟨found, tenant⟩ := Option.filter_eq_some_iff.mp h
    rw [Table.key_of_get? found]
    exact ⟨found, of_decide_eq_true tenant⟩
  · have mem := List.mem_of_find?_eq_some h
    obtain ⟨row, tenant⟩ := List.mem_filter.mp mem
    exact ⟨Table.mem_rows.mp row, of_decide_eq_true tenant⟩

omit [Platform] in
theorem serves_declared {hub : MockHubService} {row : RunnerRow} {entries : List String}
    (h : row.projects = declared hub.store.toRegistry row.tenantId entries) :
    hub.roster.Serves row := by
  intro id served
  simp only [servedProjectIds, h, declared, List.filterMap_map] at served
  obtain ⟨entry, _, resolved⟩ := List.mem_filterMap.mp served
  obtain ⟨project, found, named⟩ := Option.map_eq_some_iff.mp resolved
  obtain ⟨held, tenant⟩ := resolveProject_serves found
  rw [named] at held
  exact ⟨project, held, tenant⟩

omit [Platform] in
theorem serves_addedDeclaration {hub : MockHubService} {row : RunnerRow}
    {projects : Option (List String)}
    (h : addedDeclaration hub.store.toRegistry row.tenantId projects = .ok row.projects) :
    hub.roster.Serves row := by
  cases projects with
  | none =>
    simp only [addedDeclaration] at h
    split at h
    case h_1 project only =>
      have mem : project ∈ tenantProjects hub.store.toRegistry row.tenantId := by simp [only]
      obtain ⟨found, tenant⟩ := List.mem_filter.mp mem
      intro id served
      simp only [servedProjectIds, ← Except.ok.inj h] at served
      cases List.mem_singleton.mp served
      exact ⟨project, Table.mem_rows.mp found, of_decide_eq_true tenant⟩
    case h_2 =>
      intro id served
      simp only [servedProjectIds, ← Except.ok.inj h] at served
      cases served
  | some entries =>
    simp only [addedDeclaration] at h
    split at h
    case isTrue => cases h
    case isFalse => exact serves_declared (Except.ok.inj h).symm

omit [Platform] in
theorem row_of_added {s o : MockHubService} {r : String} {row : RunnerRow}
    (same : s.roster = o.roster) (h : answer (added r) s = .ok row) :
    row.runnerId = r ∧ o.roster.runners.get? row.runnerId = some row := by
  have found : s.store.runners.get? r = some row := orRaise_ok.mp h
  have key := Table.key_of_get? found
  refine ⟨key, ?_⟩
  rw [key, ← same]
  exact found

def addition : Except HubError RunnerAddResponse → List Roster.Event
  | .ok response => [.issued response.token response.runnerId]
  | .error _ => []

theorem changes_addRunner (name t : String) (r token : Option String) (ps : Option (List String))
    (h : Option String) (hub : MockHubService) :
    Changes hub.roster (addition (answer (addRunner name t r token ps h) hub))
      (Method.after (addRunner name t r token ps h) hub).roster := by
  have quiet (e : HubError) {p : Prop} : p → addition (.error e) = [] := fun _ => rfl
  simp only [addRunner]
  refine changes_bind (fun e => quiet e) rfl fun row s _ same => ?_
  refine changes_bind (fun e => quiet e) same fun resolved s₁ read same₁ => ?_
  refine changes_bind (fun e => quiet e) same₁ fun declaration s₂ settled same₂ => ?_
  refine changes_bind (fun e => quiet e) same₂ fun addedId s₃ _ same₃ => ?_
  refine changes_bind (fun e => quiet e) same₃ fun issued s₄ _ same₄ => ?_
  refine changes_bind (fun e => quiet e) same₄ fun instant s₅ _ same₅ => ?_
  refine changes_bind (fun e => quiet e) same₅ fun host s₆ _ same₆ => ?_
  refine changes_bind (fun e => quiet e) same₆ fun present s₇ dict same₇ => ?_
  refine changes_bind (fun e => quiet e) same₇ fun _ s₈ absent same₈ => ?_
  cases read
  cases dict
  rw [answer_settle] at settled
  have fresh : hub.roster.runners.get? addedId = none := by
    rw [← same₆]
    exact Dict.not_mem_iff.mp (refuseIf_ok.mp absent)
  let runner : RunnerRow := {
    runnerId := addedId, tenantId := row.tenantId, name := name, addedAt := instant
    projects := declaration, hostId := host }
  have served : hub.roster.Serves runner := by
    rw [← same]
    exact serves_addedDeclaration settled
  have written : (Method.after (setRegistry (·.addRunner runner issued)) s₈).roster =
      { s₈.roster with
        runners := s₈.roster.runners.put runner
        keyring := s₈.roster.keyring.grant issued runner.runnerId } := rfl
  rw [same₈] at written
  rw [after_bind_of_ok _ rfl, after_pure, written]
  exact .add issued fresh rfl served

theorem changes_addHostRunner (h name : String) (ps : Option (List String)) (hub : MockHubService) :
    Changes hub.roster (addition (answer (addHostRunner h name ps) hub))
      (Method.after (addHostRunner h name ps) hub).roster := by
  simp only [addHostRunner]
  refine changes_bind (fun _ _ => rfl) rfl fun row s _ same => ?_
  rw [← same]
  exact changes_addRunner _ _ _ _ _ _ s

def rotation : Except HubError RunnerEnrollmentResponse → List Roster.Event
  | .ok response => [.issued response.token response.runnerId, .revoked response.runnerId]
  | .error _ => []

omit [Platform] in
theorem changes_enroll (r t : String) (hub : MockHubService) :
    Changes hub.roster (rotation (answer (enroll r t) hub))
      (Method.after (enroll r t) hub).roster := by
  have quiet (e : HubError) {p : Prop} : p → rotation (.error e) = [] := fun _ => rfl
  simp only [enroll]
  refine changes_bind (fun e => quiet e) rfl fun row s known same => ?_
  refine changes_bind (fun e => quiet e) same fun _ s₁ _ same₁ => ?_
  refine changes_bind (fun e => quiet e) same₁ fun _ s₂ live same₂ => ?_
  refine changes_bind (fun e => quiet e) same₂ fun secret s₃ _ same₃ => ?_
  obtain ⟨key, held⟩ := row_of_added rfl known
  have live : row.retiredAt = none := by simpa using refuseIf_ok.mp live
  have written : (Method.after
    (setRegistry (·.replaceToken r (some ("mock-runner-token-" ++ secret)))) s₃).roster =
      { s₃.roster with
        keyring := (s₃.roster.keyring.retract r).grant ("mock-runner-token-" ++ secret) r } := rfl
  rw [same₃] at written
  rw [after_bind_of_ok _ rfl, after_pure, written, ← key]
  exact .rotate _ held live

def revocation {α : Type} (r : String) : Except HubError α → List Roster.Event
  | .ok _ => [.revoked r]
  | .error _ => []

omit [Platform] in
theorem changes_revokeToken (r : String) (hub : MockHubService) :
    Changes hub.roster (revocation r (answer (revokeToken r) hub))
      (Method.after (revokeToken r) hub).roster := by
  simp only [revokeToken]
  refine changes_bind (fun _ _ => rfl) rfl fun row s known same => ?_
  obtain ⟨key, _⟩ := row_of_added rfl known
  have written : (Method.after (setRegistry (·.replaceToken row.runnerId none)) s).roster =
      { s.roster with keyring := s.roster.keyring.retract row.runnerId } := rfl
  rw [same] at written
  rw [written, key]
  exact .revoke r

omit [Platform] in
theorem changes_retire (r actor : String) (hub : MockHubService) :
    Changes hub.roster (revocation r (answer (retire r actor) hub))
      (Method.after (retire r actor) hub).roster := by
  simp only [retire]
  refine changes_bind (fun _ _ => rfl) rfl fun row s known same => ?_
  obtain ⟨key, held⟩ := row_of_added rfl known
  by_cases already : row.retiredAt.isSome
  · rw [if_pos already, after_pure, same, ← key]
    exact .retired held already
  · rw [if_neg already]
    refine changes_bind (fun _ _ => rfl) same fun instant s₁ _ same₁ => ?_
    let next : RunnerRow := { row with retiredAt := some instant, retiredBy := some actor }
    have written : (Method.after (setRegistry (·.putRunner next) >>= fun _ =>
        setRegistry (·.replaceToken r none)) s₁).roster =
        { s₁.roster with
          runners := s₁.roster.runners.put next
          keyring := s₁.roster.keyring.retract r } := rfl
    rw [same₁] at written
    rw [written, ← key]
    exact .retire held rfl rfl rfl

omit [Platform] in
theorem answer_retire {hub : MockHubService} {r : String} {row : RunnerRow}
    (present : hub.store.runners.get? r = some row) (actor : String) :
    answer (retire r actor) hub = .ok () := by
  simp only [retire]
  rw [answer_bind, answer_added_some present]
  dsimp only
  split
  · rfl
  · rfl

omit [Platform] in
theorem changes_putRunner {s o : MockHubService} (same : s.roster = o.roster) {row : RunnerRow}
    (held : o.roster.runners.get? row.runnerId = some row) (next : RunnerRow)
    (identity : next.runnerId = row.runnerId ∧ next.tenantId = row.tenantId ∧
      next.retiredAt = row.retiredAt)
    (served : next.projects = row.projects ∨ o.roster.Serves next) :
    Changes o.roster [] (Method.after (setRegistry (·.putRunner next)) s).roster := by
  have written : (Method.after (setRegistry (·.putRunner next)) s).roster =
      { s.roster with runners := s.roster.runners.put next } := rfl
  rw [written, same]
  exact .revise held identity.1 identity.2.1 identity.2.2 served

omit [Platform] in
theorem changes_setRunnerProjects (r : String) (entries : List String) (hub : MockHubService) :
    Changes hub.roster [] (Method.after (setRunnerProjects r entries) hub).roster := by
  simp only [setRunnerProjects]
  refine changes_step rfl fun row s known same => ?_
  refine changes_step same fun declaration s₁ read same₁ => ?_
  obtain ⟨_, held⟩ := row_of_added rfl known
  cases read
  rw [roster_bind]
  refine changes_putRunner same₁ held _ ⟨rfl, rfl, rfl⟩ (.inr ?_)
  rw [← same]
  exact serves_declared rfl

omit [Platform] in
theorem changes_setPaused (r : String) (paused : Bool) (hub : MockHubService) :
    Changes hub.roster [] (Method.after (setPaused r paused) hub).roster := by
  simp only [setPaused]
  refine changes_step rfl fun row s known same => ?_
  obtain ⟨_, held⟩ := row_of_added rfl known
  exact changes_putRunner same held _ ⟨rfl, rfl, rfl⟩ (.inl rfl)

omit [Platform] in
theorem changes_heartbeat (r : String) (hub : MockHubService) :
    Changes hub.roster [] (Method.after (heartbeat r) hub).roster := by
  simp only [heartbeat]
  refine changes_step rfl fun known s read same => ?_
  cases read
  dsimp only
  split
  case h_1 => exact same ▸ .idle _
  case h_2 row known =>
    obtain ⟨_, held⟩ := row_of_added (s := hub) rfl (orRaise_ok.mpr known)
    split
    case isTrue => exact same ▸ .idle _
    case isFalse =>
      refine changes_step same fun instant s₁ _ same₁ => ?_
      rw [roster_bind]
      exact changes_putRunner same₁ held _ ⟨rfl, rfl, rfl⟩ (.inl rfl)

instance (r : String) (version : Option String) : Keeps roster (refuseVersion r version) := by
  simp only [refuseVersion]
  infer_instance

omit [Platform] in
theorem serves_registered (hub : MockHubService) (row : RunnerRow) (name : Option String)
    (reg : Registration) (named : Option (List String)) (instant : DateTime) :
    let next := row.registered name reg
      (named.map (declared hub.store.toRegistry row.tenantId)) instant
    next.projects = row.projects ∨ hub.roster.Serves next := by
  cases named with
  | none => exact .inl rfl
  | some entries => exact .inr (serves_declared rfl)

theorem changes_register (r : String) (reg : Registration) (hub : MockHubService) :
    Changes hub.roster [] (Method.after (register r reg) hub).roster := by
  simp only [register]
  refine changes_step rfl fun row s known same => ?_
  refine changes_step same fun _ s₁ _ same₁ => ?_
  refine changes_step same₁ fun declaration s₂ read same₂ => ?_
  refine changes_step same₂ fun instant s₃ _ same₃ => ?_
  obtain ⟨_, held⟩ := row_of_added rfl known
  cases read
  rw [roster_bind]
  refine changes_putRunner same₃ held _ ⟨rfl, rfl, rfl⟩ ?_
  rw [← same₁]
  exact serves_registered s₁ row _ reg _ instant

omit [Platform] in
theorem changes_adopt {hub : MockHubService} (hostId : String) {runners : List RunnerRow}
    (held : ∀ row ∈ runners, ∃ current, hub.roster.runners.get? row.runnerId = some current ∧
      row.tenantId = current.tenantId ∧ row.retiredAt = current.retiredAt ∧
      row.projects = current.projects) :
    Changes hub.roster [] (Method.after (setRegistry (adopt · hostId runners)) hub).roster := by
  induction runners generalizing hub with
  | nil => exact .idle _
  | cons row rest ih =>
    obtain ⟨current, found, tenantId, retiredAt, projects⟩ := held row List.mem_cons_self
    have key : row.runnerId = current.runnerId := (Table.key_of_get? found).symm
    let next : RunnerRow := { row with hostId := some hostId }
    have first : Changes hub.roster [] (Method.after (setRegistry (·.putRunner next)) hub).roster :=
      changes_putRunner rfl (key ▸ found) next ⟨key, tenantId, retiredAt⟩ (.inl projects)
    have others : ∀ other ∈ rest, ∃ current,
        (Method.after (setRegistry (·.putRunner next)) hub).roster.runners.get? other.runnerId =
          some current ∧ other.tenantId = current.tenantId ∧ other.retiredAt = current.retiredAt ∧
        other.projects = current.projects := by
      intro other mem
      obtain ⟨before, known, like⟩ := held other (List.mem_cons_of_mem _ mem)
      by_cases same : other.runnerId = row.runnerId
      · rw [same] at known ⊢
        rw [found] at known
        cases known
        rw [tenantId.symm, retiredAt.symm, projects.symm] at like
        exact ⟨next, Table.get?_put_self _ next, like⟩
      · have apart : other.runnerId ≠ next.runnerId := same
        exact ⟨before, (Table.get?_put_of_ne apart hub.roster.runners).trans known, like⟩
    exact .trans first (ih others)

omit [Platform] in
theorem adoptees_held {store : Registry} {t : String} {ids : List String} {rows : List RunnerRow}
    (h : adoptees store t ids = .ok rows) :
    ∀ row ∈ rows, store.runners.get? row.runnerId = some row := by
  induction ids generalizing rows with
  | nil =>
    cases h
    intro row mem
    cases mem
  | cons id rest ih =>
    simp only [adoptees] at h
    cases found : (store.runners.get? id).filter (·.tenantId = t) with
    | none =>
      rw [found] at h
      cases h
    | some first =>
      rw [found] at h
      obtain ⟨held, _⟩ := Option.filter_eq_some_iff.mp found
      cases tail : adoptees store t rest with
      | error e =>
        rw [tail] at h
        cases h
      | ok others =>
        rw [tail] at h
        cases h
        intro row mem
        cases mem with
        | head =>
          rw [Table.key_of_get? held]
          exact held
        | tail _ mem => exact ih tail row mem

omit [Platform] in
theorem hostAdmission_adoptees {name t : String} {adopting : List String} {s : MockHubService}
    {runners : List RunnerRow} (h : answer (hostAdmission name t adopting) s = .ok runners) :
    adoptees s.store.toRegistry t adopting = .ok runners := by
  obtain ⟨found, hread, h⟩ := answer_bind_ok h
  obtain ⟨rows, settled, h⟩ := answer_bind_ok h
  cases hread
  rw [answer_settle] at settled
  obtain ⟨_, _, h⟩ := answer_bind_ok h
  obtain ⟨_, _, h⟩ := answer_bind_ok h
  obtain ⟨_, _, h⟩ := answer_bind_ok h
  obtain ⟨_, _, h⟩ := answer_bind_ok h
  cases h
  exact settled

theorem changes_addHost (name t : String) (adopting : List String) (h token : Option String)
    (hub : MockHubService) :
    Changes hub.roster [] (Method.after (addHost name t adopting h token) hub).roster := by
  simp only [addHost]
  refine changes_step rfl fun row s _ same => ?_
  refine changes_step same fun runners s₁ admitted same₁ => ?_
  refine changes_step same₁ fun addedId s₂ _ same₂ => ?_
  refine changes_step same₂ fun issued s₃ _ same₃ => ?_
  refine changes_step same₃ fun instant s₄ _ same₄ => ?_
  refine changes_step same₄ fun present s₅ _ same₅ => ?_
  refine changes_step same₅ fun _ s₆ _ same₆ => ?_
  refine changes_step same₆ fun _ s₇ _ same₇ => ?_
  rw [roster_bind, ← same₇]
  apply changes_adopt
  intro row mem
  refine ⟨row, ?_, rfl, rfl, rfl⟩
  rw [same₇, ← same]
  exact adoptees_held (hostAdmission_adoptees admitted) row mem

theorem changes_seedProject (slug name t : String) (p : Option String) (hub : MockHubService) :
    Changes hub.roster [] (Method.after (seedProject slug name t p) hub).roster := by
  simp only [seedProject]
  refine changes_step rfl fun row s _ same => ?_
  refine changes_step same fun minted s₁ _ same₁ => ?_
  refine changes_step same₁ fun present s₂ read same₂ => ?_
  refine changes_step same₂ fun _ s₃ absent same₃ => ?_
  refine changes_step same₃ fun held s₄ _ same₄ => ?_
  refine changes_step same₄ fun _ s₅ _ same₅ => ?_
  cases read
  let project : ProjectRow := ⟨minted, row.tenantId, slug, name⟩
  have fresh : hub.roster.projects.get? project.projectId = none := by
    rw [← same₁]
    exact Dict.not_mem_iff.mp (refuseIf_ok.mp absent)
  have written : (Method.after (setRegistry (·.putProject project)) s₅).roster =
      { s₅.roster with projects := s₅.roster.projects.put project } := rfl
  rw [roster_bind, written, same₅]
  exact .seed project fresh

theorem changes_seedTenant (name : String) (t : Option String) (hub : MockHubService) :
    Changes hub.roster [] (Method.after (seedTenant name t) hub).roster := by
  simp only [seedTenant]
  refine changes_step rfl fun minted s _ same => ?_
  refine changes_step same fun present s₁ _ same₁ => ?_
  refine changes_step same₁ fun _ s₂ _ same₂ => ?_
  refine changes_step same₂ fun _ s₃ _ same₃ => ?_
  rw [roster_bind, ← same₃]
  exact changes_seedProject _ _ _ _ s₃

def hostRetirement {α : Type} (r : String) : Except HubError α → List Roster.Event
  | .ok _ => [.revoked r]
  | .error (.runnerRetireInterrupted r') => [.revoked r']
  | .error _ => []

omit [Platform] in
theorem changes_retireHostRunner (h r actor : String) (force : Bool) (hub : MockHubService) :
    Changes hub.roster (hostRetirement r (answer (retireHostRunner h r actor force) hub))
      (Method.after (retireHostRunner h r actor force) hub).roster := by
  simp only [retireHostRunner]
  refine changes_bind (fun _ raised => by cases raised) rfl fun found s read same => ?_
  refine changes_bind (fun e raised => by rw [error_of_orRaise raised]; rfl) same
    fun runner s₁ known same₁ => ?_
  refine changes_bind (fun _ raised => by cases raised) same₁ fun held s₂ _ same₂ => ?_
  refine changes_bind
    (fun e raised => by rw [error_of_refuseIf raised]; rfl) same₂ fun _ s₃ _ same₃ => ?_
  refine changes_bind (fun _ raised => by cases raised) same₃ fun conflict s₄ _ same₄ => ?_
  cases read
  obtain ⟨present, _⟩ := Option.filter_eq_some_iff.mp (orRaise_ok.mp known)
  have present : hub.roster.runners.get? r = some runner := present
  have retires {t : MockHubService} (same : t.roster = hub.roster) :
      Changes hub.roster [.revoked r] (Method.after (retire r actor) t).roster ∧
        answer (retire r actor) t = .ok () := by
    have moved := changes_retire r actor t
    rw [← same] at present
    rw [answer_retire present] at moved
    rw [← same]
    exact ⟨moved, answer_retire present actor⟩
  cases conflict.filter (retireConflictBites · r held) with
  | none =>
    obtain ⟨moved, answered⟩ := retires same₄
    obtain ⟨row, found⟩ :=
      Option.isSome_iff_exists.mp (moved.present (Option.isSome_iff_exists.mpr ⟨_, present⟩))
    change Changes hub.roster (hostRetirement r (answer (retire r actor >>= _) s₄))
      (Method.after (retire r actor >>= _) s₄).roster
    have there : (Method.after (setChunks (unroute · held))
      (Method.after (retire r actor) s₄)).store.runners.get? r =
        some row := found
    rw [roster_bind, answer_bind, answered]
    dsimp only
    rw [answer_bind_of_ok _ rfl, answer_bind_of_ok _ (answer_added_some there)]
    exact moved
  | some lever =>
    have same₅ : (Method.after (consumeLever lever) s₄).roster = hub.roster :=
      (Keeps.keeps (f := roster) (m := consumeLever lever) s₄).trans same₄
    obtain ⟨moved, answered⟩ := retires same₅
    simp only [whenSome]
    by_cases interrupted : (Json.get lever.payload "interrupted" (.bool false)).truthy
    · have raised : answer (do
          consumeLever lever
          if (Json.get lever.payload "interrupted" (.bool false)).truthy then do
            retire r actor
            raise (.runnerRetireInterrupted r)
          else raise (.runnerLifecycleConflict r) : HubM Unit) s₄ =
          .error (.runnerRetireInterrupted r) := by
        rw [answer_bind_of_ok _ rfl, if_pos interrupted, answer_bind_of_ok _ answered, answer_raise]
      rw [answer_bind_of_error _ raised, after_bind_of_error _ raised, after_bind_of_ok _ rfl,
        if_pos interrupted, after_bind_of_ok _ answered, after_raise]
      exact moved
    · have raised : answer (do
          consumeLever lever
          if (Json.get lever.payload "interrupted" (.bool false)).truthy then do
            retire r actor
            raise (.runnerRetireInterrupted r)
          else raise (.runnerLifecycleConflict r) : HubM Unit) s₄ =
          .error (.runnerLifecycleConflict r) := by
        rw [answer_bind_of_ok _ rfl, if_neg interrupted, answer_raise]
      rw [answer_bind_of_error _ raised, after_bind_of_error _ raised, after_bind_of_ok _ rfl,
        if_neg interrupted, after_raise, same₅]
      exact .idle _

end MockHubService

def RegistryOp.events : (op : RegistryOp) → Except HubError op.Answer → List Roster.Event
  | .addRunner .., answered => MockHubService.addition answered
  | .addHostRunner .., answered => MockHubService.addition answered
  | .enroll .., answered => MockHubService.rotation answered
  | .revokeToken r, answered => MockHubService.revocation r answered
  | .retire r _, answered => MockHubService.revocation r answered
  | _, _ => []

def Op.events : (op : Op) → Except HubError op.Answer → List Roster.Event
  | .registry op, answered => op.events answered
  | .retireHostRunner _ r _ _, answered => MockHubService.hostRetirement r answered
  | _, _ => []

namespace MockHubService

variable [Platform]

theorem changes_registry (op : RegistryOp) (hub : MockHubService) :
    Changes hub.roster (op.events (answer op.run hub)) (Method.after op.run hub).roster := by
  cases op with
  | seedTenant name t => exact changes_seedTenant name t hub
  | renameTenant t name =>
    have : Keeps roster (renameTenant t name) := by
      simp only [renameTenant]
      infer_instance
    exact changes_of_keeps (renameTenant t name) hub
  | seedProject slug name t p => exact changes_seedProject slug name t p hub
  | setRunnerProjects r entries => exact changes_setRunnerProjects r entries hub
  | addRunner name t r token ps h => exact changes_addRunner name t r token ps h hub
  | enroll r t => exact changes_enroll r t hub
  | revokeToken r => exact changes_revokeToken r hub
  | retire r actor => exact changes_retire r actor hub
  | addHost name t rs h token => exact changes_addHost name t rs h token hub
  | reportHost h report =>
    have : Keeps roster (reportHost h report) := by
      simp only [reportHost]
      infer_instance
    exact changes_of_keeps (reportHost h report) hub
  | addHostRunner h name ps => exact changes_addHostRunner h name ps hub
  | register r reg => exact changes_register r reg hub
  | heartbeat r => exact changes_heartbeat r hub
  | setPaused r paused => exact changes_setPaused r paused hub
  | seedSystemArtifact name content =>
    have : Keeps roster (seedSystemArtifact name content) := by
      simp only [seedSystemArtifact]
      infer_instance
    exact changes_of_keeps (seedSystemArtifact name content) hub
  | seedScope slug description created retired =>
    have : Keeps roster (seedScope slug description created retired) := by
      simp only [seedScope]
      infer_instance
    exact changes_of_keeps (seedScope slug description created retired) hub

theorem changes_next (op : Op) (hub : MockHubService) (h : op ≠ .reset) :
    Changes hub.roster (op.events (answer op.run hub)) (hub.next op).roster := by
  cases op with
  | registry op => exact changes_registry op hub
  | retireHostRunner host r actor force => exact changes_retireHostRunner host r actor force hub
  | reset => exact absurd rfl h
  | read op =>
    have := keeps_rows_read op
    exact changes_of_keeps op.run hub
  | lever op => exact changes_of_keeps (setLevers op.apply) hub
  | seedChunk spec => exact changes_of_keeps (seedChunk spec) hub
  | claim c r w es => exact changes_of_keeps (claim c r w es) hub
  | rekeyRouteToken c r => exact changes_of_keeps (rekeyRouteToken c r) hub
  | release c r e reason token => exact changes_of_keeps (release c r e reason token) hub
  | pauseChunk c => exact changes_of_keeps (pauseChunk c) hub
  | resumeChunk c => exact changes_of_keeps (resumeChunk c) hub
  | applyCompletion c e n choice => exact changes_of_keeps (applyCompletion c e n choice) hub
  | applyDecision c e n => exact changes_of_keeps (applyDecision c e n) hub
  | hubAdvance c => exact changes_of_keeps (hubAdvance c) hub
  | stopChunk c => exact changes_of_keeps (stopChunk c) hub
  | ingestFacts r facts => exact changes_of_keeps (ingestFacts r facts) hub
  | ingestHostFacts host facts => exact changes_of_keeps (ingestHostFacts host facts) hub
  | ingestTranscripts r records => exact changes_of_keeps (ingestTranscripts r records) hub
  | answerQuestion q given actor => exact changes_of_keeps (answerQuestion q given actor) hub

end MockHubService

end BlizzardMock.MockHub
