import BlizzardMock.MockHub.HousingLaws

namespace BlizzardMock.MockHub

open Method

/-- The calls that add hosts and runners, report a host, and retire a host's runner. -/
def Op.OfHosts : Op → Prop
  | .registry (.addHost ..) | .registry (.reportHost ..) | .registry (.addRunner ..)
  | .registry (.addHostRunner ..) | .retireHostRunner .. => True
  | _ => False

namespace MockHubService

/-- No lever stands in for the retirement of a host's runner. -/
def Uninterrupted (hub : MockHubService) : Prop :=
  lever hub.levers .hostRetireLifecycleConflict none = none

def Quiet {α : Type} (hub : MockHubService) (answer : Except HubError α) (later : MockHubService) :
    Prop :=
  ∀ e, answer = .error e → later.rows = hub.rows

section Quiet

variable {α β : Type} {hub : MockHubService}

theorem quiet_bind {m : HubM α} {g : α → HubM β} [Keeps rows m] {s : MockHubService}
    (same : s.rows = hub.rows)
    (rest : ∀ a t, answer m s = .ok a → t.rows = hub.rows →
      hub.Quiet (answer (g a) t) (Method.after (g a) t)) :
    hub.Quiet (answer (m >>= g) s) (Method.after (m >>= g) s) :=
  outcome_bind_of_keeps (P := hub.Quiet) same (fun _ _ kept _ _ => kept) rest

theorem quiet_read {m : HubM α} {g : α → HubM β} [Keeps id m]
    (rest : ∀ a, answer m hub = .ok a → hub.Quiet (answer (g a) hub) (Method.after (g a) hub)) :
    hub.Quiet (answer (m >>= g) hub) (Method.after (m >>= g) hub) := by
  apply outcome_bind_of_keeps (f := id) (o := hub) (P := hub.Quiet) rfl
  · intro e t kept _ _
    exact congrArg rows kept
  · intro a t answered kept
    cases kept
    exact rest a answered

theorem quiet_of_ok {r : Except HubError α} {a : α} (answered : r = .ok a)
    (later : MockHubService) :
    hub.Quiet r later := by
  intro e raised
  rw [answered] at raised
  cases raised

theorem answer_hostRecord {h : String} {row : HostRow} (held : hub.store.hosts.get? h = some row) :
    answer (hostRecord h) hub = .ok (hostRecordOf hub.store.toRegistry row) := by
  simp only [hostRecord]
  exact answer_bind_ok_iff.mpr ⟨row, orRaise_ok.mpr held, rfl⟩

theorem quiet_reportHost (h : String) (report : HostReport) :
    hub.Quiet (answer (reportHost h report) hub) (Method.after (reportHost h report) hub) := by
  simp only [reportHost]
  refine quiet_bind rfl fun row s found same => ?_
  refine quiet_bind same fun name s₁ _ same₁ => ?_
  refine quiet_bind same₁ fun instant s₂ _ same₂ => ?_
  have key : row.hostId = h := (housed_of_host rfl found).1
  rw [answer_bind_of_ok _ rfl]
  apply quiet_of_ok
  apply answer_hostRecord
  rw [← key]
  exact Table.get?_put_self _ _

theorem quiet_retireHostRunner (uninterrupted : hub.Uninterrupted) (h r actor : String)
    (force : Bool) :
    hub.Quiet (answer (retireHostRunner h r actor force) hub)
      (Method.after (retireHostRunner h r actor force) hub) := by
  simp only [retireHostRunner]
  refine quiet_read fun found read => ?_
  refine quiet_read fun runner known => ?_
  refine quiet_read fun held _ => ?_
  refine quiet_read fun _ _ => ?_
  refine quiet_read fun conflict armed => ?_
  cases armed
  cases read
  obtain ⟨present, _⟩ := Option.filter_eq_some_iff.mp (orRaise_ok.mp known)
  have present : hub.store.runners.get? r = some runner := present
  change hub.Quiet (answer (whenSome _ (Option.filter _
    (lever hub.levers .hostRetireLifecycleConflict none)) >>= _) hub) (Method.after (whenSome _
    (Option.filter _ (lever hub.levers .hostRetireLifecycleConflict none)) >>= _) hub)
  rw [uninterrupted]
  have stays := (changes_retire r actor hub).present (Option.isSome_iff_exists.mpr ⟨_, present⟩)
  obtain ⟨row, found⟩ := Option.isSome_iff_exists.mp stays
  have there : (Method.after (setChunks (unroute · held))
    (Method.after (retire r actor) hub)).store.runners.get? r =
      some row := found
  change hub.Quiet (answer (retire r actor >>= _) hub) (Method.after (retire r actor >>= _) hub)
  rw [answer_bind_of_ok _ (answer_retire present actor), answer_bind_of_ok _ rfl,
    answer_bind_of_ok _ (answer_added_some there)]
  exact quiet_of_ok rfl _

variable [Platform]

theorem quiet_addRunner (name t : String) (r token : Option String) (ps : Option (List String))
    (h : Option String) :
    hub.Quiet (answer (addRunner name t r token ps h) hub)
      (Method.after (addRunner name t r token ps h) hub) := by
  simp only [addRunner]
  refine quiet_bind rfl fun row s _ same => ?_
  refine quiet_bind same fun resolved s₁ _ same₁ => ?_
  refine quiet_bind same₁ fun declaration s₂ _ same₂ => ?_
  refine quiet_bind same₂ fun addedId s₃ _ same₃ => ?_
  refine quiet_bind same₃ fun issued s₄ _ same₄ => ?_
  refine quiet_bind same₄ fun instant s₅ _ same₅ => ?_
  refine quiet_bind same₅ fun hostId s₆ _ same₆ => ?_
  refine quiet_bind same₆ fun present s₇ _ same₇ => ?_
  refine quiet_bind same₇ fun _ s₈ _ same₈ => ?_
  exact quiet_of_ok rfl _

theorem quiet_addHostRunner (h name : String) (ps : Option (List String)) :
    hub.Quiet (answer (addHostRunner h name ps) hub)
      (Method.after (addHostRunner h name ps) hub) := by
  simp only [addHostRunner]
  exact quiet_read fun row _ => quiet_addRunner _ _ _ _ _ _

theorem quiet_addHost (name t : String) (adopting : List String) (h token : Option String) :
    hub.Quiet (answer (addHost name t adopting h token) hub)
      (Method.after (addHost name t adopting h token) hub) := by
  simp only [addHost]
  refine quiet_bind rfl fun row s _ same => ?_
  refine quiet_bind same fun runners s₁ _ same₁ => ?_
  refine quiet_bind same₁ fun addedId s₂ _ same₂ => ?_
  refine quiet_bind same₂ fun issued s₃ _ same₃ => ?_
  refine quiet_bind same₃ fun instant s₄ _ same₄ => ?_
  refine quiet_bind same₄ fun present s₅ _ same₅ => ?_
  refine quiet_bind same₅ fun _ s₆ _ same₆ => ?_
  exact quiet_of_ok rfl _

theorem quiet_ofHosts (op : Op) (h : op.OfHosts) (uninterrupted : hub.Uninterrupted) :
    hub.Quiet (answer op.run hub) (hub.next op) := by
  cases op with
  | registry op =>
    cases op with
    | addHost name t rs id token => exact quiet_addHost name t rs id token
    | reportHost id report => exact quiet_reportHost id report
    | addRunner name t r token ps id => exact quiet_addRunner name t r token ps id
    | addHostRunner id name ps => exact quiet_addHostRunner id name ps
    | _ => exact h.elim
  | retireHostRunner id r actor force => exact quiet_retireHostRunner uninterrupted id r actor force
  | _ => exact h.elim

end Quiet

/-- The runners a host's record lists: those that stand under it and are not retired, each once. -/
def Lists (hub : MockHubService) (h : String) (record : HostRecordResponse) : Prop :=
  record.hostId = h ∧ (record.runners.map (·.runnerId)).Nodup ∧
    ∀ view, view ∈ record.runners ↔ ∃ runner, hub.store.runners.get? view.runnerId = some runner ∧
      runner.name = view.runnerName ∧ runner.hostId = some h ∧ runner.retiredAt = none

theorem hostRecord_lists {hub : MockHubService} {h : String} {row : HostRow}
    (held : hub.store.hosts.get? h = some row) :
    hub.Lists h (hostRecordOf hub.store.toRegistry row) := by
  have key : row.hostId = h := Table.key_of_get? held
  refine ⟨key, ?_, fun view => ?_⟩
  · simp only [hostRecordOf, List.map_map]
    exact (List.filter_sublist.map RunnerRow.runnerId).nodup hub.store.runners.nodup_rows
  · simp only [hostRecordOf, List.mem_map, List.mem_filter, decide_eq_true_eq, key]
    constructor
    · intro listed
      obtain ⟨runner, ⟨mem, under⟩, rfl⟩ := listed
      exact ⟨runner, Table.mem_rows.mp mem, rfl, under⟩
    · intro standing
      obtain ⟨runner, found, name, under⟩ := standing
      have id : runner.runnerId = view.runnerId := Table.key_of_get? found
      refine ⟨runner, ⟨Table.mem_rows.mpr (id ▸ found), under⟩, ?_⟩
      rw [id, name]

theorem ordered_fresh (sources : Sources) : (fresh sources).housing.Ordered := by
  constructor
  · intro hostId row held
    cases held
  · intro r row h held
    cases held

variable [Platform]

theorem ordered_next (op : Op) {hub : MockHubService} (ordered : hub.housing.Ordered) :
    (hub.next op).housing.Ordered := by
  by_cases h : op = .reset
  · subst h
    exact ordered_fresh hub.sources
  · exact ordered.changes (housed_next op hub h)

theorem reachable_ordered {hub : MockHubService} (reachable : hub.Reachable) :
    hub.housing.Ordered := by
  obtain ⟨sources, ops, hrun⟩ := reachable
  rw [hrun]
  exact Machine.invariant_always (I := fun hub : MockHubService => hub.housing.Ordered)
    (fun op _ => ordered_next op) ops (ordered_fresh sources)

def hostOf (hub : MockHubService) (r : String) : Option String :=
  (hub.store.runners.get? r).bind RunnerRow.hostId

theorem hostOf_after {hub : MockHubService} {r h : String} {ops : List Op}
    (run : Meets (fun op _ => op ≠ .reset) ops hub) (standing : hub.hostOf r = some h) :
    (after ops hub).hostOf r = some h :=
  Machine.invariant (I := fun hub => hub.hostOf r = some h)
    (fun op hub standing kept => (housed_next op hub kept).stands standing) run standing

/-- In every reachable hub live hosts of a tenant have names of their own and runners stand under
hosts of their tenant; a runner stays under its host until a reset; a host's record lists who stands
under it; and a call of the hosts that raises writes no row. -/
theorem hosts_hold :
    (∀ hub : MockHubService, hub.Reachable → hub.housing.Ordered) ∧
    (∀ (hub : MockHubService) r h ops, hub.hostOf r = some h →
      Meets (fun op _ => op ≠ .reset) ops hub → (after ops hub).hostOf r = some h) ∧
    (∀ (hub : MockHubService) h, (hub.store.hosts.get? h).isSome →
      ∃ record, answer (hostRecord h) hub = .ok record ∧ hub.Lists h record) ∧
    ∀ (hub : MockHubService) (op : Op) e, op.OfHosts → hub.Uninterrupted →
      answer op.run hub = .error e → (hub.next op).rows = hub.rows := by
  refine ⟨fun hub => reachable_ordered, ?_, ?_, ?_⟩
  · intro hub r h ops standing run
    exact hostOf_after run standing
  · intro hub h present
    obtain ⟨row, held⟩ := Option.isSome_iff_exists.mp present
    exact ⟨_, answer_hostRecord held, hostRecord_lists held⟩
  · intro hub op e ofHosts uninterrupted raised
    exact quiet_ofHosts op ofHosts uninterrupted e raised

end MockHubService

section

attribute [local instance] Platform.plain

open MockHubService

def hosted : MockHubService :=
  after [.registry (.addRunner "ann" firstTenantId (some "r") (some "t") none none),
    .registry (.addHost "attic" firstTenantId ["r"] (some "h") (some "u"))] (fresh .still)

theorem hosts_hold_adopted :
    hosted.housing.Ordered ∧ (after [.registry (.retire "r" "bob")] hosted).hostOf "r" = some "h" ∧
      (∃ record, answer (hostRecord "h") hosted = .ok record ∧ hosted.Lists "h" record) ∧
      (hosted.next (.registry (.addHost "attic" firstTenantId [] none none))).rows =
        hosted.rows := by
  have reachable : hosted.Reachable := reachable_run _ _
  have run : Meets (fun op _ => op ≠ .reset) [.registry (.retire "r" "bob")] hosted :=
    ⟨by simp, trivial⟩
  exact ⟨hosts_hold.1 hosted reachable, hosts_hold.2.1 hosted "r" "h" _ rfl run,
    hosts_hold.2.2.1 hosted "h" rfl,
      hosts_hold.2.2.2 hosted _ (.hostNameTaken "attic") trivial rfl rfl⟩

end

end BlizzardMock.MockHub
