import BlizzardMock.MockHub.AlikeLaws

namespace BlizzardMock.MockHub

open Method

namespace MockHubService

def booted (sources : Sources) (reported : Dict String ReportedRunnerFacts) : MockHubService :=
  { fresh sources with store := { (fresh sources).store with reported := reported } }

section Probe

variable [Platform] (r : String) (roster : Option (List DeclaredSubscription))

def bare (sources : Sources) : RunnerRow where
  runnerId := r
  tenantId := firstTenantId
  name := ""
  addedAt := sources.clock.head
  projects := [⟨firstProjectId, some firstProjectId⟩]

def bareRegistered (sources : Sources) : RunnerRow :=
  (bare r sources).registered none { workspaceId := "", subscriptions := roster } none
    sources.clock.tail.head

def addedTo (sources : Sources) : Registry := (founded {}).addRunner (bare r sources) "t"

def registeredIn (sources : Sources) : Registry :=
  (addedTo r sources).putRunner (bareRegistered r roster sources)

def probe : List Op :=
  [.registry (.addRunner "" firstTenantId (some r) (some "t") none none),
    .registry (.register r { workspaceId := "", subscriptions := roster }),
    .read (.runnerView r)]

variable {r}

theorem after_probe_add (named : r ≠ "") (sources : Sources)
    (reported : Dict String ReportedRunnerFacts) :
    Method.after (addRunner "" firstTenantId (some r) (some "t") none none)
      (booted sources reported) =
      { booted sources reported with
        store := { (booted sources reported).store with toRegistry := addedTo r sources }
        sources := { sources with clock := sources.clock.tail } } := by
  have given_r : given (some r) = some r := by simp [given, named]
  simp only [addRunner]
  rw [given_r]
  rfl

theorem after_probe_register (sources : Sources) (reported : Dict String ReportedRunnerFacts) :
    Method.after (register r { workspaceId := "", subscriptions := roster })
      { booted sources reported with
        store := { (booted sources reported).store with toRegistry := addedTo r sources }
        sources := { sources with clock := sources.clock.tail } } =
      { booted sources reported with
        store :=
          { (booted sources reported).store with toRegistry := registeredIn r roster sources }
        sources := { sources with clock := sources.clock.tail.tail } } := by
  have held : (addedTo r sources).runners.get? r = some (bare r sources) :=
    Table.get?_put_self ∅ (bare r sources)
  simp only [register]
  rw [after_bind_of_ok _ (answer_added_some held), after_added]
  rfl

variable (r) in
def probeView (sources : Sources) (facts : ReportedRunnerFacts) :
    Except HubError (Option RunnerView) :=
  (runnerViewOf (registeredIn r roster sources) (bareRegistered r roster sources)
    sources.clock.tail.head facts).map some

omit [Platform] in
theorem answer_probe_view (sources : Sources) (reported : Dict String ReportedRunnerFacts) :
    answer (runnerView r)
      { booted sources reported with
        store :=
          { (booted sources reported).store with toRegistry := registeredIn r roster sources }
        sources := { sources with clock := sources.clock.tail.tail } } =
      probeView r roster sources (reported.getD r {}) := by
  have held : (registeredIn r roster sources).runners.get? r = some
    (bareRegistered r roster sources) :=
    Table.get?_put_self _ (bareRegistered r roster sources)
  simp only [runnerView, probeView]
  refine (answer_bind_of_ok (a := some (bareRegistered r roster sources)) _ ?_ _).trans ?_
  · exact congrArg Except.ok held
  change answer (settle
    (runnerViewOf (registeredIn r roster sources) (bareRegistered r roster sources)
    sources.clock.tail.head ((reported.setdefault r {}).getD r {})) >>= fun view =>
      return some view) _ = _
  rw [Dict.getD_setdefault]
  cases runnerViewOf (registeredIn r roster sources) (bareRegistered r roster sources)
      sources.clock.tail.head (reported.getD r {}) with
  | ok view => rfl
  | error e => rfl

theorem answers_probe (named : r ≠ "") (sources : Sources)
    (reported : Dict String ReportedRunnerFacts) :
    (answers (probe r roster) (booted sources reported))[2]? =
      some ⟨.read (.runnerView r), probeView r roster sources (reported.getD r {})⟩ := by
  have read : answer (runnerView r)
      (Method.after (register r { workspaceId := "", subscriptions := roster })
        (Method.after (addRunner "" firstTenantId (some r) (some "t") none none)
          (booted sources reported))) = probeView r roster sources (reported.getD r {}) := by
    rw [after_probe_add named, after_probe_register, answer_probe_view]
  exact congrArg (fun view : Except HubError (Option RunnerView) =>
    some (⟨.read (.runnerView r), view⟩ : Σ op : Op, Except HubError op.Answer)) read

theorem probeView_eq {sources : Sources} {reported : Dict String ReportedRunnerFacts}
    (named : r ≠ "")
    (h : answers (probe r roster) (booted sources reported) = answers (probe r roster)
      (fresh sources)) :
    probeView r roster sources (reported.getD r {}) = probeView r roster sources {} := by
  have same := answers_probe roster named sources reported
  have bare : (answers (probe r roster) (fresh sources))[2]? =
      some ⟨.read (.runnerView r), probeView r roster sources {}⟩ :=
    answers_probe roster named sources ∅
  rw [h, bare] at same
  exact (eq_of_heq (Sigma.mk.inj (Option.some.inj same)).2).symm

end Probe

section Blank

variable {r : String} {sources : Sources} {facts : ReportedRunnerFacts}

theorem probeView_ok {roster : Option (List DeclaredSubscription)} {view : RunnerView}
    (h : probeView r roster sources facts = .ok (some view)) :
    usageConditionViews facts roster = .ok view.subscriptions ∧
      textOrNone facts.locallyPausedReason = .ok view.locallyPausedReason ∧
      facts.locallyPaused = view.locallyPaused ∧ facts.locallyPausedBy = view.locallyPausedBy := by
  simp only [probeView] at h
  cases viewed : runnerViewOf (registeredIn r roster sources) (bareRegistered r roster sources)
      sources.clock.tail.head facts with
  | error e =>
    rw [viewed] at h
    cases h
  | ok v =>
    rw [viewed] at h
    cases h
    obtain ⟨subs, hsubs, rest⟩ := except_bind_ok viewed
    obtain ⟨reason, hreason, rest⟩ := except_bind_ok rest
    cases rest
    change (usageConditionViews facts roster).mapError HubError.builtin = .ok subs at hsubs
    cases rendered : usageConditionViews facts roster with
    | error e =>
      rw [rendered] at hsubs
      cases hsubs
    | ok views =>
      rw [rendered] at hsubs
      cases hsubs
      exact ⟨rfl, hreason, rfl, rfl⟩

theorem null_of_textOrNone {value : Json} (h : textOrNone value = .ok none) : value = .null := by
  cases value with
  | null => rfl
  | _ => cases h

theorem mapM_ok_mem {ε α β : Type} {f : α → Except ε β} {l : List α} {out : List β}
    (h : l.mapM f = .ok out) {a : α} (mem : a ∈ l) : ∃ b ∈ out, f a = .ok b := by
  induction l generalizing out with
  | nil => cases mem
  | cons first rest ih =>
    rw [List.mapM_cons] at h
    obtain ⟨b, hb, h⟩ := except_bind_ok h
    obtain ⟨bs, hbs, h⟩ := except_bind_ok h
    cases h
    cases mem with
    | head => exact ⟨b, List.mem_cons_self, hb⟩
    | tail _ mem =>
      obtain ⟨c, hc, hf⟩ := ih hbs mem
      exact ⟨c, List.mem_cons_of_mem b hc, hf⟩

theorem usage_empty_of_views (h : reportedViews facts = .ok []) (slug : String) :
    facts.subscriptionUsage.get? slug = none := by
  cases held : facts.subscriptionUsage.get? slug with
  | none => rfl
  | some sample =>
    obtain ⟨views, hviews, h⟩ := except_bind_ok h
    have mem : slug ∈ ((facts.subscriptionUsage.keys ++
        facts.subscriptionUsageMisses.keys).eraseDups).insertionSort (· ≤ ·) := by
      rw [List.mem_insertionSort, List.mem_eraseDups]
      exact List.mem_append_left _ (Dict.mem_keys_of_get? held)
    obtain ⟨view, hview, shown⟩ := mapM_ok_mem hviews mem
    simp only [reportedView] at shown
    obtain ⟨lapse, _, shown⟩ := except_bind_ok shown
    rw [held] at shown
    cases shown
    have empty : views.filterMap id = [] := Except.ok.inj h
    cases List.filterMap_eq_nil_iff.mp empty _ hview

theorem miss_none_of_views {slug : String} {view : SubscriptionUsageView}
    (h : rosterViews [⟨slug, "", ""⟩] facts = .ok [view]) (bare : view.missReason = none) :
    facts.subscriptionUsageMisses.get? slug = none := by
  change [(⟨slug, "", ""⟩ : DeclaredSubscription)].mapM (rosterView facts) = .ok [view] at h
  obtain ⟨shown, mem, h⟩ := mapM_ok_mem h List.mem_cons_self
  cases List.mem_singleton.mp mem
  obtain ⟨lapse, _, h⟩ := except_bind_ok h
  cases h
  exact Option.map_eq_none_iff.mp bare

theorem facts_eq_blank (paused : facts.locallyPaused = false)
    (pausedBy : facts.locallyPausedBy = none)
    (reason : facts.locallyPausedReason = .null) (usage : facts.subscriptionUsage = ∅)
    (misses : facts.subscriptionUsageMisses = ∅) : facts = {} := by
  cases facts
  cases paused
  cases pausedBy
  cases reason
  cases usage
  cases misses
  rfl

end Blank

/-- After a reset the hub answers every run of calls as a freshly constructed one does if and only
if no runner id holds any reported facts. -/
theorem reset_iff_nothing_reported [Platform] (hub : MockHubService) :
    (∀ ops, answers ops (hub.next .reset) = answers ops (fresh hub.sources)) ↔
      ∀ r, r ≠ "" → hub.store.reported.getD r {} = {} := by
  constructor
  · intro same r named
    have read roster := probeView_eq roster named (same (probe r roster))
    obtain ⟨shown, reason, paused, pausedBy⟩ := probeView_ok ((read none).trans rfl)
    have usage := Dict.eq_empty_of_get? (usage_empty_of_views shown)
    have misses := Dict.eq_empty_of_get? fun slug =>
      miss_none_of_views (probeView_ok ((read (some [⟨slug, "", ""⟩])).trans rfl)).1 rfl
    exact facts_eq_blank paused pausedBy (null_of_textOrNone reason) usage misses
  · intro nothing ops
    apply answers_of_alike
    exact {
      rows := rfl
      books := rfl
      levers := rfl
      sources := rfl
      reported := nothing
      named := rfl }

end MockHubService

section

attribute [local instance] Platform.plain

open MockHubService

def pausedItself : MockHubService :=
  after [.registry (.addRunner "ann" firstTenantId (some "r") (some "t") none none),
    .ingestFacts "r"
      [{ seq := 1, kind := runnerLocallyPaused, payload := [("reason", .str "lunch")] }]]
    (fresh .still)

theorem reset_remembers_pause :
    pausedItself.Reachable ∧
      answers (probe "r" none) (pausedItself.next .reset) ≠ answers (probe "r" none)
        (fresh .still) := by
  refine ⟨reachable_run _ _, fun same => ?_⟩
  have read : probeView "r" none .still (pausedItself.store.reported.getD "r" {}) =
      probeView "r" none .still {} := probeView_eq none (by decide) same
  obtain ⟨_, _, paused, _⟩ := probeView_ok (read.trans rfl)
  cases paused

end

end BlizzardMock.MockHub
