import BlizzardMock.MockHub.LandLaws
import BlizzardMock.MockHub.UntouchedLaws
import BlizzardMock.Python.IsoLaws
import Mathlib.Data.List.Induction

namespace BlizzardMock.MockHub

open Method

/-- Every sample is stamped with a reading in UTC, and every miss is one. -/
structure Stamped (usage : Dict String SubscriptionUsageView)
    (misses : Dict String SubscriptionUsageMiss) :
    Prop where
  sampled : ∀ slug view stamp, usage.get? slug = some view → view.sampledAt = some stamp →
    ∃ instant : DateTime, instant.offset = some 0 ∧ stamp = instant.isoformat
  missed : ∀ slug miss, misses.get? slug = some miss → miss.missedAt.offset = some 0

namespace Stamped

variable {usage : Dict String SubscriptionUsageView} {misses : Dict String SubscriptionUsageMiss}

theorem empty : Stamped ∅ ∅ where
  sampled _ _ _ found := by cases found
  missed _ _ found := by cases found

theorem sample (stamped : Stamped usage misses) {view : SubscriptionUsageView} {instant : DateTime}
    (utc : instant.offset = some 0) (at' : view.sampledAt = some instant.isoformat)
    (slug : String) :
    Stamped (usage.set slug view) misses where
  sampled slug' view' stamp found at'' := by
    rw [Dict.get?_set] at found
    split at found
    case isTrue =>
      cases found
      rw [at'] at at''
      exact ⟨instant, utc, (Option.some.inj at'').symm⟩
    case isFalse => exact stamped.sampled slug' view' stamp found at''
  missed := stamped.missed

theorem miss (stamped : Stamped usage misses) {miss : SubscriptionUsageMiss}
    (utc : miss.missedAt.offset = some 0) (slug : String) :
    Stamped usage (misses.set slug miss) where
  sampled := stamped.sampled
  missed slug' miss' found := by
    rw [Dict.get?_set] at found
    split at found
    case isTrue =>
      cases found
      exact utc
    case isFalse => exact stamped.missed slug' miss' found

theorem onlySlug (stamped : Stamped usage misses) (slug : Option String) :
    Stamped (onlySlug usage slug) (onlySlug misses slug) := by
  cases slug with
  | none => exact empty
  | some slug =>
    constructor
    · intro slug' view stamp found at'
      simp only [MockHub.onlySlug] at found
      cases held : usage.get? slug with
      | none => rw [held] at found; cases found
      | some view' =>
        rw [held, Option.map_some, Option.getD_some, Dict.get?_set] at found
        split at found
        case isTrue =>
          cases found
          exact stamped.sampled slug view stamp held at'
        case isFalse => cases found
    · intro slug' miss found
      simp only [MockHub.onlySlug] at found
      cases held : misses.get? slug with
      | none => rw [held] at found; cases found
      | some miss' =>
        rw [held, Option.map_some, Option.getD_some, Dict.get?_set] at found
        split at found
        case isTrue =>
          cases found
          exact stamped.missed slug miss held
        case isFalse => cases found

theorem lapsed (stamped : Stamped usage misses) (slug : String) :
    ∃ lapse, MockHub.lapsed (usage.get? slug) (misses.get? slug) = .ok lapse := by
  cases missed : misses.get? slug with
  | none => exact ⟨false, rfl⟩
  | some miss =>
    simp only [MockHub.lapsed]
    split
    · exact ⟨false, rfl⟩
    · cases sampled : usage.get? slug with
      | none => exact ⟨true, rfl⟩
      | some view =>
        cases at' : view.sampledAt with
        | none => exact ⟨true, by simp [at']⟩
        | some stamp =>
          obtain ⟨instant, utc, same⟩ := stamped.sampled slug view stamp sampled at'
          have read := DateTime.fromisoformat_isoformat instant (by simp [DateTime.Offset, utc])
          simp only [Option.bind_some, at', same, read]
          change ∃ lapse, miss.missedAt.after instant = .ok lapse
          simp only [DateTime.after, utc, stamped.missed slug miss missed]
          exact ⟨_, rfl⟩

end Stamped

theorem mapM_ok {ε α β : Type} {f : α → Except ε β} {l : List α} (h : ∀ a, ∃ b, f a = .ok b) :
    ∃ bs, l.mapM f = .ok bs := by
  induction l with
  | nil => exact ⟨[], rfl⟩
  | cons a rest ih =>
    obtain ⟨b, first⟩ := h a
    obtain ⟨bs, later⟩ := ih
    refine ⟨b :: bs, ?_⟩
    rw [List.mapM_cons, first]
    simp only [bind, Except.bind, later]
    rfl

theorem usageConditionViews_ok {reported : ReportedRunnerFacts}
    (stamped : Stamped reported.subscriptionUsage reported.subscriptionUsageMisses)
    (roster : Option (List DeclaredSubscription)) :
    ∃ views, usageConditionViews reported roster = .ok views := by
  cases roster with
  | none =>
    simp only [usageConditionViews, reportedViews]
    have viewed (slug : String) : ∃ view, reportedView reported slug = .ok view := by
      obtain ⟨lapse, told⟩ := stamped.lapsed slug
      simp only [reportedView, told, bind, Except.bind]
      split
      · exact ⟨_, rfl⟩
      · split <;> exact ⟨_, rfl⟩
      · exact ⟨_, rfl⟩
    obtain ⟨views, read⟩ := mapM_ok viewed
    rw [read]
    exact ⟨_, rfl⟩
  | some roster =>
    apply mapM_ok
    intro declaration
    obtain ⟨lapse, told⟩ := stamped.lapsed declaration.slug
    simp only [rosterView, told, bind, Except.bind]
    exact ⟨_, rfl⟩

namespace MockHubService

structure Dated (hub : MockHubService) : Prop where
  clock : ∀ n, (hub.sources.clock.get n).offset = some 0
  hosts : ∀ h row, hub.store.hosts.get? h = some row →
    Stamped row.subscriptionUsage row.subscriptionUsageMisses
  reported : ∀ r, Stamped (hub.store.reported.getD r {}).subscriptionUsage
    (hub.store.reported.getD r {}).subscriptionUsageMisses

def reasonOf (r : String) (hub : MockHubService) : Json :=
  (hub.store.reported.getD r {}).locallyPausedReason

def SameReasons (s t : MockHubService) : Prop := ∀ r, reasonOf r t = reasonOf r s

instance : IsPreorder MockHubService SameReasons where
  refl _ _ := rfl
  trans _ _ _ first second r := (second r).trans (first r)

abbrev Carries : MockHubService → MockHubService → Prop := Along Dated SameReasons

section Carries

variable {α β : Type}

theorem Untouched.dated {s t : MockHubService} (h : Untouched s t) (dated : s.Dated) : t.Dated where
  clock n := by
    obtain ⟨m, read⟩ := h.clock
    rw [read, Stream'.get_drop]
    exact dated.clock _
  hosts := by
    rw [h.hosts]
    exact dated.hosts
  reported r := by
    rw [h.reported r]
    exact dated.reported r

theorem carries_of_untouched (m : HubM α) [h : Follows Untouched m] : Follows Carries m where
  follows s dated :=
    ⟨(h.follows s).dated dated, fun r =>
      congrArg ReportedRunnerFacts.locallyPausedReason ((h.follows s).reported r)⟩

theorem carries_bind {P : α → Prop} {m : HubM α} {g : α → HubM β} [h : Follows Untouched m]
    (found : ∀ s a, s.Dated → answer m s = .ok a → P a) (rest : ∀ a, P a → Follows Carries (g a)) :
    Follows Carries (m >>= g) :=
  have := carries_of_untouched m
  follows_of_answer found rest

theorem carries_then {m : HubM α} {g : α → HubM β} [h : Follows Untouched m]
    (rest : ∀ a, Follows Carries (g a)) : Follows Carries (m >>= g) :=
  have := carries_of_untouched m
  Follows.andThen this rest

theorem carries_setHosts {f : Registry → Registry} {row : HostRow}
    (put : ∀ store : Registry, (f store).hosts = store.hosts.put row)
    (stamped : Stamped row.subscriptionUsage row.subscriptionUsageMisses) :
    Follows Carries (setRegistry f) where
  follows s dated := by
    refine ⟨{ dated with hosts := fun h held found => ?_ }, fun _ => rfl⟩
    change (f s.store.toRegistry).hosts.get? h = some held at found
    rw [put, Table.get?_put] at found
    split at found
    case isTrue =>
      cases found
      exact stamped
    case isFalse => exact dated.hosts h held found

theorem reported_report (r r' : String) (f : ReportedRunnerFacts → ReportedRunnerFacts)
    (s : MockHubService) :
    (Method.after (report r f) s).store.reported.getD r' {} =
      if r' = r then f (s.store.reported.getD r {}) else s.store.reported.getD r' {} := by
  change ((s.store.reported.setdefault r {}).set r
      (f ((s.store.reported.setdefault r {}).getD r {}))).getD r' {} = _
  rw [Dict.getD_setdefault]
  split
  case isTrue here => rw [here, Dict.getD_set_self]
  case isFalse apart => rw [Dict.getD_set_of_ne apart, Dict.getD_setdefault]

theorem dated_report {r : String} {f : ReportedRunnerFacts → ReportedRunnerFacts}
    (stamped : ∀ facts : ReportedRunnerFacts,
      Stamped facts.subscriptionUsage facts.subscriptionUsageMisses →
      Stamped (f facts).subscriptionUsage (f facts).subscriptionUsageMisses)
    {s : MockHubService} (dated : s.Dated) : (Method.after (report r f) s).Dated where
  clock := dated.clock
  hosts := dated.hosts
  reported r' := by
    rw [reported_report]
    split
    case isTrue => exact stamped _ (dated.reported r)
    case isFalse => exact dated.reported r'

theorem reasonOf_report (r r' : String) (f : ReportedRunnerFacts → ReportedRunnerFacts)
    (s : MockHubService) :
    reasonOf r' (Method.after (report r f) s) =
      if r' = r then (f (s.store.reported.getD r {})).locallyPausedReason else reasonOf r' s := by
  rw [reasonOf, reported_report]
  split <;> rfl

theorem carries_report {r : String} {f : ReportedRunnerFacts → ReportedRunnerFacts}
    (stamped : ∀ facts : ReportedRunnerFacts,
      Stamped facts.subscriptionUsage facts.subscriptionUsageMisses →
      Stamped (f facts).subscriptionUsage (f facts).subscriptionUsageMisses)
    (reason : ∀ facts : ReportedRunnerFacts, (f facts).locallyPausedReason =
      facts.locallyPausedReason) :
    Follows Carries (report r f) where
  follows s dated := by
    refine ⟨dated_report stamped dated, fun r' => ?_⟩
    rw [reasonOf_report]
    split
    case isTrue here => rw [here, reason, reasonOf]
    case isFalse => rfl

end Carries

theorem utc_of_stampOf {value : Json} {instant : DateTime}
    (h : stampOf value = .ok (some instant)) :
    instant.offset = some 0 := by
  cases value with
  | str s =>
    simp only [stampOf] at h
    split at h
    · rename_i parsed _
      cases offset : parsed.offset with
      | none =>
        rw [offset] at h
        cases h
        rfl
      | some n =>
        rw [offset] at h
        simp only [DateTime.astimezoneUTC, DateTime.ofMicros] at h
        split at h
        · cases h
          rfl
        · cases h
    · cases h
    · cases h
  | _ => cases h

theorem utc_of_parseInstant {value : Json} {s : MockHubService} {instant : DateTime}
    (dated : s.Dated)
    (h : answer (parseInstant value) s = .ok instant) : instant.offset = some 0 := by
  simp only [parseInstant] at h
  obtain ⟨stamp, stamped, h⟩ := answer_bind_ok h
  rw [answer_settle] at stamped
  cases stamp with
  | none =>
    rw [after_settle] at h
    cases h
    exact dated.clock 0
  | some parsed =>
    cases h
    exact utc_of_stampOf stamped

section Lanes

variable [Platform] {s : MockHubService} {payload : List (String × Json)} {slug : String}

theorem stamped_usageView {view : SubscriptionUsageView} (dated : s.Dated)
    (h : answer (usageView payload slug) s = .ok view) :
    ∃ instant : DateTime, instant.offset = some 0 ∧ view.sampledAt = some instant.isoformat := by
  simp only [usageView] at h
  obtain ⟨instant, parsed, h⟩ := answer_bind_ok h
  cases h
  exact ⟨instant, utc_of_parseInstant dated parsed, rfl⟩

theorem stamped_usageMiss {miss : SubscriptionUsageMiss} (dated : s.Dated)
    (h : answer (usageMiss payload slug) s = .ok miss) : miss.missedAt.offset = some 0 := by
  simp only [usageMiss] at h
  obtain ⟨instant, parsed, h⟩ := answer_bind_ok h
  cases h
  exact utc_of_parseInstant dated parsed

theorem carries_usageSampled (r : String) (payload : List (String × Json)) :
    Follows Carries (applyUsageSampled r payload) := by
  simp only [applyUsageSampled]
  cases slugOf payload with
  | none => infer_instance
  | some slug =>
    apply carries_bind (fun _ _ dated viewed => stamped_usageView dated viewed)
    rintro view ⟨instant, utc, at'⟩
    have := carries_report (r := r)
      (f := fun facts => { facts with subscriptionUsage := facts.subscriptionUsage.set slug view })
      (fun _ stamped => stamped.sample utc at' slug) fun _ => rfl
    infer_instance

theorem carries_usageMissed (r : String) (payload : List (String × Json)) :
    Follows Carries (applyUsageMissed r payload) := by
  simp only [applyUsageMissed]
  cases slugOf payload with
  | none => infer_instance
  | some slug =>
    apply carries_bind (fun _ _ dated missed => stamped_usageMiss dated missed)
    intro miss utc
    have := carries_report (r := r)
      (f := fun facts =>
        { facts with subscriptionUsageMisses := facts.subscriptionUsageMisses.set slug miss })
      (fun _ stamped => stamped.miss utc slug) fun _ => rfl
    infer_instance

omit [Platform] in
theorem stamped_host {h : String} {row : HostRow} (dated : s.Dated)
    (found : answer (host h) s = .ok row) :
    Stamped row.subscriptionUsage row.subscriptionUsageMisses := by
  simp only [host] at found
  obtain ⟨held, read, found⟩ := answer_bind_ok found
  cases read
  exact dated.hosts h row (orRaise_ok.mp found)

instance (h : String) (fact : Fact) : Follows Carries ((hostFactLane h).judge fact) := by
  change Follows Carries (applyHostFact h fact.kind fact.payload)
  simp only [applyHostFact]
  cases slugOf fact.payload with
  | none => infer_instance
  | some slug =>
    dsimp only
    split
    · apply carries_bind (fun _ _ dated viewed => stamped_usageView dated viewed)
      intro view ⟨instant, utc, at'⟩
      apply carries_bind (fun _ _ dated found => stamped_host dated found)
      intro row stamped
      exact Follows.andThen (carries_setHosts (fun _ => rfl) (stamped.sample utc at' slug)) fun _ =>
        inferInstance
    split
    · split
      · infer_instance
      · split
        · infer_instance
        · apply carries_bind (fun _ _ dated missed => stamped_usageMiss dated missed)
          intro miss utc
          apply carries_bind (fun _ _ dated found => stamped_host dated found)
          intro row stamped
          exact Follows.andThen (carries_setHosts (fun _ => rfl) (stamped.miss utc slug)) fun _ =>
            inferInstance
    · infer_instance

instance (h : String) (facts : List Fact) : Follows Carries (ingestHostFacts h facts) := by
  have pushed (mark : Int) : Follows Carries ((hostFactLane h).push facts mark) :=
    ⟨(hostFactLane h).push_related (refl_of Carries) (trans_of Carries)
      (fun fact => Follows.follows) facts mark⟩
  have kept (f : Books → Books) : Follows Carries (setBooks f) := carries_of_untouched _
  simp only [ingestHostFacts]
  apply carries_then
  intro _
  apply carries_then
  intro mark
  infer_instance

end Lanes

section Hosts

instance (h : String) (report : HostReport) : Follows Carries (reportHost h report) := by
  simp only [reportHost]
  apply carries_bind (fun _ _ dated found => stamped_host dated found)
  intro row stamped
  apply carries_then
  intro name
  apply carries_then
  intro instant
  have := carries_of_untouched (hostRecord h)
  exact Follows.andThen (carries_setHosts (fun _ => rfl) stamped) fun _ => inferInstance

variable [Platform]

instance (name t : String) (rs : List String) (h token : Option String) :
    Follows Carries (addHost name t rs h token) := by
  simp only [addHost]
  apply carries_then
  intro tenantRow
  apply carries_then
  intro runners
  apply carries_then
  intro addedId
  apply carries_then
  intro issued
  apply carries_then
  intro instant
  apply carries_then
  intro hosts
  apply carries_then
  intro _
  have := carries_of_untouched (setRegistry (adopt · addedId runners))
  exact Follows.andThen (carries_setHosts (fun _ => rfl) Stamped.empty) fun _ => inferInstance

end Hosts

end MockHubService

def Told (reason : Json) : Prop := ∃ text, textOrNone reason = .ok text

namespace Fact

def settlesPause (fact : Fact) : Bool :=
  fact.kind = runnerLocallyPaused ∨ fact.kind = runnerLocallyResumed

def reasonGiven (fact : Fact) : Json :=
  if fact.kind = runnerLocallyPaused then Json.get fact.payload "reason" .null else .null

def reasonAfter (fact : Fact) (reason : Json) : Json :=
  if fact.settlesPause then fact.reasonGiven else reason

theorem foldl_reasonAfter (facts : List Fact) (reason : Json) :
    facts.foldl (fun reason fact => fact.reasonAfter reason) reason =
      ((facts.filter settlesPause).getLast?.map reasonGiven).getD reason := by
  induction facts using List.reverseRecOn with
  | nil => rfl
  | append_singleton facts fact ih =>
    rw [List.foldl_append, List.filter_append, ih, List.getLast?_append]
    cases settles : fact.settlesPause <;> simp [reasonAfter, settles]

/-- The last of the pauses and resumes is a pause for a reason no view can show. -/
def Mutes (facts : List Fact) : Prop :=
  ∃ fact, (facts.filter settlesPause).getLast? = some fact ∧ ¬ Told fact.reasonGiven

theorem told_foldl_iff {facts : List Fact} {reason : Json} (told : Told reason) :
    Told (facts.foldl (fun reason fact => fact.reasonAfter reason) reason) ↔ ¬ Mutes facts := by
  rw [foldl_reasonAfter]
  cases last : (facts.filter settlesPause).getLast? with
  | none => simp [Mutes, last, told]
  | some fact => simp [Mutes, last]

/-- A pause, a resume, a sample or a miss. -/
def RunnerScoped (fact : Fact) : Prop :=
  fact.kind = runnerLocallyPaused ∨ fact.kind = runnerLocallyResumed ∨
    fact.kind = externalSubscriptionUsageSampled ∨ fact.kind = externalSubscriptionUsageMissed

/-- A sample or a miss whose stamp, if it names an instant, names one that UTC can tell. -/
def Stampable (fact : Fact) : Prop :=
  (fact.kind = externalSubscriptionUsageSampled → fact.usageLands "sampled_at" = true) ∧
    (fact.kind = externalSubscriptionUsageMissed → fact.usageLands "missed_at" = true)

variable [Platform] {fact : Fact} {s : MockHubService}

open MockHubService

theorem carries_applyFact (r : String) (other : fact.settlesPause = false) :
    Follows Carries (applyFact r fact.kind fact.payload) := by
  simp only [settlesPause, decide_eq_false_iff_not, not_or] at other
  have := carries_usageSampled r fact.payload
  have := carries_usageMissed r fact.payload
  have := carries_of_untouched (applyLeaseMinted r fact.payload)
  have := carries_of_untouched (applyEscalationRecorded fact.payload)
  have := carries_of_untouched (applyQuestionAsked r fact.payload)
  have := carries_of_untouched (applyAnswerDelivered fact.payload)
  simp only [applyFact, if_neg other.1, if_neg other.2]
  infer_instance

theorem lands_runnerScoped {r : String} (own : fact.RunnerScoped) :
    fact.lands r s = true ↔ fact.Stampable := by
  simp only [lands, Stampable]
  obtain kind | kind | kind | kind := own
  all_goals
    simp only [kind, runnerLocallyPaused, runnerLocallyResumed, externalSubscriptionUsageSampled,
      externalSubscriptionUsageMissed, leaseMinted, escalationRecorded, questionAsked,
        answerDelivered]
    simp

theorem judged_iff {r : String} (own : fact.RunnerScoped) :
    (∃ accepted, answer (applyFact r fact.kind fact.payload) s = .ok accepted) ↔
      fact.Stampable := by
  have landed : Lands (applyFact r fact.kind fact.payload) s (fact.lands r s) := lands_applyFact s
  rw [← lands_runnerScoped own, ← landed]
  cases answer (applyFact r fact.kind fact.payload) s with
  | ok accepted => simp [Except.isOk, Except.toBool]
  | error e => simp [Except.isOk, Except.toBool]

theorem after_paused (r : String) (payload : List (String × Json)) :
    Method.after (applyFact r runnerLocallyPaused payload) s = Method.after
      (report r fun facts => { facts with
      locallyPaused := true
      locallyPausedBy := some (Json.get payload "by" (.str "operator")).text
      locallyPausedReason := Json.get payload "reason" .null }) s := by
  simp only [applyFact, runnerLocallyPaused, leaseMinted, escalationRecorded, questionAsked,
    answerDelivered]
  rfl

theorem after_resumed (r : String) (payload : List (String × Json)) :
    Method.after (applyFact r runnerLocallyResumed payload) s = Method.after
      (report r fun facts => { facts with
      locallyPaused := false
      locallyPausedBy := none
      locallyPausedReason := .null }) s := by
  simp only [applyFact, runnerLocallyPaused, runnerLocallyResumed, leaseMinted, escalationRecorded,
    questionAsked,
    answerDelivered]
  rfl

theorem dated_applyFact (r : String) (dated : s.Dated) :
    (Method.after (applyFact r fact.kind fact.payload) s).Dated := by
  cases settles : fact.settlesPause with
  | false =>
    have := carries_applyFact r settles
    exact (Follows.follows (R := Carries) s dated).1
  | true =>
    have settled := of_decide_eq_true settles
    cases settled with
    | inl paused =>
      rw [paused, after_paused]
      apply dated_report _ dated
      exact fun _ stamped => stamped
    | inr resumed =>
      rw [resumed, after_resumed]
      apply dated_report _ dated
      exact fun _ stamped => stamped

theorem reasonOf_applyFact (r r' : String) (dated : s.Dated) :
    reasonOf r' (Method.after (applyFact r fact.kind fact.payload) s) =
      if r' = r then fact.reasonAfter (reasonOf r' s) else reasonOf r' s := by
  cases settles : fact.settlesPause with
  | false =>
    have := carries_applyFact r settles
    rw [(Follows.follows (R := Carries) (m := applyFact r fact.kind fact.payload) s dated).2 r',
      reasonAfter, settles]
    simp
  | true =>
    rw [reasonAfter, settles, if_pos rfl]
    have settled := of_decide_eq_true settles
    cases settled with
    | inl paused =>
      rw [reasonGiven, paused, after_paused]
      exact reasonOf_report r r' _ s
    | inr resumed =>
      rw [reasonGiven, resumed, after_resumed]
      exact reasonOf_report r r' _ s

end Fact

namespace MockHubService

variable [Platform]

def judgedFacts (r : String) (facts : List Fact) (hub : MockHubService) : List Fact :=
  ((factLane r).pushReached facts (hub.factHighWater.getD r 0) hub).map Prod.fst

theorem after_ingestFacts (r : String) (facts : List Fact) (s : MockHubService) :
    Untouched (Method.after ((factLane r).push facts (s.factHighWater.getD r 0)) s)
      (Method.after (ingestFacts r facts) s) := by
  simp only [ingestFacts]
  rw [after_bind_of_ok _ rfl]
  change Untouched _ (Method.after ((factLane r).push facts (s.factHighWater.getD r 0) >>= _) s)
  rw [after_bind]
  cases answer ((factLane r).push facts (s.factHighWater.getD r 0)) s with
  | ok lane => exact Follows.follows _
  | error e => exact refl_of Untouched _

theorem dated_ingestFacts (r : String) (facts : List Fact) {s : MockHubService} (dated : s.Dated) :
    (Method.after (ingestFacts r facts) s).Dated := by
  apply (after_ingestFacts r facts s).dated
  exact (factLane r).push_related (R := fun s t => s.Dated → t.Dated) (fun _ => id)
    (fun first second dated => second (first dated)) (fun fact s dated =>
      fact.dated_applyFact r dated)
    facts _ s dated

theorem reasonOf_ingestFacts (r r' : String) (facts : List Fact) {s : MockHubService}
    (dated : s.Dated) :
    reasonOf r' (Method.after (ingestFacts r facts) s) = if r' = r then
      (judgedFacts r facts s).foldl (fun reason fact => fact.reasonAfter reason) (reasonOf r' s)
    else reasonOf r' s := by
  have settled : reasonOf r' (Method.after (ingestFacts r facts) s) =
      reasonOf r' (Method.after ((factLane r).push facts (s.factHighWater.getD r 0)) s) :=
    congrArg ReportedRunnerFacts.locallyPausedReason ((after_ingestFacts r facts s).reported r')
  rw [settled, Lane.Rule.push, (factLane r).loop_fold (I := Dated)
    (fun fact reason => if r' = r then fact.reasonAfter reason else reason)
    (fun fact s dated => fact.dated_applyFact r dated)
    (fun fact s dated => fact.reasonOf_applyFact r r' dated) _ _ dated, judgedFacts, List.foldl_map]
  split
  case isTrue => rfl
  case isFalse =>
    have idle (judged : List (Fact × MockHubService)) (reason : Json) :
        judged.foldl (fun reason _ => reason) reason = reason := by
      induction judged generalizing reason with
      | nil => rfl
      | cons _ _ ih => exact ih reason
    exact idle _ _

instance : Follows Carries reset where
  follows s dated := by
    refine ⟨⟨dated.clock, fun h row found => ?_, dated.reported⟩, fun _ => rfl⟩
    cases found

theorem carries_op (op : Op) (h : ∀ r facts, op ≠ .ingestFacts r facts) :
    Follows Carries op.run := by
  by_cases leaves : LeavesReports op
  · have := untouched_op op leaves
    exact carries_of_untouched op.run
  · cases op with
    | ingestFacts r facts => exact absurd rfl (h r facts)
    | ingestHostFacts hostId facts =>
      exact inferInstanceAs (Follows Carries (ingestHostFacts hostId facts))
    | reset => exact inferInstanceAs (Follows Carries reset)
    | registry op =>
      cases op with
      | addHost name t rs hostId token =>
        exact inferInstanceAs (Follows Carries (addHost name t rs hostId token))
      | reportHost hostId report =>
        exact inferInstanceAs (Follows Carries (reportHost hostId report))
      | _ => exact absurd trivial leaves
    | _ => exact absurd trivial leaves

/-- No push judges a stamp that UTC cannot tell, or leaves a pause for a reason no view can show. -/
def TellsPlainly (op : Op) (hub : MockHubService) : Prop :=
  match op with
  | .ingestFacts r facts => (∀ fact ∈ judgedFacts r facts hub, fact.RunnerScoped → fact.Stampable) ∧
      ¬ Fact.Mutes (judgedFacts r facts hub)
  | _ => True

theorem mem_of_judgedFacts {r : String} {facts : List Fact} {hub : MockHubService} {fact : Fact}
    (judged : fact ∈ judgedFacts r facts hub) : fact ∈ facts := by
  obtain ⟨⟨_, t⟩, reached, rfl⟩ := List.mem_map.mp judged
  exact (List.perm_insertionSort _ facts).mem_iff.mp (Lane.Rule.mem_of_reached reached)

theorem tellsPlainly_of_facts {facts : List Fact}
    (plain : ∀ fact ∈ facts, fact.Stampable ∧ Told fact.reasonGiven)
    (r : String) (hub : MockHubService) : TellsPlainly (.ingestFacts r facts) hub := by
  refine ⟨fun fact judged _ => (plain fact (mem_of_judgedFacts judged)).1, ?_⟩
  rintro ⟨fact, last, untold⟩
  have judged := (List.mem_filter.mp (List.mem_of_getLast? last)).1
  exact untold (plain fact (mem_of_judgedFacts judged)).2

/-- What a hub can be read back for. -/
structure Plain (hub : MockHubService) : Prop where
  dated : hub.Dated
  told : ∀ r, Told (reasonOf r hub)

omit [Platform] in
theorem plain_fresh {sources : Sources} (utc : ∀ n, (sources.clock.get n).offset = some 0) :
    (fresh sources).Plain where
  dated := {
    clock := utc
    hosts := fun _ _ found => by cases found
    reported := fun _ => Stamped.empty }
  told _ := ⟨none, rfl⟩

theorem plain_next (op : Op) (hub : MockHubService) (plain : hub.Plain)
    (tells : TellsPlainly op hub) :
    (hub.next op).Plain := by
  by_cases push : ∃ r facts, op = .ingestFacts r facts
  · obtain ⟨r, facts, rfl⟩ := push
    refine ⟨dated_ingestFacts r facts plain.dated, fun r' => ?_⟩
    change Told (reasonOf r' (Method.after (ingestFacts r facts) hub))
    rw [reasonOf_ingestFacts r r' facts plain.dated]
    split
    case isTrue => exact (Fact.told_foldl_iff (plain.told r')).mpr tells.2
    case isFalse => exact plain.told r'
  · have := carries_op op fun r facts same => push ⟨r, facts, same⟩
    have carried := Follows.follows (R := Carries) (m := op.run) hub plain.dated
    refine ⟨carried.1, fun r => ?_⟩
    have same : reasonOf r (hub.next op) = reasonOf r hub := carried.2 r
    rw [same]
    exact plain.told r

omit [Platform] in
theorem runnerView_iff {hub : MockHubService} (dated : hub.Dated) {r : String} {row : RunnerRow}
    {instant : DateTime} (held : hub.store.runners.get? r = some row)
    (registered : row.registeredAt = some instant) :
    (∃ view, answer (runnerView r) hub = .ok (some view)) ↔ Told (reasonOf r hub) := by
  have viewed : answer (runnerView r) hub = (runnerViewOf hub.store.toRegistry row instant
      ((hub.store.reported.setdefault r {}).getD r {})).map some := by
    simp only [runnerView]
    refine (answer_bind_of_ok (a := some row) _ ?_ _).trans ?_
    · exact congrArg Except.ok held
    change answer (orRaise (HubError.runnerNeverConnected r) row.registeredAt >>= _) hub = _
    rw [registered]
    change answer (settle (runnerViewOf hub.store.toRegistry row instant
      ((hub.store.reported.setdefault r {}).getD r {})) >>= fun view => return some view) _ = _
    cases runnerViewOf hub.store.toRegistry row instant
      ((hub.store.reported.setdefault r {}).getD r {}) with
    | ok view => rfl
    | error e => rfl
  obtain ⟨views, subscribed⟩ : ∃ views,
      runnerSubscriptions hub.store.toRegistry row (hub.store.reported.getD r {}) = .ok views := by
    simp only [runnerSubscriptions]
    cases standing : row.hostId.bind hub.store.hosts.get? with
    | none => exact usageConditionViews_ok (dated.reported r) _
    | some host =>
      obtain ⟨h, _, found⟩ := Option.bind_eq_some_iff.mp standing
      exact usageConditionViews_ok ((dated.hosts h host found).onlySlug row.subscription) _
  rw [viewed, Dict.getD_setdefault]
  simp only [runnerViewOf, subscribed, Told, reasonOf]
  cases textOrNone (hub.store.reported.getD r {}).locallyPausedReason with
  | ok text => exact ⟨fun _ => ⟨text, rfl⟩, fun _ => ⟨_, rfl⟩⟩
  | error e =>
    constructor
    · rintro ⟨_, shown⟩
      cases shown
    · rintro ⟨_, told⟩
      cases told

/-- In every run whose pushes tell plainly, a registered runner can be shown in every state; and
from there a fact a runner tells of itself is judged unless its stamp cannot be told in UTC, and a
push leaves the runner shown unless it leaves a pause for a reason no view can show. -/
theorem reports_read_back {sources : Sources} (utc : ∀ n, (sources.clock.get n).offset = some 0)
    {ops : List Op}
    (run : Meets TellsPlainly ops (fresh sources)) :
    let hub := after ops (fresh sources)
    (∀ r row instant, hub.store.runners.get? r = some row → row.registeredAt = some instant →
      ∃ view, answer (runnerView r) hub = .ok (some view)) ∧
    (∀ r facts fact t, (fact, t) ∈ (factLane r).pushReached facts (hub.factHighWater.getD r 0) hub →
      fact.RunnerScoped →
        ((∃ accepted, answer (applyFact r fact.kind fact.payload) t = .ok accepted) ↔
          fact.Stampable)) ∧
    (∀ r facts row instant, (hub.next (.ingestFacts r facts)).store.runners.get? r = some row →
      row.registeredAt = some instant →
        ((∃ view, answer (runnerView r) (hub.next (.ingestFacts r facts)) = .ok (some view)) ↔
          ¬ Fact.Mutes (judgedFacts r facts hub))) := by
  intro hub
  have plain : hub.Plain := Machine.invariant plain_next run (plain_fresh utc)
  refine ⟨fun r row instant held registered => ?_, fun r facts fact t _ own => Fact.judged_iff own,
    fun r facts row instant held registered => ?_⟩
  · exact (runnerView_iff plain.dated held registered).mpr (plain.told r)
  · have dated : (hub.next (.ingestFacts r facts)).Dated := dated_ingestFacts r facts plain.dated
    rw [runnerView_iff dated held registered, ← Fact.told_foldl_iff (plain.told r)]
    have settled := reasonOf_ingestFacts r r facts plain.dated
    rw [if_pos rfl] at settled
    rw [← settled]
    rfl

end MockHubService

section

attribute [local instance] Platform.plain

open MockHubService

def pausesForNumber : List Fact :=
  [⟨1, runnerLocallyPaused, [("by", .str "ann"), ("reason", .int 7)]⟩]

def samplesBeforeTime : List Fact :=
  [⟨2, externalSubscriptionUsageSampled,
    [("slug", .str "max"), ("sampled_at", .str "0001-01-01T00:00:00+23:59")]⟩]

def pausesForLunch : List Fact :=
  [⟨1, runnerLocallyPaused, [("by", .str "ann"), ("reason", .str "lunch")]⟩,
    ⟨2, externalSubscriptionUsageSampled,
      [("slug", .str "max"), ("sampled_at", .str "2024-02-29T12:00:00+01:00")]⟩]

def registersAnn : List Op :=
  [.registry (.addRunner "ann" firstTenantId (some "r") (some "t") none none),
    .registry (.register "r"
      { workspaceId := "w", capabilities := [{ harnessId := "h", default := true }] })]

/-- The pause is acknowledged as applied, and the runner cannot be shown from then on; the sample is
not acknowledged at all. -/
theorem accepted_pause_hides_runner :
    (∃ view, answer (runnerView "r") (MockHubService.after registersAnn (fresh .still)) = .ok
      (some view)) ∧
      answer (ingestFacts "r" pausesForNumber) (MockHubService.after registersAnn (fresh .still)) =
        .ok ⟨"r", 1, [1], [], []⟩ ∧
      answer (runnerView "r") ((MockHubService.after registersAnn (fresh .still)).next
        (.ingestFacts "r" pausesForNumber)) = .error .validation ∧
      answer (ingestFacts "r" samplesBeforeTime)
        (MockHubService.after registersAnn (fresh .still)) =
        .error (.builtin .overflowError) :=
  ⟨⟨_, rfl⟩, rfl, rfl, by decide +kernel⟩

theorem reports_read_back_lunch : ∃ view,
    answer (runnerView "r")
      (MockHubService.after (registersAnn ++ [Op.ingestFacts "r" pausesForLunch])
      (fresh .still)) = .ok (some view) := by
  have plain : ∀ fact ∈ pausesForLunch, fact.Stampable ∧ Told fact.reasonGiven := by
    simp only [pausesForLunch, List.forall_mem_cons]
    refine ⟨⟨⟨nofun, nofun⟩, some "lunch", rfl⟩,
      ⟨⟨fun _ => by decide +kernel, nofun⟩, none, rfl⟩, nofun⟩
  have run : MockHubService.Meets TellsPlainly (registersAnn ++ [Op.ingestFacts "r" pausesForLunch])
      (fresh .still) :=
    ⟨trivial, trivial, tellsPlainly_of_facts plain _ _, trivial⟩
  have known : (((MockHubService.after (registersAnn ++ [Op.ingestFacts "r" pausesForLunch])
      (fresh .still)).store.runners.get? "r").bind RunnerRow.registeredAt).isSome = true := by
    decide +kernel
  obtain ⟨instant, found⟩ := Option.isSome_iff_exists.mp known
  obtain ⟨row, held, registered⟩ := Option.bind_eq_some_iff.mp found
  exact (reports_read_back (fun _ => rfl) run).1 "r" row instant held registered

end

end BlizzardMock.MockHub
