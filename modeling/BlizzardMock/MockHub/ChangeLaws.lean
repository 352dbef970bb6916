import BlizzardMock.MockHub.LandLaws

/-! What a fact writes: of what a hub holds, it changes what it does not find there already. -/

namespace BlizzardMock.MockHub

open Method MockHubService

namespace MockHubService

def held (hub : MockHubService) : InMemoryHubState × Books × InMemoryLeverStore :=
  (hub.store, hub.toBooks, hub.levers)

instance : Keeps held now := ⟨fun _ => rfl⟩

instance (value : Json) : Keeps held (parseInstant value) := by
  apply Keeps.andThen inferInstance
  intro stamp
  cases stamp with
  | none => exact inferInstanceAs (Keeps held now)
  | some instant => exact inferInstanceAs (Keeps held (pure instant))

variable [Platform]

instance (payload : List (String × Json)) (slug : String) :
    Keeps held (usageView payload slug) := by
  simp only [usageView]
  infer_instance

instance (payload : List (String × Json)) (slug : String) :
    Keeps held (usageMiss payload slug) := by
  simp only [usageMiss]
  infer_instance

end MockHubService

section Alters

/-- A judgement that answers changes what a hub holds just where `w` holds. -/
def Alters (m : HubM Bool) (hub : MockHubService) (w : Prop) : Prop :=
  (answer m hub).isOk = true → ((Method.after m hub).held ≠ hub.held ↔ w)

variable {m n : HubM Bool} {hub : MockHubService} {w v : Prop}

theorem Alters.ite {c : Prop} [Decidable c] (hm : Alters m hub w) (hn : Alters n hub v) :
    Alters (if c then m else n) hub (if c then w else v) := by
  split
  · exact hm
  · exact hn

theorem alters_pure (a : Bool) : Alters (pure a) hub False := fun _ => iff_of_false (· rfl) id

theorem Alters.congr (changes : Alters m hub w) (same : w ↔ v) : Alters m hub v :=
  fun landed => (changes landed).trans same

theorem alters_read {α : Type} {f : MockHubService → α} {g : α → HubM Bool}
    (next : Alters (g (f hub)) hub w) :
    Alters (read f >>= g) hub w := next

theorem alters_settle {α : Type} {x : Except HubError α} {g : α → HubM Bool}
    (next : ∀ a, x = .ok a → Alters (g a) hub w) : Alters (settle x >>= g) hub w := by
  cases x with
  | ok a => exact next a rfl
  | error e => exact nofun

theorem after_report (hub : MockHubService) (r : String)
    (f : ReportedRunnerFacts → ReportedRunnerFacts) :
    Method.after (report r f >>= fun _ => (pure true : HubM Bool)) hub =
      { hub with store.reported := hub.store.reported.set r (f (hub.store.reported.getD r {})) } := by
  let facts := (hub.store.reported.setdefault r {}).getD r {}
  change { hub with store.reported := (hub.store.reported.setdefault r {}).set r (f facts) } = _
  simp only [facts]
  rw [Dict.getD_setdefault, Dict.set_setdefault]

theorem alters_report {r : String} {f : ReportedRunnerFacts → ReportedRunnerFacts} :
    Alters (report r f >>= fun _ => pure true) hub
      (hub.store.reported.get? r ≠ some (f (hub.store.reported.getD r {}))) := by
  intro _
  refine not_congr ?_
  rw [after_report, ← Dict.set_eq_iff]
  constructor
  · exact fun same => congrArg (fun held => held.1.reported) same
  · intro same
    simp only [held, same]

end Alters

namespace Fact

section Writes

variable [Platform] (fact : Fact) (r : String) (hub : MockHubService)

def MintWrites : Prop :=
  ∃ chunk epoch row, hub.chunks.get? (chunkIdOf fact.payload) = some chunk ∧
    epochOf fact.payload = .ok epoch ∧
    hub.store.runners.get? r = some row ∧
    (chunk.latestEpoch < epoch ∨ hub.epochOwners.get? (row.tenantId, chunk.chunkId, epoch) = none)

def EscalationWrites : Prop :=
  ∃ chunk epoch, hub.chunks.get? (chunkIdOf fact.payload) = some chunk ∧
    epochOf fact.payload = .ok epoch ∧
    chunk.fenceRefusal epoch = none ∧ chunk.escalation ≠ some (escalationOf fact.payload epoch)

def QuestionWrites : Prop :=
  fact.asks hub = true ∧ ∃ question, questionOf r fact.payload = .ok question ∧
    hub.questions.get? question.questionId ≠ some question

def DeliveryWrites : Prop :=
  ∃ question, hub.questions.get? (questionIdOf fact.payload) = some question ∧
    question.deliveryRefusal (chunkIdOf fact.payload) = none ∧ question.delivered = false

def ReportWrites (f : ReportedRunnerFacts → ReportedRunnerFacts) : Prop :=
  hub.store.reported.get? r ≠ some (f (hub.store.reported.getD r {}))

def PauseWrites : Prop :=
  ReportWrites r hub fun facts => { facts with
    locallyPaused := true
    locallyPausedBy := some (Json.get fact.payload "by" (.str "operator")).text
    locallyPausedReason := Json.get fact.payload "reason" .null }

omit [Platform] in
def ResumeWrites : Prop :=
  ReportWrites r hub fun facts => { facts with
    locallyPaused := false
    locallyPausedBy := none
    locallyPausedReason := .null }

/-- Usage of a slug, unless the runner reported the same of the same instant; without a stamp the
clock's own counts as another. -/
def UsageWrites (stamp : String) (f : String → DateTime → ReportedRunnerFacts →
      ReportedRunnerFacts) : Prop :=
  ∃ slug, slugOf fact.payload = some slug ∧ ∀ instant,
    stampOf (Json.get fact.payload stamp .null) = .ok (some instant) →
      ReportWrites r hub (f slug instant)

def SampleWrites : Prop :=
  fact.UsageWrites r hub "sampled_at" fun slug instant facts => { facts with
    subscriptionUsage := facts.subscriptionUsage.set slug {
      slug := slug
      name := textOr slug (Json.get fact.payload "name" .null)
      sampledAt := some instant.isoformat
      windows := usageWindows (Json.get fact.payload "windows" .null) } }

def MissWrites : Prop :=
  fact.UsageWrites r hub "missed_at" fun slug instant facts => { facts with
    subscriptionUsageMisses := facts.subscriptionUsageMisses.set slug {
      slug := slug
      name := textOr slug (Json.get fact.payload "name" .null)
      missedAt := instant
      reason := textOr "" (Json.get fact.payload "reason" .null) } }

def Writes : Prop :=
  if fact.kind = leaseMinted then fact.MintWrites r hub
  else if fact.kind = escalationRecorded then fact.EscalationWrites hub
  else if fact.kind = questionAsked then fact.QuestionWrites r hub
  else if fact.kind = answerDelivered then fact.DeliveryWrites hub
  else if fact.kind = runnerLocallyPaused then fact.PauseWrites r hub
  else if fact.kind = runnerLocallyResumed then ResumeWrites r hub
  else if fact.kind = externalSubscriptionUsageSampled then fact.SampleWrites r hub
  else if fact.kind = externalSubscriptionUsageMissed then fact.MissWrites r hub
  else False

/-- Usage the clock is to stamp. -/
def Stampless : Prop :=
  (slugOf fact.payload).isSome ∧
    (fact.kind = externalSubscriptionUsageSampled ∧
      stampOf (Json.get fact.payload "sampled_at" .null) = .ok none ∨
      fact.kind = externalSubscriptionUsageMissed ∧
        stampOf (Json.get fact.payload "missed_at" .null) = .ok none)

end Writes

section Alters

variable [Platform] {fact : Fact} {r : String} {hub : MockHubService}

omit [Platform] in
theorem alters_fence {chunk : ChunkState} {epoch : Int}
    (filed : hub.chunks.get? chunk.chunkId = some chunk) :
    Alters (advanceFence chunk epoch r >>= fun _ => pure true) hub
      (∃ row, hub.store.runners.get? r = some row ∧
        (chunk.latestEpoch < epoch ∨
          hub.epochOwners.get? (row.tenantId, chunk.chunkId, epoch) = none)) := by
  intro landed
  cases known : hub.store.runners.get? r with
  | none =>
    have raised : answer (advanceFence chunk epoch r) hub = .error (.unknownRunner r) := by
      simp only [advanceFence]
      rw [answer_bind_of_ok _ rfl]
      exact answer_bind_of_error (s := Method.after (putChunk (chunk.fenced epoch)) hub)
        (answer_added_none known) _
    rw [answer_bind_of_error _ raised] at landed
    cases landed
  | some row =>
    rw [after_bind_pure, after_advanceFence_some known]
    have fence : hub.chunks.put (chunk.fenced epoch) = hub.chunks ↔ ¬chunk.latestEpoch < epoch := by
      rw [Table.put_eq_iff]
      change hub.chunks.get? chunk.chunkId = _ ↔ _
      rw [filed, Option.some_inj, not_lt]
      constructor
      · intro same
        rw [same]
        exact le_max_right _ _
      · intro under
        simp only [ChunkState.fenced, max_eq_left under]
    simp only [Option.some.injEq, exists_eq_left']
    rw [← not_iff_not, not_or, not_not, ← fence, ← ne_eq, ← Dict.setdefault_eq_iff (x := r)]
    constructor
    · intro same
      exact ⟨congrArg (fun held => held.1.chunks) same,
        congrArg (fun held => held.2.1.epochOwners) same⟩
    · intro same
      change (({ hub.store with chunks := hub.store.chunks.put (chunk.fenced epoch) } :
        InMemoryHubState),
        ({ hub.toBooks with
          epochOwners := hub.epochOwners.setdefault (row.tenantId, chunk.chunkId, epoch) r } :
            Books), hub.levers) = _
      rw [same.1, same.2]
      rfl

theorem alters_mint : Alters (applyLeaseMinted r fact.payload) hub (fact.MintWrites r hub) := by
  apply alters_read
  change Alters (whenSome _ (hub.chunks.get? (chunkIdOf fact.payload)) >>= _) hub _
  simp only [MintWrites]
  cases found : hub.chunks.get? (chunkIdOf fact.payload) with
  | none => exact (alters_pure true).congr (by simp)
  | some chunk =>
    simp only [whenSome, bind_assoc]
    refine alters_settle fun epoch coerced => (alters_fence ?_).congr ?_
    · rw [Table.key_of_get? found]
      exact found
    · simp [coerced]

theorem alters_escalation :
    Alters (applyEscalationRecorded fact.payload) hub (fact.EscalationWrites hub) := by
  apply alters_read
  simp only [EscalationWrites]
  cases found : hub.chunks.get? (chunkIdOf fact.payload) with
  | none => exact (alters_pure true).congr (by simp)
  | some chunk =>
    refine alters_settle fun epoch coerced => ?_
    simp only [Option.some.injEq, coerced, Except.ok.injEq, exists_and_left, exists_eq_left']
    split
    case isTrue refused =>
      refine (alters_pure false).congr (iff_of_false id fun writes => ?_)
      rw [writes.1] at refused
      cases refused
    case isFalse passed =>
      have free : chunk.fenceRefusal epoch = none := Option.not_isSome_iff_eq_none.mp passed
      have filed := Table.key_of_get? found
      refine fun _ => not_congr ?_ |>.trans (and_iff_right free).symm
      let escalated : ChunkState :=
        { chunk with escalation := some (escalationOf fact.payload epoch) }
      have put : hub.chunks.put escalated = hub.chunks ↔
          chunk.escalation = some (escalationOf fact.payload epoch) := by
        rw [Table.put_eq_iff]
        change hub.chunks.get? chunk.chunkId = _ ↔ _
        rw [filed, found, Option.some_inj]
        exact ⟨congrArg ChunkState.escalation, fun same => by simp only [escalated, ← same]⟩
      rw [← put]
      constructor
      · exact fun same => congrArg (fun held => held.1.chunks) same
      · exact fun same =>
          congrArg (fun chunks =>
            ({ hub.store with chunks := chunks }, hub.toBooks, hub.levers)) same

omit [Platform] in
theorem alters_putQuestion {question : QuestionState} :
    Alters (putQuestion question >>= fun _ => pure true) hub
    (hub.questions.get? question.questionId ≠ some question) := by
  refine fun _ => not_congr ?_
  rw [← Table.put_eq_iff]
  constructor
  · exact fun same => congrArg (fun held => held.1.questions) same
  · exact fun same => congrArg
      (fun questions => ({ hub.store with questions := questions }, hub.toBooks, hub.levers)) same

theorem alters_question :
    Alters (applyQuestionAsked r fact.payload) hub (fact.QuestionWrites r hub) := by
  simp only [applyQuestionAsked]
  split
  case isTrue blank =>
    refine (alters_pure false).congr (iff_of_false id fun writes => ?_)
    rw [QuestionWrites, asks, if_pos blank] at writes
    cases writes.1
  case isFalse named =>
    apply alters_read
    refine alters_settle fun fenced judged => ?_
    change questionFenced hub.store.toHubRows fact.payload = .ok fenced at judged
    rw [QuestionWrites, asks, if_neg named, judged]
    cases fenced with
    | true => exact (alters_pure false).congr (by simp)
    | false =>
      refine alters_settle fun question described => alters_putQuestion.congr ?_
      simp [described]

theorem alters_delivery :
    Alters (applyAnswerDelivered fact.payload) hub (fact.DeliveryWrites hub) := by
  apply alters_read
  simp only [DeliveryWrites]
  cases found : hub.questions.get? (questionIdOf fact.payload) with
  | none => exact (alters_pure false).congr (by simp)
  | some question =>
    simp only [Option.some.injEq, exists_eq_left']
    split
    case isTrue refused =>
      refine (alters_pure false).congr (iff_of_false id fun writes => ?_)
      rw [writes.1] at refused
      cases refused
    case isFalse passed =>
      have free : question.deliveryRefusal (chunkIdOf fact.payload) = none :=
        Option.not_isSome_iff_eq_none.mp passed
      split
      case isTrue delivered =>
        refine (alters_pure true).congr (iff_of_false id fun writes => ?_)
        rw [delivered] at writes
        cases writes.2
      case isFalse open' =>
        refine fun _ => iff_of_true (fun same => ?_) ⟨free, Bool.eq_false_iff.mpr open'⟩
        have filed := Table.key_of_get? found
        have put (text : String) : (hub.questions.put { question with
            delivered := true, deliveredAt := some text }).get? question.questionId =
              some { question with delivered := true, deliveredAt := some text } :=
                Table.get?_put_self _ _
        have row := congrArg (fun held =>
          (held.1.questions.get? question.questionId).map (·.delivered)) same
        have told := (congrArg (Option.map (·.delivered)) (put _)).symm.trans row
        change some true = (hub.questions.get? question.questionId).map (·.delivered) at told
        rw [filed, found] at told
        exact open' (Option.some.inj told).symm

theorem alters_sample (dated : ¬fact.Stampless)
    (sampled : fact.kind = externalSubscriptionUsageSampled) :
    Alters (applyUsageSampled r fact.payload) hub (fact.SampleWrites r hub) := by
  simp only [applyUsageSampled, SampleWrites, UsageWrites]
  cases slugged : slugOf fact.payload with
  | none => exact (alters_pure false).congr (by simp)
  | some slug =>
    dsimp only
    simp only [usageView, parseInstant, bind_assoc, pure_bind]
    refine alters_settle fun stamp stamped => ?_
    cases stamp with
    | none => exact absurd ⟨by simp [slugged], .inl ⟨sampled, stamped⟩⟩ dated
    | some instant =>
      simp only [instantOr, pure_bind]
      refine alters_report.congr ?_
      simp [stamped, ReportWrites]

theorem alters_miss (dated : ¬fact.Stampless)
    (missed : fact.kind = externalSubscriptionUsageMissed) :
    Alters (applyUsageMissed r fact.payload) hub (fact.MissWrites r hub) := by
  simp only [applyUsageMissed, MissWrites, UsageWrites]
  cases slugged : slugOf fact.payload with
  | none => exact (alters_pure false).congr (by simp)
  | some slug =>
    dsimp only
    simp only [usageMiss, parseInstant, bind_assoc, pure_bind]
    refine alters_settle fun stamp stamped => ?_
    cases stamp with
    | none => exact absurd ⟨by simp [slugged], .inr ⟨missed, stamped⟩⟩ dated
    | some instant =>
      simp only [instantOr, pure_bind]
      refine alters_report.congr ?_
      simp [stamped, ReportWrites]

theorem alters_applyFact (dated : ¬fact.Stampless) :
    Alters (applyFact r fact.kind fact.payload) hub (fact.Writes r hub) := by
  simp only [applyFact, Writes]
  apply alters_mint.ite
  apply alters_escalation.ite
  apply alters_question.ite
  apply alters_delivery.ite
  apply alters_report.ite
  apply alters_report.ite
  split
  case isTrue sampled => exact alters_sample dated sampled
  case isFalse =>
    split
    case isTrue missed => exact alters_miss dated missed
    case isFalse => exact alters_pure _

theorem writes_of_stampless (stampless : fact.Stampless) : fact.Writes r hub := by
  obtain ⟨slugged, stamped⟩ := stampless
  obtain ⟨slug, slugged⟩ := Option.isSome_iff_exists.mp slugged
  have undated {stamp : String} (none : stampOf (Json.get fact.payload stamp .null) = .ok none)
      (f : String → DateTime → ReportedRunnerFacts → ReportedRunnerFacts) :
        fact.UsageWrites r hub stamp f :=
    ⟨slug, slugged, fun instant some => by cases none.symm.trans some⟩
  rcases stamped with ⟨sampled, none⟩ | ⟨missed, none⟩
  · rw [Writes, sampled]
    exact undated none _
  · rw [Writes, missed]
    exact undated none _

end Alters

section Raises

variable [Platform] (fact : Fact) (r : String) (hub : MockHubService)

def HalfMints : Prop :=
  fact.kind = leaseMinted ∧ hub.store.runners.get? r = none ∧
    ∃ chunk epoch, hub.chunks.get? (chunkIdOf fact.payload) = some chunk ∧
      epochOf fact.payload = .ok epoch ∧ chunk.latestEpoch < epoch

variable {fact r hub}

section Mint

variable {chunk : ChunkState} {epoch : Int}

theorem after_mint (found : hub.chunks.get? (chunkIdOf fact.payload) = some chunk)
    (coerced : epochOf fact.payload = .ok epoch) (unknown : hub.store.runners.get? r = none) :
    Method.after (applyLeaseMinted r fact.payload) hub =
      Method.after (putChunk (chunk.fenced epoch)) hub := by
  simp only [applyLeaseMinted]
  rw [after_bind_of_ok _ rfl, after_bind_pure]
  change Method.after (whenSome _ (hub.chunks.get? (chunkIdOf fact.payload))) hub = _
  rw [found, coerced]
  exact after_advanceFence_none unknown chunk epoch

theorem mint_tidy (falls : fact.mintLands r hub = false) (whole : ∀ chunk epoch,
      hub.chunks.get? (chunkIdOf fact.payload) = some chunk → epochOf fact.payload = .ok epoch →
      hub.store.runners.get? r = none → epoch ≤ chunk.latestEpoch) :
    (Method.after (applyLeaseMinted r fact.payload) hub).held = hub.held := by
  simp only [mintLands] at falls
  cases found : hub.chunks.get? (chunkIdOf fact.payload) with
  | none =>
    rw [found] at falls
    cases falls
  | some chunk =>
    rw [found] at falls
    cases coerced : epochOf fact.payload with
    | error e =>
      simp only [applyLeaseMinted]
      rw [after_bind_of_ok _ rfl, after_bind_pure]
      change (Method.after (whenSome _ (hub.chunks.get? (chunkIdOf fact.payload))) hub).held = _
      rw [found, coerced]
      rfl
    | ok epoch =>
      cases unknown : hub.store.runners.get? r with
      | some row =>
        rw [coerced, unknown] at falls
        cases falls
      | none =>
        rw [after_mint found coerced unknown]
        have same : chunk.fenced epoch = chunk := by
          simp only [ChunkState.fenced, max_eq_left (whole chunk epoch found coerced unknown)]
        rw [same]
        exact congrArg (fun chunks =>
          ({ hub.store with chunks := chunks }, hub.toBooks, hub.levers))
          (Table.put_of_get? found)

end Mint

omit [Platform] in
theorem tidy_usage {payload : List (String × Json)} {g : String → HubM Bool}
    (h : ∀ slug, Tidy held (g slug)) : Tidy held (match slugOf payload with
      | none => return false
      | some slug => g slug) := by
  cases slugOf payload with
  | none => exact tidy_pure false
  | some slug => exact h slug

theorem tidy_applyFact (other : fact.kind ≠ leaseMinted) :
    Tidy held (applyFact r fact.kind fact.payload) := by
  simp only [applyFact]
  rw [if_neg other]
  refine .ite ?_ (.ite ?_ (.ite ?_ (.ite ?_ (.ite ?_ (.ite ?_ (.ite ?_ ?_))))))
  · apply tidy_bind
    intro chunk
    cases chunk with
    | none => exact tidy_pure true
    | some chunk => exact tidy_bind fun epoch => (tidy_pure false).ite (tidy_write _ true)
  · apply (tidy_pure false).ite
    exact tidy_bind fun fenced => tidy_bind fun fenced =>
      (tidy_pure false).ite (tidy_bind fun question => tidy_write _ true)
  · exact tidy_of_lands fun _ => lands_delivered
  · exact tidy_write _ true
  · exact tidy_write _ true
  · exact tidy_usage fun slug => tidy_bind fun view => tidy_write _ true
  · exact tidy_usage fun slug => tidy_bind fun miss => tidy_write _ true
  · exact tidy_pure _

theorem mint_raises_epoch {hub t : MockHubService} (pushes : Pushes hub t)
    (half : fact.HalfMints r t) :
    (Method.after (applyFact r fact.kind fact.payload) t).held ≠ hub.held := by
  obtain ⟨kind, unknown, chunk, epoch, found, coerced, past⟩ := half
  simp only [applyFact]
  rw [if_pos kind, after_mint found coerced unknown]
  intro same
  have chunks : t.chunks.put (chunk.fenced epoch) = hub.chunks :=
    congrArg (fun held => held.1.chunks) same
  have row := pushes (chunkIdOf fact.payload)
  have filed : chunkIdOf fact.payload = (chunk.fenced epoch).chunkId :=
    (Table.key_of_get? found).symm
  rw [← chunks, found, filed, Table.get?_put_self] at row
  cases row with
  | some pushed => exact absurd ((le_max_right _ _).trans pushed.1) (not_le.mpr past)

theorem raise_keeps (falls : fact.lands r hub = false) (whole : ¬fact.HalfMints r hub) :
    (Method.after (applyFact r fact.kind fact.payload) hub).held = hub.held := by
  by_cases kind : fact.kind = leaseMinted
  · simp only [lands, if_pos kind] at falls
    simp only [applyFact]
    rw [if_pos kind]
    refine mint_tidy falls fun chunk epoch found coerced unknown => ?_
    exact not_lt.mp fun past => whole ⟨kind, unknown, chunk, epoch, found, coerced, past⟩
  · obtain ⟨e, raised⟩ := raised_of_falls falls
    exact tidy_applyFact kind hub e raised

end Raises

end Fact

end BlizzardMock.MockHub
