import BlizzardMock.MockHub.FateLaws
import BlizzardMock.MockHub.MarkLaws

namespace BlizzardMock.MockHub

open Method MockHubService

namespace Fact

variable [Platform] (fact : Fact) (r : String) (hub : MockHubService)

def mintLands : Bool :=
  match hub.chunks.get? (chunkIdOf fact.payload) with
  | none => true
  | some _ => (epochOf fact.payload).isOk && (hub.store.runners.get? r).isSome

def escalationLands : Bool :=
  match hub.chunks.get? (chunkIdOf fact.payload) with
  | none => true
  | some _ => (epochOf fact.payload).isOk

def questionLands : Bool :=
  if questionIdOf fact.payload = "" ∨ chunkIdOf fact.payload = "" then true
  else match questionFenced hub.store.toHubRows fact.payload with
    | .error _ => false
    | .ok fenced => if fenced then true else (questionOf r fact.payload).isOk

def usageLands (stamp : String) : Bool :=
  match slugOf fact.payload with
  | none => true
  | some _ => (stampOf (Json.get fact.payload stamp .null)).isOk

/-- Whether a fact is judged without a raise: its number, its texts, its stamp coerce, and a lease
is minted by a runner that was added. -/
def lands : Bool :=
  if fact.kind = leaseMinted then fact.mintLands r hub
  else if fact.kind = escalationRecorded then fact.escalationLands hub
  else if fact.kind = questionAsked then fact.questionLands r hub
  else if fact.kind = answerDelivered then true
  else if fact.kind = runnerLocallyPaused then true
  else if fact.kind = runnerLocallyResumed then true
  else if fact.kind = externalSubscriptionUsageSampled then fact.usageLands "sampled_at"
  else if fact.kind = externalSubscriptionUsageMissed then fact.usageLands "missed_at"
  else true

variable {fact r hub}

omit [Platform] in
theorem lands_added {α : Type} {g : RunnerRow → HubM α} (h : ∀ row t, Lands (g row) t true) :
    Lands (added r >>= g) hub (hub.store.runners.get? r).isSome := by
  rw [Lands, answer_bind]
  cases known : hub.store.runners.get? r with
  | none =>
    rw [answer_added_none known]
    rfl
  | some row =>
    rw [answer_added_some known]
    exact h row _

theorem lands_mint : Lands (applyLeaseMinted r fact.payload) hub (fact.mintLands r hub) := by
  apply lands_read
  refine Lands.bind ?_ fun _ _ => lands_pure true
  simp only [mintLands]
  change Lands (whenSome _ (hub.chunks.get? (chunkIdOf fact.payload))) hub _
  cases hub.chunks.get? (chunkIdOf fact.payload) with
  | none => exact lands_pure ()
  | some chunk =>
    apply lands_settle
    intro epoch _
    apply lands_write
    exact lands_added fun _ _ => rfl

theorem lands_escalation :
    Lands (applyEscalationRecorded fact.payload) hub (fact.escalationLands hub) := by
  apply lands_read
  simp only [escalationLands]
  cases hub.chunks.get? (chunkIdOf fact.payload) with
  | none => exact lands_pure true
  | some chunk =>
    apply (lands_settled _).bind
    intro epoch t
    split
    · exact lands_pure false
    · exact lands_write (lands_pure true)

theorem lands_question :
    Lands (applyQuestionAsked r fact.payload) hub (fact.questionLands r hub) := by
  apply (lands_pure false).ite
  apply lands_read
  change Lands (settle (questionFenced hub.store.toHubRows fact.payload) >>= _) hub _
  cases questionFenced hub.store.toHubRows fact.payload with
  | error e => rfl
  | ok fenced =>
    apply (lands_pure false).ite
    exact (lands_settled _).bind fun question t => lands_write (lands_pure true)

omit [Platform] in
theorem lands_usage {stamp : String} {g : String → HubM Bool}
    (h : ∀ slug, Lands (g slug) hub (stampOf (Json.get fact.payload stamp .null)).isOk) :
    Lands (match slugOf fact.payload with
      | none => return false
      | some slug => g slug) hub (fact.usageLands stamp) := by
  simp only [usageLands]
  cases slugOf fact.payload with
  | none => exact lands_pure false
  | some slug => exact h slug

omit [Platform] in
theorem lands_parseInstant {value : Json} :
    Lands (parseInstant value) hub (stampOf value).isOk := by
  apply (lands_settled _).bind
  intro stamp t
  cases stamp with
  | none => rfl
  | some instant => exact lands_pure instant

theorem lands_delivered : Lands (applyAnswerDelivered fact.payload) hub true := by
  apply lands_read
  dsimp only
  cases hub.questions.get? (questionIdOf fact.payload) with
  | none => exact lands_pure false
  | some question =>
    dsimp only
    split
    · exact lands_pure false
    split
    · exact lands_pure true
    · rfl

theorem lands_applyFact (hub : MockHubService) :
    Lands (applyFact r fact.kind fact.payload) hub (fact.lands r hub) := by
  apply lands_mint.ite
  apply lands_escalation.ite
  apply lands_question.ite
  apply lands_delivered.ite
  apply Lands.ite rfl
  apply Lands.ite rfl
  apply Lands.ite (lands_usage fun slug => ?_)
  · apply Lands.ite (lands_usage fun slug => ?_)
    · exact lands_pure _
    · exact (lands_parseInstant.bind fun _ _ => lands_pure _).bind fun _ _ => rfl
  · exact (lands_parseInstant.bind fun _ _ => lands_pure _).bind fun _ _ => rfl

theorem judged_of_lands (lands : fact.lands r hub = true) :
    answer (applyFact r fact.kind fact.payload) hub = .ok (fact.admitted hub) := by
  have landed : Lands (applyFact r fact.kind fact.payload) hub (fact.lands r hub) :=
    Fact.lands_applyFact hub
  rw [Lands, lands] at landed
  cases judged : answer (applyFact r fact.kind fact.payload) hub with
  | error e =>
    rw [judged] at landed
    cases landed
  | ok accepted => rw [Fact.yields_admitted accepted judged]

theorem raised_of_falls (falls : fact.lands r hub = false) :
    ∃ e, answer (applyFact r fact.kind fact.payload) hub = .error e := by
  have landed : Lands (applyFact r fact.kind fact.payload) hub (fact.lands r hub) :=
    Fact.lands_applyFact hub
  rw [Lands, falls] at landed
  cases judged : answer (applyFact r fact.kind fact.payload) hub with
  | error e => exact ⟨e, rfl⟩
  | ok accepted =>
    rw [judged] at landed
    cases landed

end Fact

end BlizzardMock.MockHub
