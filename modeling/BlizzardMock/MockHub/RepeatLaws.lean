import BlizzardMock.Data.Intake
import BlizzardMock.MockHub.AtomicLaws
import BlizzardMock.MockHub.MarkLaws

namespace BlizzardMock.MockHub

open Method

namespace MockHubService

def keepMark (r : String) (n : Int) (hub : MockHubService) : MockHubService :=
  { hub with factHighWater := hub.factHighWater.set r n }

def Marked (r : String) (n : Int) (s t : MockHubService) : Prop := t = s.keepMark r n

section Primitives

variable {r : String} {n : Int} {α : Type}

instance (f : HubRows → α) : Respects (Marked r n) (readStore f) :=
  respects_read fun _ _ h => by rw [h]; rfl

instance (f : Sources → α) : Respects (Marked r n) (readSources f) :=
  respects_read fun _ _ h => by rw [h]; rfl

instance (f : Sources → Sources) : Respects (Marked r n) (setSources f) :=
  respects_write fun _ _ h => by rw [h]; rfl

instance (f : Table ChunkState.chunkId → Table ChunkState.chunkId) :
    Respects (Marked r n) (setChunks f) :=
  respects_write fun _ _ h => by rw [h]; rfl

instance (question : QuestionState) : Respects (Marked r n) (putQuestion question) :=
  respects_write fun _ _ h => by rw [h]; rfl

instance (r' : String) (f : ReportedRunnerFacts → ReportedRunnerFacts) :
    Respects (Marked r n) (report r' f) where
  respects _ _ h := by
    rw [h]
    exact ⟨rfl, rfl⟩

instance (id : String) : Respects (Marked r n) (added id) := by simp only [added]; infer_instance

instance : Respects (Marked r n) now := by simp only [now]; infer_instance

instance (stamp : Option DateTime) : Respects (Marked r n) (instantOr stamp) := by
  cases stamp <;> (simp only [instantOr]; infer_instance)

instance (value : Json) : Respects (Marked r n) (parseInstant value) := by
  simp only [parseInstant]; infer_instance

instance (chunk : ChunkState) : Respects (Marked r n) (putChunk chunk) :=
  inferInstanceAs (Respects (Marked r n) (setChunks _))

end Primitives

section Judge

variable [Platform] {r : String} {n : Int}

instance (payload : List (String × Json)) (slug : String) :
    Respects (Marked r n) (usageView payload slug) := by
  simp only [usageView]; infer_instance

instance (payload : List (String × Json)) (slug : String) :
    Respects (Marked r n) (usageMiss payload slug) := by
  simp only [usageMiss]; infer_instance

instance (chunk : ChunkState) (epoch : Int) (r' : String) :
    Respects (Marked r n) (advanceFence chunk epoch r') := by
  simp only [advanceFence]
  apply Respects.andThen inferInstance
  intro _
  apply Respects.andThen inferInstance
  intro _
  exact respects_write fun _ _ h => by rw [h]; rfl

instance (r' : String) (payload : List (String × Json)) :
    Respects (Marked r n) (applyLeaseMinted r' payload) := by
  simp only [applyLeaseMinted]; infer_instance

instance (payload : List (String × Json)) :
    Respects (Marked r n) (applyEscalationRecorded payload) := by
  apply Respects.andThen inferInstance
  intro held
  cases held <;> infer_instance

instance (r' : String) (payload : List (String × Json)) :
    Respects (Marked r n) (applyQuestionAsked r' payload) := by
  simp only [applyQuestionAsked]; infer_instance

instance (payload : List (String × Json)) :
    Respects (Marked r n) (applyAnswerDelivered payload) := by
  apply Respects.andThen inferInstance
  intro question
  cases question <;> infer_instance

instance (r' : String) (payload : List (String × Json)) :
    Respects (Marked r n) (applyUsageSampled r' payload) := by
  simp only [applyUsageSampled]
  cases slugOf payload <;> infer_instance

instance (r' : String) (payload : List (String × Json)) :
    Respects (Marked r n) (applyUsageMissed r' payload) := by
  simp only [applyUsageMissed]
  cases slugOf payload <;> infer_instance

instance (r' kind : String) (payload : List (String × Json)) :
    Respects (Marked r n) (applyFact r' kind payload) := by
  simp only [applyFact, applyLocallyPaused, applyLocallyResumed]
  infer_instance

theorem idle_escalationRecorded (payload : List (String × Json)) :
    Idle (applyEscalationRecorded payload) := by
  apply idle_bind
  intro held
  cases held with
  | none => exact idle_pure true
  | some chunk =>
    apply idle_bind
    intro epoch
    exact (idle_pure false).ite idle_last

theorem idle_questionAsked (r' : String) (payload : List (String × Json)) :
    Idle (applyQuestionAsked r' payload) := by
  apply (idle_pure false).ite
  apply idle_bind
  intro judged
  apply idle_bind
  intro fenced
  apply (idle_pure false).ite
  apply idle_bind
  intro question
  exact idle_last

theorem idle_answerDelivered (payload : List (String × Json)) :
    Idle (applyAnswerDelivered payload) := by
  apply idle_bind
  intro question
  cases question with
  | none => exact idle_pure false
  | some question =>
    apply (idle_pure false).ite
    apply (idle_pure true).ite
    exact idle_of_yields fun _ => yields_bind fun _ _ => yields_last

theorem idle_usageSampled (r' : String) (payload : List (String × Json)) :
    Idle (applyUsageSampled r' payload) := by
  simp only [applyUsageSampled]
  cases slugOf payload with
  | none => exact idle_pure false
  | some slug => exact idle_of_yields fun _ => yields_bind fun _ _ => yields_last

theorem idle_usageMissed (r' : String) (payload : List (String × Json)) :
    Idle (applyUsageMissed r' payload) := by
  simp only [applyUsageMissed]
  cases slugOf payload with
  | none => exact idle_pure false
  | some slug => exact idle_of_yields fun _ => yields_bind fun _ _ => yields_last

theorem idle_applyFact (r' kind : String) (payload : List (String × Json)) :
    Idle (applyFact r' kind payload) := by
  apply Idle.ite
  · exact idle_of_yields fun _ => yields_bind fun _ _ => yields_last
  apply (idle_escalationRecorded payload).ite
  apply (idle_questionAsked r' payload).ite
  apply (idle_answerDelivered payload).ite
  apply idle_last.ite
  apply idle_last.ite
  apply (idle_usageSampled r' payload).ite
  apply (idle_usageMissed r' payload).ite
  exact idle_pure _

def factIntake (r : String) : Intake HubError MockHubService Fact where
  toRule := factLane r
  mark hub := hub.factHighWater.getD r 0
  keep := keepMark r
  rises :=
    have rises : (Sender.runner r).lane.Rises := Sender.rises
    rises
  mark_keep n hub := Dict.getD_set_self hub.factHighWater r n 0
  keep_keep m n hub := by
    simp only [keepMark, Dict.set_set]
  mark_judge fact hub := by
    have kept := Keeps.keeps (f := marks) (m := applyFact r fact.kind fact.payload) hub
    exact congrArg (fun marks : Dict String Int × Dict String Int => marks.1.getD r 0) kept
  answer_judge fact n hub := by
    have alike : Respects (Marked r n) (applyFact r fact.kind fact.payload) := inferInstance
    exact (alike.respects hub (hub.keepMark r n) rfl).1.symm
  judge_keep fact n hub := by
    have alike : Respects (Marked r n) (applyFact r fact.kind fact.payload) := inferInstance
    exact (alike.respects hub (hub.keepMark r n) rfl).2
  idle fact := idle_applyFact r fact.kind fact.payload

def acked (r : String) (lane : Lane) : RunnerFactAck :=
  ⟨r, lane.mark, lane.applied, lane.alreadyApplied, lane.rejected⟩

theorem ingestFacts_eq (r : String) (facts : List Fact) :
    ingestFacts r facts = (factIntake r).ingest facts >>= fun lane => pure (acked r lane) := by
  simp only [ingestFacts, Intake.ingest, bind_assoc, pure_bind]
  rfl

def inOrder (facts : List Fact) : List Fact := facts.insertionSort fun a b => a.seq ≤ b.seq

def ingestEach (r : String) : List Fact → HubM (List RunnerFactAck)
  | [] => pure []
  | fact :: rest => do
    let ack ← ingestFacts r [fact]
    let acks ← ingestEach r rest
    return ack :: acks

theorem ingestEach_eq (r : String) (facts : List Fact) :
    ingestEach r facts = (factIntake r).ingestEach facts >>= fun lanes =>
      pure (lanes.map (acked r)) := by
  induction facts with
  | nil => rfl
  | cons fact rest ih =>
    simp only [ingestEach, Intake.ingestEach, ih, ingestFacts_eq, bind_assoc, pure_bind,
      List.map_cons]

/-- A batch that was acknowledged, pushed again, leaves the hub and the mark as they are, and
acknowledges as applied what lies under the mark.  Its facts pushed one per call, in the order of
their numbers, have the outcomes they have in the batch and leave the hub it leaves; a batch that
names no fact leaves the runner's mark beside that. -/
theorem ingestFacts_repeats (hub : MockHubService) (r : String) (facts : List Fact)
    (ack : RunnerFactAck)
    (pushed : answer (ingestFacts r facts) hub = .ok ack) :
    let later := Method.after (ingestFacts r facts) hub
    let numbers := (inOrder facts).map Fact.seq
    ((ingestFacts r facts).run later = .ok { ack with
        applied := []
        alreadyApplied := numbers.filter (· ≤ ack.highWater)
        rejected := numbers.filter (ack.highWater < ·) } later) ∧
      later.factHighWater.getD r 0 = ack.highWater ∧
      ∃ acks final, (ingestEach r (inOrder facts)).run hub = .ok acks final ∧
        acks.flatMap RunnerFactAck.applied = ack.applied ∧
        acks.flatMap RunnerFactAck.alreadyApplied = ack.alreadyApplied ∧
        acks.flatMap RunnerFactAck.rejected = ack.rejected ∧
        final.keepMark r ack.highWater = later ∧ (facts ≠ [] → final = later) := by
  intro later numbers
  have same : Method.after ((factIntake r).ingest facts) hub = later := by
    simp only [later, ingestFacts_eq]
    rw [after_bind]
    cases answer ((factIntake r).ingest facts) hub with
    | ok lane => rfl
    | error e => rfl
  rw [ingestFacts_eq] at pushed
  obtain ⟨lane, ingested, acknowledged⟩ := answer_bind_ok pushed
  cases acknowledged
  have again := Intake.run_ingest_again ingested
  obtain ⟨lanes, final, run, joined, kept, some⟩ := Intake.run_ingestEach ingested
  rw [same] at again kept some
  refine ⟨?_, ?_, lanes.map (acked r), final, ?_, ?_, ?_, ?_, kept, some⟩
  · rw [ingestFacts_eq, run_bind_of_run again]
    rfl
  · rw [← kept]
    exact (factIntake r).mark_keep lane.mark final
  · rw [ingestEach_eq]
    exact run_bind_of_run run
  · rw [joined]
    simp [acked, Intake.joined, List.flatMap_map]
  · rw [joined]
    simp [acked, Intake.joined, List.flatMap_map]
  · rw [joined]
    simp [acked, Intake.joined, List.flatMap_map]

end Judge

end MockHubService

section

attribute [local instance] Platform.plain

open MockHubService

def mixedBatch : List Fact :=
  [⟨3, eventRecorded, []⟩, ⟨2, answerDelivered, [("question_id", .str "q")]⟩,
    ⟨1, runnerLocallyPaused, [("by", .str "ann")]⟩]

theorem mixed_batch_repeats :
    answer (ingestFacts "r" mixedBatch) seededRunner = .ok ⟨"r", 3, [1, 3], [], [2]⟩ ∧
      answer (ingestFacts "r" mixedBatch) (Method.after (ingestFacts "r" mixedBatch) seededRunner) =
        .ok ⟨"r", 3, [], [1, 2, 3], []⟩ ∧
      ∃ acks, (ingestEach "r" (inOrder mixedBatch)).run seededRunner =
        .ok acks (Method.after (ingestFacts "r" mixedBatch) seededRunner) := by
  have pushed : answer (ingestFacts "r" mixedBatch) seededRunner = .ok ⟨"r", 3, [1, 3], [], [2]⟩ :=
    rfl
  obtain ⟨again, _, acks, final, run, _, _, _, _, same⟩ :=
    ingestFacts_repeats seededRunner "r" mixedBatch _ pushed
  rw [same nofun] at run
  exact ⟨pushed, answer_of_run_ok again, acks, run⟩

/-- A batch that names no fact leaves a mark that no call would have left. -/
theorem empty_batch_leaves_mark :
    seededRunner.Reachable ∧
      answer (ingestFacts "r" []) seededRunner = .ok ⟨"r", 0, [], [], []⟩ ∧
      (ingestEach "r" (inOrder [])).run seededRunner = .ok [] seededRunner ∧
      Method.after (ingestFacts "r" []) seededRunner ≠ seededRunner := by
  refine ⟨reachable_run _ _, rfl, rfl, fun same => ?_⟩
  have marked := congrArg (fun hub : MockHubService => hub.factHighWater.get? "r") same
  cases marked

end

end BlizzardMock.MockHub
