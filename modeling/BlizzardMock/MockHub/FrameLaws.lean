import BlizzardMock.Data.LaneLaws
import BlizzardMock.MockHub.Operations

namespace BlizzardMock.MockHub

open Method

def Books.fences (books : Books) : Books where
  factHighWater := books.factHighWater
  hostFactHighWater := books.hostFactHighWater
  epochOwners := books.epochOwners

theorem Books.takeRecord_fences (t r : String) (record : TranscriptRecord) (books : Books)
    (lane : TranscriptLane) : (books.takeRecord t r record lane).1.fences = books.fences := by
  rw [takeRecord]
  dsimp only
  split
  · rfl
  · split
    · split <;> rfl
    · split
      · rfl
      · split <;> rfl

theorem Books.takeRecords_fences (t r : String) (records : List TranscriptRecord)
    (push : Books × TranscriptLane) : (takeRecords t r records push).1.fences = push.1.fences := by
  induction records generalizing push with
  | nil => rfl
  | cons record rest ih => exact (ih _).trans (takeRecord_fences t r record push.1 push.2)

def TranscriptLane.ack (lane : TranscriptLane) (runnerId : String) : TranscriptSegmentAck :=
  ⟨runnerId, lane.mark, lane.applied, lane.alreadyApplied, lane.capped, lane.refused⟩

structure Work where
  chunks : Table ChunkState.chunkId
  questions : Table QuestionState.questionId
  books : Books

namespace Work

variable (work : Work)

def besideHostMarks : Work :=
  { work with books := { work.books with hostFactHighWater := ∅ } }

def fences : Work := { work with books := work.books.fences }

end Work

namespace MockHubService

-- a long method's frame is found from those of all its steps at once
set_option synthInstance.maxSize 2000

def work (hub : MockHubService) : Work := ⟨hub.store.chunks, hub.store.questions, hub.toBooks⟩

def rows (hub : MockHubService) : HubRows × Books := (hub.store.toHubRows, hub.toBooks)

def aroundChunks (hub : MockHubService) : Registry × Table QuestionState.questionId × Books :=
  (hub.store.toRegistry, hub.store.questions, hub.toBooks)

def aroundQuestions (hub : MockHubService) : Registry × Table ChunkState.chunkId × Books :=
  (hub.store.toRegistry, hub.store.chunks, hub.toBooks)

def besideChunks (hub : MockHubService) : Table QuestionState.questionId × Books :=
  (hub.store.questions, hub.toBooks)

def besideQuestions (hub : MockHubService) : Table ChunkState.chunkId × Books :=
  (hub.store.chunks, hub.toBooks)

abbrev chunks (hub : MockHubService) : Table ChunkState.chunkId := hub.store.chunks

abbrev questions (hub : MockHubService) : Table QuestionState.questionId := hub.store.questions

theorem chunks_of_work {s t : MockHubService} (h : s.work = t.work) : s.chunks = t.chunks :=
  congrArg Work.chunks h

theorem chunks_put {s t : MockHubService} (same : s.work = t.work) (chunk : ChunkState) :
    (Method.after (putChunk chunk) s).chunks = t.chunks.put chunk :=
  congrArg (fun w : Work => w.chunks.put chunk) same

theorem found_of_require {s t : MockHubService} {id : String} {chunk : ChunkState}
    (same : s.work = t.work) (h : answer (require id) s = .ok chunk) :
    t.chunks.get? id = some chunk := by
  simp only [require] at h
  obtain ⟨row, hread, raised⟩ := answer_bind_ok h
  cases hread
  rw [← chunks_of_work same]
  exact orRaise_ok.mp raised

/-- No `pinned_graph_missing` lever is armed against a chunk. -/
def Unpinned (hub : MockHubService) (chunkId : String) : Prop :=
  lever hub.levers .pinnedGraphMissing (some chunkId) = none

/-- No `replay` lever is armed against a chunk. -/
def Unreplayed (hub : MockHubService) (chunkId : String) : Prop :=
  lever hub.levers .replay (some chunkId) = none

theorem after_checkPinnedGraph {s : MockHubService} {c : String} (h : s.Unpinned c) :
    Method.after (checkPinnedGraph c) s = s := by
  simp only [checkPinnedGraph]
  rw [after_bind_of_ok _ rfl]
  change Method.after (whenSome _ (lever s.levers .pinnedGraphMissing (some c))) s = s
  rw [h]
  rfl

theorem answer_checkPinnedGraph {s : MockHubService} {c : String} :
    answer (checkPinnedGraph c) s = .ok () ↔ s.Unpinned c := by
  simp only [checkPinnedGraph, Unpinned]
  change answer (whenSome _ (lever s.levers .pinnedGraphMissing (some c))) s = _ ↔ _
  cases lever s.levers .pinnedGraphMissing (some c) with
  | none => exact iff_of_true rfl rfl
  | some armed =>
    apply iff_of_false
    · intro h
      obtain ⟨_, _, raised⟩ := answer_bind_ok h
      cases raised
    · intro h
      cases h

theorem run_readStore {α β : Type} (f : HubRows → α) (g : α → HubM β) (s : MockHubService) :
    (readStore f >>= g).run s = (g (f s.store.toHubRows)).run s := rfl

theorem run_findLever {β : Type} (kind : HubLever) (c : Option String) (g : Option Lever → HubM β)
    (s : MockHubService) : (findLever kind c >>= g).run s = (g (lever s.levers kind c)).run s := rfl

theorem run_checkPinnedGraph {α : Type} {s : MockHubService} {c : String} {g : Unit → HubM α}
    (h : s.Unpinned c) : (checkPinnedGraph c >>= g).run s = (g ()).run s := by
  rw [EStateM.run_bind, run_eq, answer_checkPinnedGraph.mpr h, after_checkPinnedGraph h]

theorem answer_require {s : MockHubService} {id : String} {chunk : ChunkState}
    (h : s.chunks.get? id = some chunk) : answer (require id) s = .ok chunk := by
  simp only [require]
  rw [answer_bind]
  exact orRaise_ok.mpr h

theorem answer_added_some {s : MockHubService} {r : String} {row : RunnerRow}
    (h : s.store.runners.get? r = some row) : answer (added r) s = .ok row :=
  orRaise_ok.mpr h

theorem answer_added_none {s : MockHubService} {r : String} (h : s.store.runners.get? r = none) :
    answer (added r) s = .error (.unknownRunner r) := by
  change answer (orRaise _ (s.store.runners.get? r)) s = _
  rw [h]
  rfl

theorem after_added (s : MockHubService) (r : String) : Method.after (added r) s = s :=
  after_orRaise s _ _

theorem after_advanceFence_none {s : MockHubService} {r : String}
    (h : s.store.runners.get? r = none) (chunk : ChunkState) (epoch : Int) :
    Method.after (advanceFence chunk epoch r) s = Method.after
      (putChunk (chunk.fenced epoch)) s := by
  have raised : answer (added r) (Method.after (putChunk (chunk.fenced epoch)) s) =
      .error (.unknownRunner r) := answer_added_none h
  simp only [advanceFence]
  rw [after_bind_of_ok _ rfl, after_bind_of_error _ raised, after_added]

theorem after_advanceFence_some {s : MockHubService} {r : String} {row : RunnerRow}
    (h : s.store.runners.get? r = some row) (chunk : ChunkState) (epoch : Int) :
    Method.after (advanceFence chunk epoch r) s =
      Method.after (setBooks fun books => { books with
          epochOwners := books.epochOwners.setdefault (row.tenantId, chunk.chunkId, epoch) r })
        (Method.after (putChunk (chunk.fenced epoch)) s) := by
  have present : answer (added r) (Method.after (putChunk (chunk.fenced epoch)) s) = .ok row :=
    answer_added_some h
  simp only [advanceFence]
  rw [after_bind_of_ok _ rfl, after_bind_of_ok _ present, after_added]

section Primitives

variable {α : Type}

instance {γ : Type} {g : MockHubService → γ} (f : HubRows → α) : Keeps g (readStore f) :=
  ⟨fun _ => rfl⟩

instance {γ : Type} {g : MockHubService → γ} (f : Books → α) : Keeps g (readBooks f) :=
  ⟨fun _ => rfl⟩

instance {γ : Type} {g : MockHubService → γ} (f : InMemoryLeverStore → α) :
    Keeps g (readLevers f) :=
  ⟨fun _ => rfl⟩

instance {γ : Type} {g : MockHubService → γ} (kind : HubLever) (c : Option String) :
    Keeps g (findLever kind c) :=
  inferInstanceAs (Keeps g (readLevers _))

instance {γ : Type} {g : MockHubService → γ} (id : String) : Keeps g (require id) := by
  rw [require]; infer_instance

instance {γ : Type} {g : MockHubService → γ} (id : String) : Keeps g (added id) := by
  rw [added]; infer_instance

instance {γ : Type} {g : MockHubService → γ} (id : String) : Keeps g (host id) := by
  rw [host]; infer_instance

instance (f : Registry → Registry) : Keeps work (setRegistry f) := ⟨fun _ => rfl⟩
instance (f : InMemoryLeverStore → InMemoryLeverStore) : Keeps rows (setLevers f) := ⟨fun _ => rfl⟩
instance (f : Sources → α) : Keeps rows (readSources f) := ⟨fun _ => rfl⟩
instance (f : Sources → Sources) : Keeps rows (setSources f) := ⟨fun _ => rfl⟩
instance (r : String) : Keeps rows (reportedFacts r) := ⟨fun _ => rfl⟩
instance (r : String) (f : ReportedRunnerFacts → ReportedRunnerFacts) : Keeps rows (report r f) :=
  ⟨fun _ => rfl⟩

instance (m : HubM α) [h : Keeps rows m] : Keeps work m :=
  h.comp m fun w => Work.mk w.1.chunks w.1.questions w.2

instance (m : HubM α) [h : Keeps rows m] : Keeps aroundChunks m :=
  h.comp m fun w => (w.1.toRegistry, w.1.questions, w.2)

instance (m : HubM α) [h : Keeps rows m] : Keeps aroundQuestions m :=
  h.comp m fun w => (w.1.toRegistry, w.1.chunks, w.2)

instance (m : HubM α) [h : Keeps aroundChunks m] : Keeps besideChunks m := h.comp m Prod.snd

instance (m : HubM α) [h : Keeps aroundQuestions m] : Keeps besideQuestions m := h.comp m Prod.snd

instance (m : HubM α) [h : Keeps work m] : Keeps besideChunks m :=
  h.comp m fun w => (w.questions, w.books)

instance (m : HubM α) [h : Keeps work m] : Keeps besideQuestions m :=
  h.comp m fun w => (w.chunks, w.books)

instance (m : HubM α) [h : Keeps work m] : Keeps chunks m := h.comp m Work.chunks

instance (f : Books → Books) : Keeps chunks (setBooks f) := ⟨fun _ => rfl⟩

theorem chunks_put_bind {s t : MockHubService} (same : s.chunks = t.chunks) (chunk : ChunkState)
    (g : Unit → HubM α) [h : Keeps chunks (g ())] :
    (Method.after (putChunk chunk >>= g) s).chunks = t.chunks.put chunk := by
  rw [after_bind_of_ok _ rfl, h.keeps, ← same]
  rfl

instance (question : QuestionState) : Keeps aroundQuestions (putQuestion question) :=
  ⟨fun _ => rfl⟩

instance (f : Table ChunkState.chunkId → Table ChunkState.chunkId) :
    Keeps aroundChunks (setChunks f) := ⟨fun _ => rfl⟩

instance (chunk : ChunkState) : Keeps aroundChunks (putChunk chunk) :=
  inferInstanceAs (Keeps aroundChunks (setChunks _))

instance (m : HubM α) [h : Keeps besideChunks m] : Keeps questions m := h.comp m Prod.fst

instance (f : Books → Books) : Keeps questions (setBooks f) := ⟨fun _ => rfl⟩

instance (l : Lever) : Keeps rows (consumeLever l) := inferInstanceAs (Keeps rows (setLevers _))

instance : Keeps rows now := by rw [now]; infer_instance
instance : Keeps rows randomTail := by rw [randomTail]; infer_instance
instance : Keeps rows tokenUrlsafe := by rw [tokenUrlsafe]; infer_instance
instance : Keeps rows uuid4Hex := by rw [uuid4Hex]; infer_instance

instance (id : String) : Keeps rows (tenant id) := by rw [tenant]; infer_instance

instance (c : String) : Keeps rows (checkPinnedGraph c) := by rw [checkPinnedGraph]; infer_instance

instance (r action : String) : Keeps rows (refuseRetiredRunner r action) := by
  rw [refuseRetiredRunner]; infer_instance

instance (kind : HubLever) (c r detail : String) :
    Keeps rows (refuseByClaimLever kind c r detail) := by
  rw [refuseByClaimLever]; infer_instance

instance (kind : String) (token : Option String) : Keeps rows (tokenOr kind token) := by
  cases token <;> (rw [tokenOr]; infer_instance)

instance (createdAt : Option String) : Keeps rows (createdAtOr createdAt) := by
  cases createdAt <;> (rw [createdAtOr]; infer_instance)

instance (stamp : Option DateTime) : Keeps rows (instantOr stamp) := by
  cases stamp <;> (rw [instantOr]; infer_instance)

instance (value : Json) : Keeps rows (parseInstant value) := by rw [parseInstant]; infer_instance

instance (id : Option String) : Keeps rows (chunkIdOr id) := by
  cases id <;> (rw [chunkIdOr]; infer_instance)

instance (h t : String) : Keeps rows (addRunnerUnderHost h t) := by
  rw [addRunnerUnderHost]; infer_instance

instance (t : String) (h : Option String) : Keeps rows (standingUnder t h) := by
  cases h <;> (rw [standingUnder]; infer_instance)

instance (r actor : String) : Keeps work (retire r actor) := by rw [retire]; infer_instance

instance (h : String) : Keeps rows (hostRecord h) := by rw [hostRecord]; infer_instance

end Primitives

variable [Platform]

instance (kind : String) : Keeps rows (mint kind) := by rw [mint]; infer_instance

instance (kind : String) (id : Option String) : Keeps rows (mintOr kind id) := by
  cases id <;> (rw [mintOr]; infer_instance)

instance (payload : List (String × Json)) (slug : String) :
    Keeps rows (usageView payload slug) := by
  rw [usageView]; infer_instance

instance (payload : List (String × Json)) (slug : String) :
    Keeps rows (usageMiss payload slug) := by
  rw [usageMiss]; infer_instance

instance (r p : Option String) : Keeps rows (peekProject r p) := by
  cases r <;> cases p <;> (unfold peekProject; infer_instance)

instance (c : String) : Keeps rows (consultChunkUnknown c) := by
  rw [consultChunkUnknown]; infer_instance

instance (c : String) (holder : Option String) : Keeps rows (reportedHolder c holder) := by
  rw [reportedHolder]; infer_instance

instance (c r : String) : Keeps rows (requireRunnerChunk c r) := by
  rw [requireRunnerChunk]; infer_instance

instance (c : String) (chunk : ChunkState) : Keeps rows (statusOfChunk c chunk) := by
  apply Keeps.andThen inferInstance
  intro unknown
  cases unknown <;> infer_instance

instance (r c : String) : Keeps rows (chunkStatus r c) := by
  apply Keeps.andThen inferInstance
  intro held
  cases held <;> infer_instance

instance (r : String) : Keeps rows (runnerView r) := by
  apply Keeps.andThen inferInstance
  intro row
  cases row <;> infer_instance

instance (r : String) : Keeps work (heartbeat r) := by
  apply Keeps.andThen inferInstance
  intro row
  cases row <;> infer_instance

instance (t : Option String) : Keeps rows (tenantNamed t) := by
  simp only [tenantNamed]
  cases given t with
  | some id => infer_instance
  | none =>
    apply Keeps.andThen inferInstance
    intro rows
    split <;> infer_instance

instance (t : Option String) : Keeps rows (identity t) := by
  cases t <;> (rw [identity]; infer_instance)

instance (t : Option String) : Keeps rows (principal t) := by
  cases t <;> (rw [principal]; infer_instance)

instance (t : Option String) : Keeps rows (hostPrincipal t) := by
  cases t <;> (rw [hostPrincipal]; infer_instance)

theorem keeps_rows_read (op : ReadOp) : Keeps rows op.run := by
  cases op <;> dsimp only [ReadOp.run, ReadOp.Answer, peek, peekMatched, fleetSummary,
    refuseForeignRunnerChunk,
    chunkDetail, chunkStatuses, envelope, workItems, questionView, leaseTranscriptOwner,
    leaseTranscript, bootstrapCredential, refuseForeignTenant, refuseForeignHostTenant, me,
    systemArtifacts, systemArtifact, scopes, popDropAck] <;> infer_instance

theorem keeps_work_read (op : ReadOp) : Keeps work op.run :=
  have := keeps_rows_read op
  inferInstance

instance (slug name t : String) (p : Option String) : Keeps work (seedProject slug name t p) := by
  rw [seedProject]; infer_instance

instance (name t : String) (r token : Option String) (ps : Option (List String))
    (h : Option String) : Keeps work (addRunner name t r token ps h) := by
  rw [addRunner]; infer_instance

instance (runners : List RunnerRow) : Keeps rows (refuseAdoptionConflict runners) := by
  rw [refuseAdoptionConflict]; infer_instance

instance (name t : String) (adopting : List String) :
    Keeps rows (hostAdmission name t adopting) := by
  rw [hostAdmission]; infer_instance

theorem keeps_work_registry (op : RegistryOp) : Keeps work op.run := by
  cases op <;> dsimp only [RegistryOp.run, RegistryOp.Answer, seedTenant, renameTenant,
    setRunnerProjects, enroll,
    revokeToken, addHost, reportHost, addHostRunner, register, refuseVersion, setPaused,
    seedSystemArtifact, seedScope] <;> infer_instance

instance (spec : ChunkSpec) : Keeps aroundChunks (seedChunk spec) := by
  rw [seedChunk]; infer_instance

instance (chunk : ChunkState) (c r : String) : Keeps rows (refuseClaimant chunk c r) := by
  rw [refuseClaimant]; infer_instance

instance (c r w : String) (es : List String) : Keeps aroundChunks (claim c r w es) := by
  rw [claim]; infer_instance

instance (c r : String) : Keeps aroundChunks (rekeyRouteToken c r) := by
  rw [rekeyRouteToken]; infer_instance

instance (c r : String) (e : Int) (reason : String) (token : Option String) :
    Keeps aroundChunks (release c r e reason token) := by
  rw [release]; infer_instance

instance (c : String) : Keeps aroundChunks (pauseChunk c) := by rw [pauseChunk]; infer_instance
instance (c : String) : Keeps aroundChunks (resumeChunk c) := by rw [resumeChunk]; infer_instance
instance (c : String) : Keeps aroundChunks (hubAdvance c) := by rw [hubAdvance]; infer_instance
instance (c : String) : Keeps aroundChunks (stopChunk c) := by rw [stopChunk]; infer_instance

instance (chunk : ChunkState) (openIds : List String) (e : Int) (n choice : String) :
    Keeps aroundChunks (judgeCompletion chunk openIds e n choice) := by
  simp only [judgeCompletion]
  split
  · infer_instance
  · split <;> infer_instance

instance (c : String) (e : Int) (n choice : String) :
    Keeps aroundChunks (applyCompletion c e n choice) := by
  simp only [applyCompletion]
  apply Keeps.andThen inferInstance
  intro chunk
  apply Keeps.andThen inferInstance
  intro _
  apply Keeps.andThen inferInstance
  intro replay
  apply Keeps.andThen inferInstance
  intro openIds
  split <;> infer_instance

instance (c : String) (e : Int) (n : String) : Keeps aroundChunks (applyDecision c e n) := by
  simp only [applyDecision]
  apply Keeps.andThen inferInstance
  intro chunk
  apply Keeps.andThen inferInstance
  intro _
  apply Keeps.andThen inferInstance
  intro openIds
  split <;> infer_instance

instance (h r actor : String) (force : Bool) :
    Keeps besideChunks (retireHostRunner h r actor force) := by
  rw [retireHostRunner]; infer_instance

instance (r : String) (payload : List (String × Json)) :
    Keeps questions (applyLeaseMinted r payload) := by
  unfold applyLeaseMinted advanceFence; infer_instance

instance (payload : List (String × Json)) :
    Keeps aroundChunks (applyEscalationRecorded payload) := by
  simp only [applyEscalationRecorded]
  apply Keeps.andThen inferInstance
  intro held
  cases held <;> infer_instance

instance (r : String) (payload : List (String × Json)) :
    Keeps aroundQuestions (applyQuestionAsked r payload) := by
  rw [applyQuestionAsked]; infer_instance

instance (payload : List (String × Json)) :
    Keeps aroundQuestions (applyAnswerDelivered payload) := by
  simp only [applyAnswerDelivered]
  apply Keeps.andThen inferInstance
  intro question
  cases question <;> infer_instance

instance (r : String) (payload : List (String × Json)) :
    Keeps rows (applyLocallyPaused r payload) := by
  rw [applyLocallyPaused]; infer_instance

instance (r : String) : Keeps rows (applyLocallyResumed r) := by
  rw [applyLocallyResumed]; infer_instance

instance (r : String) (payload : List (String × Json)) :
    Keeps rows (applyUsageSampled r payload) := by
  simp only [applyUsageSampled]
  cases slugOf payload <;> infer_instance

instance (r : String) (payload : List (String × Json)) :
    Keeps rows (applyUsageMissed r payload) := by
  simp only [applyUsageMissed]
  cases slugOf payload <;> infer_instance

theorem applyFact_cases {P : HubM Bool → Prop} (r kind : String) (payload : List (String × Json))
    (minted : kind = leaseMinted → P (applyLeaseMinted r payload))
    (escalated : kind = escalationRecorded → P (applyEscalationRecorded payload))
    (asked : kind = questionAsked → P (applyQuestionAsked r payload))
    (delivered : kind = answerDelivered → P (applyAnswerDelivered payload))
    (beside : ∀ m : HubM Bool, Keeps work m → P m) :
    P (applyFact r kind payload) := by
  simp only [applyFact]
  split
  case isTrue h => exact minted h
  split
  case isTrue h => exact escalated h
  split
  case isTrue h => exact asked h
  split
  case isTrue h => exact delivered h
  apply beside
  infer_instance

instance (q a actor : String) : Keeps aroundQuestions (answerQuestion q a actor) := by
  rw [answerQuestion]; infer_instance

instance {α : Type} (m : HubM α) [h : Keeps work m] :
    Keeps (fun hub => hub.work.besideHostMarks) m :=
  h.comp m Work.besideHostMarks

instance (h kind : String) (payload : List (String × Json)) :
    Keeps work (applyHostFact h kind payload) := by
  simp only [applyHostFact]
  cases slugOf payload with
  | none => infer_instance
  | some slug =>
    dsimp only
    split
    · infer_instance
    · split
      · split <;> infer_instance
      · infer_instance

instance (h : String) (facts : List Fact) :
    Keeps (fun hub => hub.work.besideHostMarks) (ingestHostFacts h facts) := by
  simp only [ingestHostFacts]
  have (fact : Fact) : Keeps work ((hostFactLane h).judge fact) :=
    inferInstanceAs (Keeps work (applyHostFact h fact.kind fact.payload))
  apply Keeps.andThen inferInstance
  intro _
  apply Keeps.andThen inferInstance
  intro mark
  apply Keeps.andThen inferInstance
  intro lane
  apply Keeps.andThen ⟨fun _ => rfl⟩
  intro _
  infer_instance

instance {α : Type} (m : HubM α) [h : Keeps work m] : Keeps (fun hub => hub.work.fences) m :=
  h.comp m Work.fences

instance (r : String) (records : List TranscriptRecord) :
    Keeps (fun hub => hub.work.fences) (ingestTranscripts r records) where
  keeps s := by
    simp only [ingestTranscripts]
    apply after_bind_of_keeps (f := fun hub : MockHubService => hub.work.fences)
      (P := fun t : MockHubService => t.work.fences = s.work.fences) rfl
    · intro t h
      exact h
    · intro row t _ h
      rw [← h]
      exact congrArg (fun books => { t.work with books := books })
        (Books.takeRecords_fences row.tenantId r (sortedRecords records) _)

abbrev transcriptPush (hub : MockHubService) (t r : String) (records : List TranscriptRecord) :
    Books × TranscriptLane :=
  Books.takeRecords t r (sortedRecords records)
    (hub.toBooks, { mark := hub.transcriptHighWater.getD r 0 })

omit [Platform] in
theorem after_ingestTranscripts_none {s : MockHubService} {r : String}
    (h : s.store.runners.get? r = none) (records : List TranscriptRecord) :
    Method.after (ingestTranscripts r records) s = s := by
  simp only [ingestTranscripts]
  rw [after_bind_of_error _ (answer_added_none h), after_added]

omit [Platform] in
theorem run_ingestTranscripts {s : MockHubService} {r : String} {row : RunnerRow}
    (h : s.store.runners.get? r = some row) (records : List TranscriptRecord) :
    let push := s.transcriptPush row.tenantId r records
    (ingestTranscripts r records).run s =
      .ok (push.2.ack r)
        { s with toBooks := { push.1 with
          transcriptHighWater := push.1.transcriptHighWater.set r push.2.mark } } := by
  simp only [ingestTranscripts]
  rw [run_bind_of_read (answer_added_some h)]
  rfl

def LeavesLanes : Op → Prop
  | .ingestFacts .. | .ingestHostFacts .. | .ingestTranscripts .. | .answerQuestion .. | .reset =>
    False
  | _ => True

theorem keeps_besideChunks (op : Op) (h : LeavesLanes op) : Keeps besideChunks op.run := by
  cases op with
  | registry op =>
    have := keeps_work_registry op
    exact inferInstanceAs (Keeps besideChunks op.run)
  | read op =>
    have := keeps_rows_read op
    exact inferInstanceAs (Keeps besideChunks op.run)
  | ingestFacts => exact h.elim
  | ingestHostFacts => exact h.elim
  | ingestTranscripts => exact h.elim
  | answerQuestion => exact h.elim
  | reset => exact h.elim
  | _ =>
    dsimp only [Op.run, Op.Answer]
    infer_instance

end MockHubService

end BlizzardMock.MockHub
