import BlizzardMock.Data.LaneLaws
import BlizzardMock.MockHub.Operations

namespace BlizzardMock.MockHub

open Method

namespace MockHubService

-- a long method's frame is found from those of all its steps at once
set_option synthInstance.maxSize 2000

structure Untouched (s t : MockHubService) : Prop where
  hosts : t.store.hosts = s.store.hosts
  reported : ∀ r, t.store.reported.getD r {} = s.store.reported.getD r {}
  clock : ∃ n, t.sources.clock = s.sources.clock.drop n

instance : IsPreorder MockHubService Untouched where
  refl _ := ⟨rfl, fun _ => rfl, 0, rfl⟩
  trans s _ _ first second := by
    obtain ⟨n, first_clock⟩ := first.clock
    obtain ⟨m, second_clock⟩ := second.clock
    refine ⟨second.hosts.trans first.hosts, fun r =>
      (second.reported r).trans (first.reported r), n + m, ?_⟩
    rw [second_clock, first_clock, Stream'.drop_drop]

section Primitives

variable {α : Type}

instance (f : HubRows → α) : Follows Untouched (readStore f) :=
  inferInstanceAs (Follows Untouched (read _))
instance (f : Books → α) : Follows Untouched (readBooks f) :=
  inferInstanceAs (Follows Untouched (read _))
instance (f : InMemoryLeverStore → α) : Follows Untouched (readLevers f) :=
  inferInstanceAs (Follows Untouched (read _))
instance (f : Sources → α) : Follows Untouched (readSources f) :=
  inferInstanceAs (Follows Untouched (read _))

theorem untouched_write {f : MockHubService → MockHubService} (h : ∀ s, Untouched s (f s)) :
    Follows Untouched (write f : HubM PUnit) := ⟨h⟩

instance (f : Books → Books) : Follows Untouched (setBooks f) :=
  untouched_write fun _ => ⟨rfl, fun _ => rfl, 0, rfl⟩

instance (f : InMemoryLeverStore → InMemoryLeverStore) : Follows Untouched (setLevers f) :=
  untouched_write fun _ => ⟨rfl, fun _ => rfl, 0, rfl⟩

instance (f : Table ChunkState.chunkId → Table ChunkState.chunkId) :
    Follows Untouched (setChunks f) :=
  untouched_write fun _ => ⟨rfl, fun _ => rfl, 0, rfl⟩

instance (question : QuestionState) : Follows Untouched (putQuestion question) :=
  untouched_write fun _ => ⟨rfl, fun _ => rfl, 0, rfl⟩

theorem untouched_setRegistry {f : Registry → Registry}
    (h : ∀ store, (f store).hosts = store.hosts) :
    Follows Untouched (setRegistry f) :=
  untouched_write fun s => ⟨h s.store.toRegistry, fun _ => rfl, 0, rfl⟩

instance (row : RunnerRow) : Follows Untouched (setRegistry (·.putRunner row)) :=
  untouched_setRegistry fun _ => rfl

instance (row : RunnerRow) (token : String) :
    Follows Untouched (setRegistry (·.addRunner row token)) :=
  untouched_setRegistry fun _ => rfl

instance (r : String) : Follows Untouched (reportedFacts r) := by
  apply Follows.andThen
  · refine untouched_write fun s => ⟨rfl, fun r' => ?_, 0, rfl⟩
    exact Dict.getD_setdefault s.store.reported r r' {}
  · intro _
    infer_instance

instance : Follows Untouched now := ⟨fun _ => ⟨rfl, fun _ => rfl, 1, rfl⟩⟩
instance : Follows Untouched randomTail := ⟨fun _ => ⟨rfl, fun _ => rfl, 0, rfl⟩⟩
instance : Follows Untouched tokenUrlsafe := ⟨fun _ => ⟨rfl, fun _ => rfl, 0, rfl⟩⟩
instance : Follows Untouched uuid4Hex := ⟨fun _ => ⟨rfl, fun _ => rfl, 0, rfl⟩⟩
instance (id : String) : Follows Untouched (added id) := by simp only [added]; infer_instance

end Primitives

section Parts

instance (kind : HubLever) (c : Option String) : Follows Untouched (findLever kind c) :=
  inferInstanceAs (Follows Untouched (readLevers _))

instance (l : Lever) : Follows Untouched (consumeLever l) :=
  inferInstanceAs (Follows Untouched (setLevers _))

instance (chunk : ChunkState) : Follows Untouched (putChunk chunk) :=
  inferInstanceAs (Follows Untouched (setChunks _))

instance (id : String) : Follows Untouched (require id) := by simp only [require]; infer_instance
instance (id : String) : Follows Untouched (host id) := by simp only [host]; infer_instance
instance (id : String) : Follows Untouched (tenant id) := by simp only [tenant]; infer_instance

instance (row : TenantRow) : Follows Untouched (setRegistry (·.putTenant row)) :=
  untouched_setRegistry fun _ => rfl

instance (row : ProjectRow) : Follows Untouched (setRegistry (·.putProject row)) :=
  untouched_setRegistry fun _ => rfl

instance (row : ScopeRow) : Follows Untouched (setRegistry (·.putScope row)) :=
  untouched_setRegistry fun _ => rfl

instance (name content : String) :
    Follows Untouched (setRegistry (·.putSystemArtifact name content)) :=
  untouched_setRegistry fun _ => rfl

instance (r : String) (token : Option String) :
    Follows Untouched (setRegistry (·.replaceToken r token)) :=
  untouched_setRegistry fun _ => rfl

instance (c : String) : Follows Untouched (checkPinnedGraph c) := by
  simp only [checkPinnedGraph]; infer_instance

instance (r action : String) : Follows Untouched (refuseRetiredRunner r action) := by
  simp only [refuseRetiredRunner]; infer_instance

instance (kind : HubLever) (c r detail : String) :
    Follows Untouched (refuseByClaimLever kind c r detail) := by
  simp only [refuseByClaimLever]; infer_instance

instance (kind : String) (token : Option String) : Follows Untouched (tokenOr kind token) := by
  cases token <;> (simp only [tokenOr]; infer_instance)

instance (createdAt : Option String) : Follows Untouched (createdAtOr createdAt) := by
  cases createdAt <;> (simp only [createdAtOr]; infer_instance)

instance (stamp : Option DateTime) : Follows Untouched (instantOr stamp) := by
  cases stamp <;> (simp only [instantOr]; infer_instance)

instance (value : Json) : Follows Untouched (parseInstant value) := by
  simp only [parseInstant]; infer_instance

instance (id : Option String) : Follows Untouched (chunkIdOr id) := by
  cases id <;> (simp only [chunkIdOr]; infer_instance)

instance (h t : String) : Follows Untouched (addRunnerUnderHost h t) := by
  simp only [addRunnerUnderHost]; infer_instance

instance (t : String) (h : Option String) : Follows Untouched (standingUnder t h) := by
  cases h <;> (simp only [standingUnder]; infer_instance)

instance (r actor : String) : Follows Untouched (retire r actor) := by
  simp only [retire]; infer_instance

instance (h : String) :
    Follows Untouched (hostRecord h) := by simp only [hostRecord]; infer_instance

end Parts

variable [Platform]

instance (kind : String) : Follows Untouched (mint kind) := by simp only [mint]; infer_instance

instance (kind : String) (id : Option String) : Follows Untouched (mintOr kind id) := by
  cases id <;> (simp only [mintOr]; infer_instance)

instance (payload : List (String × Json)) (slug : String) :
    Follows Untouched (usageView payload slug) := by
  simp only [usageView]; infer_instance

instance (payload : List (String × Json)) (slug : String) :
    Follows Untouched (usageMiss payload slug) := by
  simp only [usageMiss]; infer_instance

section Reads

instance (r p : Option String) : Follows Untouched (peekProject r p) := by
  cases r <;> cases p <;> (simp only [peekProject]; infer_instance)

instance (c : String) : Follows Untouched (consultChunkUnknown c) := by
  simp only [consultChunkUnknown]; infer_instance

instance (c : String) (holder : Option String) : Follows Untouched (reportedHolder c holder) := by
  simp only [reportedHolder]; infer_instance

instance (c r : String) : Follows Untouched (requireRunnerChunk c r) := by
  simp only [requireRunnerChunk]; infer_instance

instance (c : String) (chunk : ChunkState) : Follows Untouched (statusOfChunk c chunk) := by
  apply Follows.andThen inferInstance
  intro unknown
  cases unknown <;> infer_instance

instance (r c : String) : Follows Untouched (chunkStatus r c) := by
  apply Follows.andThen inferInstance
  intro held
  cases held <;> infer_instance

instance (r : String) : Follows Untouched (runnerView r) := by
  apply Follows.andThen inferInstance
  intro row
  cases row <;> infer_instance

instance (t : Option String) : Follows Untouched (tenantNamed t) := by
  simp only [tenantNamed]
  cases given t with
  | some id => infer_instance
  | none =>
    apply Follows.andThen inferInstance
    intro rows
    split <;> infer_instance

instance (t : Option String) : Follows Untouched (identity t) := by
  cases t <;> (simp only [identity]; infer_instance)

instance (t : Option String) : Follows Untouched (principal t) := by
  cases t <;> (simp only [principal]; infer_instance)

instance (t : Option String) : Follows Untouched (hostPrincipal t) := by
  cases t <;> (simp only [hostPrincipal]; infer_instance)

theorem untouched_read_op (op : ReadOp) : Follows Untouched op.run := by
  cases op <;> dsimp only [ReadOp.run, ReadOp.Answer, peek, peekMatched, fleetSummary,
    refuseForeignRunnerChunk, chunkDetail, chunkStatuses, envelope, workItems, questionView,
    leaseTranscriptOwner, leaseTranscript, bootstrapCredential, refuseForeignTenant,
    refuseForeignHostTenant, me, systemArtifacts, systemArtifact, scopes,
      popDropAck] <;> infer_instance

end Reads

section Registry

instance (slug name t : String) (p : Option String) :
    Follows Untouched (seedProject slug name t p) := by
  simp only [seedProject]; infer_instance

instance (r : String) : Follows Untouched (heartbeat r) := by
  apply Follows.andThen inferInstance
  intro row
  cases row <;> infer_instance

instance (r : String) (paused : Bool) : Follows Untouched (setPaused r paused) := by
  simp only [setPaused]; infer_instance

instance (r : String) (entries : List String) :
    Follows Untouched (setRunnerProjects r entries) := by
  simp only [setRunnerProjects]; infer_instance

instance (r : String) (version : Option String) : Follows Untouched (refuseVersion r version) := by
  simp only [refuseVersion]; infer_instance

instance (r : String) (reg : Registration) : Follows Untouched (register r reg) := by
  simp only [register]; infer_instance

instance (runners : List RunnerRow) : Follows Untouched (refuseAdoptionConflict runners) := by
  simp only [refuseAdoptionConflict]; infer_instance

instance (name t : String) (r token : Option String) (ps : Option (List String))
    (h : Option String) :
    Follows Untouched (addRunner name t r token ps h) := by
  simp only [addRunner]; infer_instance

omit [Platform] in
theorem adopt_hosts (store : Registry) (hostId : String) (runners : List RunnerRow) :
    (adopt store hostId runners).hosts = store.hosts := by
  induction runners generalizing store with
  | nil => rfl
  | cons row rest ih => exact ih _

instance (hostId : String) (runners : List RunnerRow) :
    Follows Untouched (setRegistry (adopt · hostId runners)) :=
  untouched_setRegistry (adopt_hosts · hostId runners)

instance (name t : String) (adopting : List String) :
    Follows Untouched (hostAdmission name t adopting) := by
  simp only [hostAdmission]; infer_instance

def LeavesHosts : RegistryOp → Prop
  | .addHost .. | .reportHost .. => False
  | _ => True

theorem untouched_registry_op (op : RegistryOp) (h : LeavesHosts op) :
    Follows Untouched op.run := by
  cases op with
  | addHost => exact h.elim
  | reportHost => exact h.elim
  | _ =>
    dsimp only [RegistryOp.run, RegistryOp.Answer, seedTenant, renameTenant, enroll, revokeToken,
      addHostRunner, seedSystemArtifact, seedScope]
    infer_instance

end Registry

section Chunks

instance (spec : ChunkSpec) :
    Follows Untouched (seedChunk spec) := by simp only [seedChunk]; infer_instance

instance (chunk : ChunkState) (c r : String) : Follows Untouched (refuseClaimant chunk c r) := by
  simp only [refuseClaimant]; infer_instance

instance (c r w : String) (es : List String) : Follows Untouched (claim c r w es) := by
  simp only [claim]; infer_instance

instance (c r : String) : Follows Untouched (rekeyRouteToken c r) := by
  simp only [rekeyRouteToken]; infer_instance

instance (c r : String) (e : Int) (reason : String) (token : Option String) :
    Follows Untouched (release c r e reason token) := by
  simp only [release]; infer_instance

instance (c : String) :
    Follows Untouched (pauseChunk c) := by simp only [pauseChunk]; infer_instance
instance (c : String) :
    Follows Untouched (resumeChunk c) := by simp only [resumeChunk]; infer_instance
instance (c : String) :
    Follows Untouched (hubAdvance c) := by simp only [hubAdvance]; infer_instance
instance (c : String) : Follows Untouched (stopChunk c) := by simp only [stopChunk]; infer_instance

instance (chunk : ChunkState) (openIds : List String) (e : Int) (n choice : String) :
    Follows Untouched (judgeCompletion chunk openIds e n choice) := by
  simp only [judgeCompletion]
  split
  · infer_instance
  · split <;> infer_instance

instance (c : String) (e : Int) (n choice : String) :
    Follows Untouched (applyCompletion c e n choice) := by
  apply Follows.andThen inferInstance
  intro chunk
  apply Follows.andThen inferInstance
  intro _
  apply Follows.andThen inferInstance
  intro replay
  apply Follows.andThen inferInstance
  intro openIds
  split <;> infer_instance

instance (c : String) (e : Int) (n : String) : Follows Untouched (applyDecision c e n) := by
  apply Follows.andThen inferInstance
  intro chunk
  apply Follows.andThen inferInstance
  intro _
  apply Follows.andThen inferInstance
  intro openIds
  split <;> infer_instance

instance (h r actor : String) (force : Bool) :
    Follows Untouched (retireHostRunner h r actor force) := by
  simp only [retireHostRunner]; infer_instance

instance (q a actor : String) : Follows Untouched (answerQuestion q a actor) := by
  simp only [answerQuestion]; infer_instance

end Chunks

section Lanes

instance (r : String) (payload : List (String × Json)) :
    Follows Untouched (applyLeaseMinted r payload) := by
  simp only [applyLeaseMinted, advanceFence]; infer_instance

instance (payload : List (String × Json)) :
    Follows Untouched (applyEscalationRecorded payload) := by
  apply Follows.andThen inferInstance
  intro held
  cases held <;> infer_instance

instance (r : String) (payload : List (String × Json)) :
    Follows Untouched (applyQuestionAsked r payload) := by
  simp only [applyQuestionAsked]; infer_instance

instance (payload : List (String × Json)) : Follows Untouched (applyAnswerDelivered payload) := by
  apply Follows.andThen inferInstance
  intro question
  cases question <;> infer_instance

instance (r : String) (records : List TranscriptRecord) :
    Follows Untouched (ingestTranscripts r records) := by
  simp only [ingestTranscripts]; infer_instance

end Lanes

def LeavesReports : Op → Prop
  | .ingestFacts .. | .ingestHostFacts .. | .reset => False
  | .registry op => LeavesHosts op
  | _ => True

theorem untouched_op (op : Op) (h : LeavesReports op) : Follows Untouched op.run := by
  cases op with
  | ingestFacts => exact h.elim
  | ingestHostFacts => exact h.elim
  | reset => exact h.elim
  | registry op => exact untouched_registry_op op h
  | read op => exact untouched_read_op op
  | _ =>
    dsimp only [Op.run, Op.Answer]
    infer_instance

end MockHubService

end BlizzardMock.MockHub
