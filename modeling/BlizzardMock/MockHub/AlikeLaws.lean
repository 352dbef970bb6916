import BlizzardMock.MockHub.LeaseLaws
import BlizzardMock.MockHub.RosterLaws

/-! Hubs that differ only in facts nobody can read: they answer every call alike. -/

namespace BlizzardMock.MockHub

open Method

namespace MockHubService

-- a long method's congruence is found from those of all its steps at once
set_option synthInstance.maxSize 2000

/-- All of two hubs is the same, what runners reported aside, and that agrees for every id a runner
can be added under; no runner stands under the empty one. -/
structure Alike (s t : MockHubService) : Prop where
  rows : s.store.toHubRows = t.store.toHubRows
  books : s.toBooks = t.toBooks
  levers : s.levers = t.levers
  sources : s.sources = t.sources
  reported : ∀ r, r ≠ "" → s.store.reported.getD r {} = t.store.reported.getD r {}
  named : s.store.runners.get? "" = none

section Primitives

variable {α : Type}

instance (f : HubRows → α) : Respects Alike (readStore f) :=
  respects_read fun _ _ h => congrArg f h.rows

instance (f : Books → α) : Respects Alike (readBooks f) :=
  respects_read fun _ _ h => congrArg f h.books

instance (f : InMemoryLeverStore → α) : Respects Alike (readLevers f) :=
  respects_read fun _ _ h => congrArg f h.levers

instance (f : Sources → α) : Respects Alike (readSources f) :=
  respects_read fun _ _ h => congrArg f h.sources

instance (f : Books → Books) : Respects Alike (setBooks f) :=
  respects_write fun _ _ h => { h with books := congrArg f h.books }

instance (f : InMemoryLeverStore → InMemoryLeverStore) : Respects Alike (setLevers f) :=
  respects_write fun _ _ h => { h with levers := congrArg f h.levers }

instance (f : Sources → Sources) : Respects Alike (setSources f) :=
  respects_write fun _ _ h => { h with sources := congrArg f h.sources }

instance (f : Table ChunkState.chunkId → Table ChunkState.chunkId) : Respects Alike (setChunks f) :=
  respects_write fun _ _ h => { h with
    rows := congrArg (fun rows => { rows with chunks := f rows.chunks }) h.rows }

instance (question : QuestionState) : Respects Alike (putQuestion question) :=
  respects_write fun _ _ h => { h with
    rows := congrArg (fun rows => { rows with questions := rows.questions.put question }) h.rows }

theorem respects_setRegistry {f : Registry → Registry}
    (named : ∀ store : Registry, store.runners.get? "" = none → (f store).runners.get? "" = none) :
    Respects Alike (setRegistry f) :=
  respects_write fun s _ h => { h with
    rows := congrArg (fun rows => { rows with toRegistry := f rows.toRegistry }) h.rows
    named := named s.store.toRegistry h.named }

theorem respects_putRunner {row : RunnerRow} (id : row.runnerId ≠ "") :
    Respects Alike (setRegistry (·.putRunner row)) :=
  respects_setRegistry fun store named => by
    rw [← named]
    exact Table.get?_put_of_ne id.symm store.runners

instance (r : String) (f : ReportedRunnerFacts → ReportedRunnerFacts) :
    Respects Alike (report r f) where
  respects s t h := by
    refine ⟨rfl, { h with reported := fun r' id => ?_ }⟩
    change ((s.store.reported.setdefault r {}).set r
        (f ((s.store.reported.setdefault r {}).getD r {}))).getD r' {} =
      ((t.store.reported.setdefault r {}).set r
        (f ((t.store.reported.setdefault r {}).getD r {}))).getD r' {}
    rw [Dict.getD_setdefault, Dict.getD_setdefault]
    by_cases here : r' = r
    · rw [← here, Dict.getD_set_self, Dict.getD_set_self, h.reported r' id]
    · rw [Dict.getD_set_of_ne here, Dict.getD_set_of_ne here, Dict.getD_setdefault,
        Dict.getD_setdefault, h.reported r' id]

theorem respects_reportedFacts {r : String} (id : r ≠ "") : Respects Alike (reportedFacts r) where
  respects s t h := by
    have same := h.reported r id
    constructor
    · change Except.ok ((s.store.reported.setdefault r {}).getD r {}) =
        .ok ((t.store.reported.setdefault r {}).getD r {})
      rw [Dict.getD_setdefault, Dict.getD_setdefault, same]
    · refine { h with reported := fun r' id => ?_ }
      change (s.store.reported.setdefault r {}).getD r' {} =
        (t.store.reported.setdefault r {}).getD r' {}
      rw [Dict.getD_setdefault, Dict.getD_setdefault, h.reported r' id]

section Runners

variable {s t : MockHubService} {r : String}

theorem Alike.runners (h : Alike s t) : s.store.runners.get? r = t.store.runners.get? r :=
  congrArg (fun rows : HubRows => rows.runners.get? r) h.rows

theorem Alike.runnerId_ne (h : Alike s t) {row : RunnerRow}
    (found : s.store.runners.get? r = some row) :
    row.runnerId ≠ "" := by
  intro empty
  rw [← Table.key_of_get? found, empty, h.named] at found
  cases found

theorem respects_runner {g : Option RunnerRow → HubM α} (none : Respects Alike (g none))
    (some : ∀ row, row.runnerId ≠ "" → row.runnerId = r → Respects Alike (g (some row))) :
    Respects Alike (readStore (·.runners.get? r) >>= g) where
  respects s t h := by
    change answer (g (s.store.runners.get? r)) s = answer (g (t.store.runners.get? r)) t ∧
      Alike (Method.after (g (s.store.runners.get? r)) s)
        (Method.after (g (t.store.runners.get? r)) t)
    rw [← h.runners]
    cases found : s.store.runners.get? r with
    | none => exact none.respects s t h
    | some row => exact (some row (h.runnerId_ne found) (Table.key_of_get? found)).respects s t h

instance : Respects Alike (added r) := by
  simp only [added]
  infer_instance

theorem respects_added {g : RunnerRow → HubM α}
    (some : ∀ row, row.runnerId ≠ "" → row.runnerId = r → Respects Alike (g row)) :
    Respects Alike (added r >>= g) where
  respects s t h := by
    have same := h.runners (r := r)
    cases found : s.store.runners.get? r with
    | none =>
      rw [found] at same
      rw [answer_bind, answer_bind, after_bind, after_bind, answer_added_none found,
        answer_added_none same.symm, after_added, after_added]
      exact ⟨rfl, h⟩
    | some row =>
      rw [found] at same
      rw [answer_bind, answer_bind, after_bind, after_bind, answer_added_some found,
        answer_added_some same.symm, after_added, after_added]
      exact (some row (h.runnerId_ne found) (Table.key_of_get? found)).respects s t h

end Runners

end Primitives

section Parts

instance (kind : HubLever) (c : Option String) : Respects Alike (findLever kind c) :=
  inferInstanceAs (Respects Alike (readLevers _))

instance (l : Lever) : Respects Alike (consumeLever l) :=
  inferInstanceAs (Respects Alike (setLevers _))

instance (chunk : ChunkState) : Respects Alike (putChunk chunk) :=
  inferInstanceAs (Respects Alike (setChunks _))

instance (id : String) : Respects Alike (require id) := by simp only [require]; infer_instance
instance (id : String) : Respects Alike (host id) := by simp only [host]; infer_instance
instance (id : String) : Respects Alike (tenant id) := by simp only [tenant]; infer_instance
instance : Respects Alike now := by simp only [now]; infer_instance
instance : Respects Alike randomTail := by simp only [randomTail]; infer_instance
instance : Respects Alike tokenUrlsafe := by simp only [tokenUrlsafe]; infer_instance
instance : Respects Alike uuid4Hex := by simp only [uuid4Hex]; infer_instance

instance (row : HostRow) : Respects Alike (setRegistry (·.putHost row)) :=
  respects_setRegistry fun _ => id

instance (row : TenantRow) : Respects Alike (setRegistry (·.putTenant row)) :=
  respects_setRegistry fun _ => id

instance (row : ProjectRow) : Respects Alike (setRegistry (·.putProject row)) :=
  respects_setRegistry fun _ => id

instance (row : ScopeRow) : Respects Alike (setRegistry (·.putScope row)) :=
  respects_setRegistry fun _ => id

instance (name content : String) :
    Respects Alike (setRegistry (·.putSystemArtifact name content)) :=
  respects_setRegistry fun _ => id

instance (r : String) (token : Option String) :
    Respects Alike (setRegistry (·.replaceToken r token)) :=
  respects_setRegistry fun _ => id

instance (row : HostRow) (token : String) : Respects Alike (setRegistry (·.addHost row token)) :=
  respects_setRegistry fun _ => id

instance (c : String) : Respects Alike (checkPinnedGraph c) := by
  simp only [checkPinnedGraph]; infer_instance

instance (r action : String) : Respects Alike (refuseRetiredRunner r action) := by
  simp only [refuseRetiredRunner]; infer_instance

instance (kind : HubLever) (c r detail : String) :
    Respects Alike (refuseByClaimLever kind c r detail) := by
  simp only [refuseByClaimLever]; infer_instance

instance (kind : String) (token : Option String) : Respects Alike (tokenOr kind token) := by
  cases token <;> (simp only [tokenOr]; infer_instance)

instance (createdAt : Option String) : Respects Alike (createdAtOr createdAt) := by
  cases createdAt <;> (simp only [createdAtOr]; infer_instance)

instance (stamp : Option DateTime) : Respects Alike (instantOr stamp) := by
  cases stamp <;> (simp only [instantOr]; infer_instance)

instance (value : Json) : Respects Alike (parseInstant value) := by
  simp only [parseInstant]; infer_instance

instance (id : Option String) : Respects Alike (chunkIdOr id) := by
  cases id <;> (simp only [chunkIdOr]; infer_instance)

instance (h t : String) : Respects Alike (addRunnerUnderHost h t) := by
  simp only [addRunnerUnderHost]; infer_instance

instance (t : String) (h : Option String) : Respects Alike (standingUnder t h) := by
  cases h <;> (simp only [standingUnder]; infer_instance)

instance (r actor : String) : Respects Alike (retire r actor) := by
  refine respects_added fun row id _ => ?_
  have (instant : Option DateTime) (by' : Option String) :
      Respects Alike (setRegistry
        (·.putRunner { row with retiredAt := instant, retiredBy := by' })) :=
    respects_putRunner id
  infer_instance

instance (h : String) : Respects Alike (hostRecord h) := by simp only [hostRecord]; infer_instance

end Parts

variable [Platform]

instance (kind : String) : Respects Alike (mint kind) := by simp only [mint]; infer_instance

instance (kind : String) (id : Option String) : Respects Alike (mintOr kind id) := by
  cases id <;> (simp only [mintOr]; infer_instance)

instance (payload : List (String × Json)) (slug : String) :
    Respects Alike (usageView payload slug) := by
  simp only [usageView]; infer_instance

instance (payload : List (String × Json)) (slug : String) :
    Respects Alike (usageMiss payload slug) := by
  simp only [usageMiss]; infer_instance

section Reads

instance (r p : Option String) : Respects Alike (peekProject r p) := by
  cases r <;> cases p <;> (simp only [peekProject]; infer_instance)

instance (c : String) : Respects Alike (consultChunkUnknown c) := by
  simp only [consultChunkUnknown]; infer_instance

instance (c : String) (holder : Option String) : Respects Alike (reportedHolder c holder) := by
  simp only [reportedHolder]; infer_instance

instance (c r : String) : Respects Alike (requireRunnerChunk c r) := by
  simp only [requireRunnerChunk]; infer_instance

instance (c : String) (chunk : ChunkState) : Respects Alike (statusOfChunk c chunk) := by
  apply Respects.andThen inferInstance
  intro unknown
  cases unknown <;> infer_instance

instance (r c : String) : Respects Alike (chunkStatus r c) := by
  apply Respects.andThen inferInstance
  intro held
  cases held <;> infer_instance

instance (r : String) : Respects Alike (runnerView r) := by
  refine respects_runner inferInstance fun row id filed => ?_
  have := respects_reportedFacts (filed ▸ id)
  infer_instance

instance (t : Option String) : Respects Alike (tenantNamed t) := by
  simp only [tenantNamed]
  cases given t with
  | some id => infer_instance
  | none =>
    apply Respects.andThen inferInstance
    intro rows
    split <;> infer_instance

instance (t : Option String) : Respects Alike (identity t) := by
  cases t <;> (simp only [identity]; infer_instance)

instance (t : Option String) : Respects Alike (principal t) := by
  cases t <;> (simp only [principal]; infer_instance)

instance (t : Option String) : Respects Alike (hostPrincipal t) := by
  cases t <;> (simp only [hostPrincipal]; infer_instance)

theorem respects_read_op (op : ReadOp) : Respects Alike op.run := by
  cases op <;> dsimp only [ReadOp.run, ReadOp.Answer, peek, peekMatched, fleetSummary,
    refuseForeignRunnerChunk, chunkDetail, chunkStatuses, envelope, workItems, questionView,
    leaseTranscriptOwner, leaseTranscript, bootstrapCredential, refuseForeignTenant,
    refuseForeignHostTenant, me, systemArtifacts, systemArtifact, scopes,
      popDropAck] <;> infer_instance

end Reads

section Registry

instance (slug name t : String) (p : Option String) :
    Respects Alike (seedProject slug name t p) := by
  simp only [seedProject]; infer_instance

instance (r : String) : Respects Alike (heartbeat r) := by
  refine respects_runner inferInstance fun row id _ => ?_
  have (instant : DateTime) :
      Respects Alike (setRegistry (·.putRunner { row with lastSeenAt := some instant })) :=
    respects_putRunner id
  infer_instance

instance (r : String) (paused : Bool) : Respects Alike (setPaused r paused) :=
  respects_added fun _ id _ => respects_putRunner id

instance (r : String) (entries : List String) : Respects Alike (setRunnerProjects r entries) := by
  refine respects_added fun row id _ => ?_
  have (projects : List ServedEntry) :
      Respects Alike (setRegistry (·.putRunner { row with projects := projects })) :=
    respects_putRunner id
  infer_instance

instance (r : String) (version : Option String) : Respects Alike (refuseVersion r version) := by
  simp only [refuseVersion]; infer_instance

instance (r : String) (reg : Registration) : Respects Alike (register r reg) := by
  refine respects_added fun row id _ => ?_
  have (name : Option String) (declaration : Option (List ServedEntry)) (instant : DateTime) :
      Respects Alike (setRegistry (·.putRunner (row.registered name reg declaration instant))) :=
    respects_putRunner id
  infer_instance

instance (runners : List RunnerRow) : Respects Alike (refuseAdoptionConflict runners) := by
  simp only [refuseAdoptionConflict]; infer_instance

omit [Platform] in
theorem mintedId_ne (kind : String) (millis : Int) (randomness : Nat) :
    mintedId kind millis randomness ≠ "" := by
  intro empty
  have length := congrArg String.length empty
  simp [mintedId] at length

theorem respects_minted {α : Type} {kind : String} {id : Option String} {g : String → HubM α}
    (h : ∀ minted, minted ≠ "" → Respects Alike (g minted)) :
    Respects Alike (mintOr kind (given id) >>= g) := by
  apply respects_bind_of_answer
  intro minted s _ _ answered
  apply h
  cases named : given id with
  | some i =>
    rw [named] at answered
    cases answered
    obtain ⟨_, nonempty⟩ := Option.filter_eq_some_iff.mp named
    exact of_decide_eq_true nonempty
  | none =>
    rw [named] at answered
    cases answered
    exact mintedId_ne _ _ _

instance (name t : String) (r token : Option String) (ps : Option (List String))
    (h : Option String) :
    Respects Alike (addRunner name t r token ps h) := by
  apply Respects.andThen inferInstance
  intro row
  apply Respects.andThen inferInstance
  intro declaration
  apply Respects.andThen inferInstance
  intro declaration
  apply respects_minted
  intro addedId nonempty
  have (instant : DateTime) (host : Option String) (issued : String) :
      Respects Alike (setRegistry (·.addRunner {
        runnerId := addedId, tenantId := row.tenantId, name := name, addedAt := instant
        projects := declaration, hostId := host } issued)) :=
    respects_setRegistry fun store named => by
      rw [← named]
      exact Table.get?_put_of_ne nonempty.symm store.runners
  infer_instance

omit [Platform] in
theorem adoptees_runnerId_ne {store : Registry} (named : store.runners.get? "" = none) {t : String}
    {ids : List String} {rows : List RunnerRow} (h : adoptees store t ids = .ok rows) :
    ∀ row ∈ rows, row.runnerId ≠ "" := by
  intro row mem unnamed
  have held := adoptees_held h row mem
  rw [unnamed, named] at held
  cases held

omit [Platform] in
theorem adopt_named {runners : List RunnerRow} (ids : ∀ row ∈ runners, row.runnerId ≠ "")
    (hostId : String) (store : Registry) (named : store.runners.get? "" = none) :
    (adopt store hostId runners).runners.get? "" = none := by
  induction runners generalizing store with
  | nil => exact named
  | cons row rest ih =>
    apply ih fun other mem => ids other (List.mem_cons_of_mem row mem)
    rw [← named]
    have id : "" ≠ ({ row with hostId := some hostId } : RunnerRow).runnerId :=
      (ids row List.mem_cons_self).symm
    exact Table.get?_put_of_ne id store.runners

instance (name t : String) (adopting : List String) :
    Respects Alike (hostAdmission name t adopting) := by
  simp only [hostAdmission]; infer_instance

instance (name t : String) (rs : List String) (h token : Option String) :
    Respects Alike (addHost name t rs h token) := by
  apply Respects.andThen inferInstance
  intro row
  apply respects_bind_of_answer
  intro runners s _ alike admitted
  have (addedId : String) : Respects Alike (setRegistry (adopt · addedId runners)) :=
    respects_setRegistry (adopt_named (adoptees_runnerId_ne alike.named
      (hostAdmission_adoptees admitted)) addedId)
  infer_instance

theorem respects_registry_op (op : RegistryOp) : Respects Alike op.run := by
  cases op <;> dsimp only [RegistryOp.run, RegistryOp.Answer, seedTenant, renameTenant, enroll,
    revokeToken, reportHost, addHostRunner, seedSystemArtifact, seedScope] <;> infer_instance

end Registry

section Chunks

instance (spec : ChunkSpec) :
    Respects Alike (seedChunk spec) := by simp only [seedChunk]; infer_instance

instance (chunk : ChunkState) (c r : String) : Respects Alike (refuseClaimant chunk c r) := by
  simp only [refuseClaimant]; infer_instance

instance (c r w : String) (es : List String) : Respects Alike (claim c r w es) := by
  simp only [claim]; infer_instance

instance (c r : String) : Respects Alike (rekeyRouteToken c r) := by
  simp only [rekeyRouteToken]; infer_instance

instance (c r : String) (e : Int) (reason : String) (token : Option String) :
    Respects Alike (release c r e reason token) := by
  simp only [release]; infer_instance

instance (c : String) : Respects Alike (pauseChunk c) := by simp only [pauseChunk]; infer_instance
instance (c : String) : Respects Alike (resumeChunk c) := by simp only [resumeChunk]; infer_instance
instance (c : String) : Respects Alike (hubAdvance c) := by simp only [hubAdvance]; infer_instance
instance (c : String) : Respects Alike (stopChunk c) := by simp only [stopChunk]; infer_instance

instance (chunk : ChunkState) (openIds : List String) (e : Int) (n choice : String) :
    Respects Alike (judgeCompletion chunk openIds e n choice) := by
  simp only [judgeCompletion]
  split
  · infer_instance
  · split <;> infer_instance

instance (c : String) (e : Int) (n choice : String) :
    Respects Alike (applyCompletion c e n choice) := by
  apply Respects.andThen inferInstance
  intro chunk
  apply Respects.andThen inferInstance
  intro _
  apply Respects.andThen inferInstance
  intro replay
  apply Respects.andThen inferInstance
  intro openIds
  split <;> infer_instance

instance (c : String) (e : Int) (n : String) : Respects Alike (applyDecision c e n) := by
  apply Respects.andThen inferInstance
  intro chunk
  apply Respects.andThen inferInstance
  intro _
  apply Respects.andThen inferInstance
  intro openIds
  split <;> infer_instance

instance (h r actor : String) (force : Bool) :
    Respects Alike (retireHostRunner h r actor force) := by
  simp only [retireHostRunner]; infer_instance

instance (q a actor : String) : Respects Alike (answerQuestion q a actor) := by
  simp only [answerQuestion]; infer_instance

end Chunks

section Lanes

instance (r : String) (payload : List (String × Json)) :
    Respects Alike (applyLeaseMinted r payload) := by
  simp only [applyLeaseMinted, advanceFence]; infer_instance

instance (payload : List (String × Json)) : Respects Alike (applyEscalationRecorded payload) := by
  apply Respects.andThen inferInstance
  intro held
  cases held <;> infer_instance

instance (r : String) (payload : List (String × Json)) :
    Respects Alike (applyQuestionAsked r payload) := by
  simp only [applyQuestionAsked]; infer_instance

instance (payload : List (String × Json)) : Respects Alike (applyAnswerDelivered payload) := by
  apply Respects.andThen inferInstance
  intro question
  cases question <;> infer_instance

instance (r : String) (payload : List (String × Json)) :
    Respects Alike (applyLocallyPaused r payload) := by
  simp only [applyLocallyPaused]; infer_instance

instance (r : String) : Respects Alike (applyLocallyResumed r) := by
  simp only [applyLocallyResumed]; infer_instance

instance (r : String) (payload : List (String × Json)) :
    Respects Alike (applyUsageSampled r payload) := by
  simp only [applyUsageSampled]
  cases slugOf payload <;> infer_instance

instance (r : String) (payload : List (String × Json)) :
    Respects Alike (applyUsageMissed r payload) := by
  simp only [applyUsageMissed]
  cases slugOf payload <;> infer_instance

instance (r : String) (fact : Fact) : Respects Alike ((factLane r).judge fact) := by
  change Respects Alike (applyFact r fact.kind fact.payload)
  simp only [applyFact]
  infer_instance

instance (r : String) (facts : List Fact) : Respects Alike (ingestFacts r facts) := by
  simp only [ingestFacts]; infer_instance

instance (h : String) (fact : Fact) : Respects Alike ((hostFactLane h).judge fact) := by
  change Respects Alike (applyHostFact h fact.kind fact.payload)
  simp only [applyHostFact]
  cases slugOf fact.payload with
  | none => infer_instance
  | some slug =>
    dsimp only
    split
    · infer_instance
    · split
      · split <;> infer_instance
      · infer_instance

instance (h : String) (facts : List Fact) : Respects Alike (ingestHostFacts h facts) := by
  simp only [ingestHostFacts]; infer_instance

instance (r : String) (records : List TranscriptRecord) :
    Respects Alike (ingestTranscripts r records) := by
  simp only [ingestTranscripts]; infer_instance

end Lanes

instance : Respects Alike reset :=
  respects_write fun _ _ h => {
    rows := rfl
    books := rfl
    levers := rfl
    sources := h.sources
    reported := h.reported
    named := rfl }

theorem respects_op (op : Op) : Respects Alike op.run := by
  cases op with
  | registry op => exact respects_registry_op op
  | read op => exact respects_read_op op
  | _ =>
    dsimp only [Op.run, Op.Answer]
    infer_instance

theorem answers_of_alike {s t : MockHubService} (h : Alike s t) (ops : List Op) :
    answers ops s = answers ops t := by
  induction ops generalizing s t with
  | nil => rfl
  | cons op ops ih =>
    have same := (respects_op op).respects s t h
    simp only [answers, same.1]
    exact congrArg _ (ih same.2)

end MockHubService

end BlizzardMock.MockHub
