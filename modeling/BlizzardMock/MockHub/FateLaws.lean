import BlizzardMock.MockHub.Fate

namespace BlizzardMock.MockHub

open Method

namespace MockHubService

theorem get?_unroute (held : List ChunkState) (rows : Table ChunkState.chunkId) (id : String) :
    (unroute rows held).get? id = rows.get? id ∨
      ∃ chunk ∈ held, chunk.chunkId = id ∧ (unroute rows held).get? id = some chunk.unrouted := by
  induction held generalizing rows with
  | nil => exact .inl rfl
  | cons chunk rest ih =>
    cases ih (rows.put chunk.unrouted) with
    | inr taken =>
      obtain ⟨other, mem, filed, hput⟩ := taken
      exact .inr ⟨other, List.mem_cons_of_mem _ mem, filed, hput⟩
    | inl kept =>
      rw [Table.get?_put] at kept
      split at kept
      case isTrue h => exact .inr ⟨chunk, List.mem_cons_self, h.symm, kept⟩
      case isFalse => exact .inl kept

theorem seedChunk_answer {spec : ChunkSpec} {s : MockHubService} {chunk : ChunkState}
    (h : answer (seedChunk spec) s = .ok chunk) :
    spec.entry ∈ spec.nodes ∧ ∃ id projectId, chunk = spec.seeded id projectId := by
  simp only [seedChunk] at h
  obtain ⟨_, entry, h⟩ := answer_bind_ok h
  obtain ⟨id, _, h⟩ := answer_bind_ok h
  obtain ⟨_, _, h⟩ := answer_bind_ok h
  obtain ⟨_, _, h⟩ := answer_bind_ok h
  obtain ⟨_, _, h⟩ := answer_bind_ok h
  cases h
  exact ⟨not_not.mp (refuseIf_ok.mp entry), id, _, rfl⟩

theorem seeds_bind {hub : MockHubService} {α : Type} {m : HubM α} {g : α → HubM ChunkState}
    [Keeps work m]
    {s : MockHubService} (same : s.work = hub.work)
    (next : ∀ a t, t.work = hub.work → Seeds hub (answer (g a) t) (Method.after (g a) t)) :
    Seeds hub (answer (m >>= g) s) (Method.after (m >>= g) s) :=
  outcome_bind_of_keeps (P := Seeds hub) same (fun _ _ h => chunks_of_work h)
    fun a t _ h => next a t h

theorem seedChunk_seeds (hub : MockHubService) (spec : ChunkSpec) :
    Seeds hub (answer (seedChunk spec) hub) (Method.after (seedChunk spec) hub) := by
  simp only [seedChunk]
  apply seeds_bind rfl
  intro _ t same
  apply seeds_bind same
  intro id t same
  apply seeds_bind same
  intro projects t same
  apply seeds_bind same
  intro _ t same
  exact chunks_put same _

theorem pushes_refl (hub : MockHubService) : Pushes hub hub :=
  Table.Evolves.refl ChunkState.Pushed.refl hub.chunks

theorem pushes_trans {s t u : MockHubService} (h : Pushes s t) (h' : Pushes t u) : Pushes s u :=
  Table.Evolves.trans (R := ChunkState.Pushed) ChunkState.Pushed.trans h h'

theorem pushes_of_chunks {hub later : MockHubService} (h : later.chunks = hub.chunks) :
    Pushes hub later := by
  simp only [Pushes]
  rw [h]
  exact pushes_refl hub

theorem pushes_of_put {hub later : MockHubService} {chunk next : ChunkState}
    (step : chunk.Pushed next) (found : hub.chunks.get? next.chunkId = some chunk)
    (put : later.chunks = hub.chunks.put next) : Pushes hub later := by
  simp only [Pushes]
  rw [put]
  exact Table.Evolves.put ChunkState.Pushed.refl found step

end MockHubService

theorem ChunkStep.chunkId {hub : MockHubService} {op : Op} {chunk later : ChunkState}
    (h : ChunkStep hub op chunk later) : later.chunkId = chunk.chunkId := by
  cases h with
  | paused => unfold ChunkState.paused; split <;> rfl
  | completed takes landing => cases landing <;> rfl
  | pushed h => rw [h.2]
  | _ => rfl

namespace MockHubService

section Moves

variable {hub : MockHubService} {op : Op}

theorem moves_of_chunks {later : MockHubService} (h : later.chunks = hub.chunks) :
    Moves hub op later := by
  intro id
  rw [h]
  exact .kept _

theorem moves_of_work {later : MockHubService} (h : later.work = hub.work) : Moves hub op later :=
  moves_of_chunks (chunks_of_work h)

theorem moves_bind {α β : Type} {m : HubM α} {g : α → HubM β} [Keeps work m] {s : MockHubService}
    (same : s.work = hub.work)
    (next : ∀ a t, answer m s = .ok a → t.work = hub.work → Moves hub op (Method.after (g a) t)) :
    Moves hub op (Method.after (m >>= g) s) :=
  after_bind_of_keeps same (fun _ h => moves_of_work h) next

theorem moves_bind_read {α β : Type} {m : HubM α} {g : α → HubM β} [Keeps id m]
    (next : ∀ a, answer m hub = .ok a → Moves hub op (Method.after (g a) hub)) :
    Moves hub op (Method.after (m >>= g) hub) := by
  apply after_bind_of_keeps (f := id) (o := hub) rfl
  · intro t h
    exact moves_of_work (congrArg work h)
  · intro a t answered h
    cases h
    exact next a answered

theorem moves_bind_unpinned {β : Type} {c : String} {g : Unit → HubM β}
    (next : hub.Unpinned c → Moves hub op (Method.after (g ()) hub)) :
    Moves hub op (Method.after (checkPinnedGraph c >>= g) hub) := by
  rw [after_bind]
  split
  case h_1 answered =>
    have unpinned := answer_checkPinnedGraph.mp answered
    rw [after_checkPinnedGraph unpinned]
    exact next unpinned
  case h_2 => exact moves_of_work (Keeps.keeps hub)

theorem moves_of_put {later : MockHubService} {chunk next : ChunkState}
    (found : hub.chunks.get? chunk.chunkId = some chunk) (step : ChunkStep hub op chunk next)
    (put : later.chunks = hub.chunks.put next) : Moves hub op later := by
  intro id
  rw [put, Table.get?_put, step.chunkId]
  split
  case isTrue h =>
    rw [h, found]
    exact .moved rfl step
  case isFalse => exact .kept _

theorem seedChunk_moves (spec : ChunkSpec) :
    Moves hub (.seedChunk spec) (Method.after (seedChunk spec) hub) := by
  have h := seedChunk_seeds hub spec
  cases answered : answer (seedChunk spec) hub with
  | error e =>
    rw [answered] at h
    exact moves_of_chunks h
  | ok chunk =>
    rw [answered] at h
    intro id
    rw [h, Table.get?_put]
    split
    case isTrue filed =>
      obtain ⟨entry, _, _, seeded⟩ := seedChunk_answer answered
      cases seeded
      cases filed
      exact .seeded _ entry (.inr ⟨spec, _, rfl, answered, rfl⟩)
    case isFalse => exact .kept _

theorem pauseChunk_moves (c : String) :
    Moves hub (.pauseChunk c) (Method.after (pauseChunk c) hub) := by
  simp only [pauseChunk]
  apply moves_bind rfl
  intro chunk t found same
  have held := found_of_require rfl found
  cases Table.key_of_get? held
  apply moves_bind same
  intro _ t allowed same
  apply moves_of_put held (.paused (not_not.mp (refuseIf_ok.mp allowed)))
  exact chunks_put same _

theorem resumeChunk_moves (c : String) :
    Moves hub (.resumeChunk c) (Method.after (resumeChunk c) hub) := by
  simp only [resumeChunk]
  apply moves_bind rfl
  intro chunk t found same
  have held := found_of_require rfl found
  cases Table.key_of_get? held
  apply moves_of_put held .resumed
  exact chunks_put same _

theorem applyDecision_moves (c : String) (e : Int) (n : String) :
    Moves hub (.applyDecision c e n) (Method.after (applyDecision c e n) hub) := by
  simp only [applyDecision]
  apply moves_bind_read
  intro chunk found
  have held := found_of_require rfl found
  cases Table.key_of_get? held
  apply moves_bind_unpinned
  intro unpinned
  apply moves_bind_read
  intro openIds opened
  cases opened
  split
  case h_1 => exact moves_of_work rfl
  case h_2 allowed =>
    apply moves_of_put held (.decided ⟨unpinned, allowed⟩)
    exact chunks_put rfl _

theorem hubAdvance_moves (c : String) :
    Moves hub (.hubAdvance c) (Method.after (hubAdvance c) hub) := by
  simp only [hubAdvance]
  apply moves_bind_read
  intro chunk found
  have held := found_of_require rfl found
  cases Table.key_of_get? held
  apply moves_bind_unpinned
  intro unpinned
  rw [after_ite]
  split
  case isTrue parked =>
    apply moves_of_put held (.advanced ⟨unpinned, parked⟩)
    exact chunks_put rfl _
  case isFalse => exact moves_of_work rfl

theorem stopChunk_moves (c : String) :
    Moves hub (.stopChunk c) (Method.after (stopChunk c) hub) := by
  simp only [stopChunk]
  apply moves_bind rfl
  intro chunk t found same
  have held := found_of_require rfl found
  cases Table.key_of_get? held
  apply moves_of_put held .stopped
  exact chunks_put same _

theorem retireHostRunner_moves (h r actor : String) (force : Bool) :
    Moves hub (.retireHostRunner h r actor force)
      (Method.after (retireHostRunner h r actor force) hub) := by
  simp only [retireHostRunner]
  apply moves_bind rfl
  intro row t _ same
  apply moves_bind same
  intro runner t _ same
  have routes : t.chunks = hub.chunks := chunks_of_work same
  apply moves_bind same
  intro held u found same
  apply moves_bind same
  intro _ u _ same
  apply moves_bind same
  intro conflict u _ same
  apply moves_bind same
  intro _ u _ same
  apply moves_bind same
  intro _ u _ same id
  rw [after_bind_of_ok _ rfl, Keeps.keeps (f := chunks)]
  change Fate hub _ id (hub.chunks.get? id) ((unroute u.chunks held).get? id)
  rw [chunks_of_work same]
  cases get?_unroute held hub.chunks id with
  | inl kept =>
    rw [kept]
    exact .kept _
  | inr taken =>
    obtain ⟨chunk, mem, filed, hput⟩ := taken
    rw [← Except.ok.inj found] at mem
    have route := List.mem_filter.mp mem
    have holds := of_decide_eq_true route.2
    have row : t.chunks.get? chunk.chunkId = some chunk := Table.mem_rows.mp route.1
    rw [routes, filed] at row
    rw [hput, row]
    exact .moved filed (.unrouted holds.1 holds.2)

variable [Platform]

theorem free_of_refuseClaimant {s : MockHubService} {chunk : ChunkState} {c r : String}
    (h : answer (refuseClaimant chunk c r) s = .ok ()) : chunk.refuseClaim = .ok () := by
  simp only [refuseClaimant] at h
  obtain ⟨_, _, h⟩ := answer_bind_ok h
  obtain ⟨_, _, h⟩ := answer_bind_ok h
  obtain ⟨_, free, _⟩ := answer_bind_ok h
  rw [answer_settle] at free
  exact free

theorem claim_moves (c r w : String) (es : List String) :
    Moves hub (.claim c r w es) (Method.after (claim c r w es) hub) := by
  simp only [claim]
  apply moves_bind rfl
  intro chunk t found same
  have held := found_of_require rfl found
  cases Table.key_of_get? held
  apply moves_bind same
  intro _ t _ same
  apply moves_bind same
  intro _ t _ same
  apply moves_bind same
  intro _ t _ same
  apply moves_bind same
  intro _ t _ same
  apply moves_bind same
  intro _ t allowed same
  apply moves_of_put held (.claimed (free_of_refuseClaimant allowed))
  exact chunks_put_bind (chunks_of_work same) _ _

theorem rekeyRouteToken_moves (c r : String) :
    Moves hub (.rekeyRouteToken c r) (Method.after (rekeyRouteToken c r) hub) := by
  simp only [rekeyRouteToken]
  apply moves_bind rfl
  intro held t found same
  cases found
  apply moves_bind same
  intro chunk t live same
  have live := Option.filter_eq_some_iff.mp (orRaise_ok.mp live)
  have held : hub.chunks.get? c = some chunk := live.1
  cases Table.key_of_get? held
  apply moves_bind same
  intro _ t holder same
  apply moves_bind same
  intro _ t allowed same
  rw [answer_settle] at allowed
  apply moves_of_put held (.rekeyed live.2 (not_not.mp (refuseIf_ok.mp holder)) allowed)
  exact chunks_put same _

theorem release_moves (c r : String) (e : Int) (reason : String) (token : Option String) :
    Moves hub (.release c r e reason token) (Method.after (release c r e reason token) hub) := by
  simp only [release]
  apply moves_bind rfl
  intro chunk t found same
  have held := found_of_require rfl found
  cases Table.key_of_get? held
  apply moves_bind same
  intro _ t _ same
  apply moves_bind same
  intro _ t _ same
  apply moves_bind same
  intro _ t allowed same
  rw [answer_settle] at allowed
  apply moves_of_put held (.released allowed)
  exact chunks_put same _

theorem applyCompletion_moves (c : String) (e : Int) (n choice : String) :
    Moves hub (.applyCompletion c e n choice)
      (Method.after (applyCompletion c e n choice) hub) := by
  simp only [applyCompletion]
  apply moves_bind_read
  intro chunk found
  have held := found_of_require rfl found
  cases Table.key_of_get? held
  apply moves_bind_unpinned
  intro unpinned
  apply moves_bind_read
  intro replay armed
  cases armed
  apply moves_bind_read
  intro openIds opened
  cases opened
  split
  case h_1 lever response last =>
    apply moves_bind rfl
    intro _ t _ same
    exact moves_of_work same
  case h_2 none_again =>
    have unreplayed : hub.Unreplayed chunk.chunkId ∨ chunk.lastResponse = none := by
      cases last : chunk.lastResponse with
      | none => exact .inr rfl
      | some response =>
        apply Or.inl
        simp only [Unreplayed]
        cases lever : MockHubService.lever hub.levers .replay (some chunk.chunkId) with
        | none => rfl
        | some armed => exact (none_again armed response lever last).elim
    simp only [judgeCompletion]
    cases new : chunk.applied.get? (ChunkState.appliedKey n e) with
    | some outcome => exact moves_of_work (congrArg work (after_settle hub _))
    | none =>
      dsimp only
      split
      case h_1 => exact moves_of_work rfl
      case h_2 target chosen =>
        have accepted := ChunkState.completionTarget_ok.mp chosen
        obtain ⟨response, answered, landing⟩ := chunk.advance_landing target
        apply moves_of_put held (.completed ⟨unpinned, unreplayed, new, accepted⟩ landing)
        -- two writes to one row: the step, and what is recorded of it
        rw [after_bind_of_ok _ rfl, after_bind_of_ok _ ((answer_settle _ _).trans answered),
          after_settle, after_bind_of_ok _ rfl, after_pure]
        change (hub.chunks.put (chunk.advance target).1).put _ = _
        apply Table.put_put
        rfl

theorem applyLeaseMinted_pushes (r : String) (payload : List (String × Json))
    (hub : MockHubService) :
    Pushes hub (Method.after (applyLeaseMinted r payload) hub) := by
  simp only [applyLeaseMinted]
  rw [after_bind_of_ok _ rfl, after_bind_pure]
  change Pushes hub (Method.after (whenSome _ (hub.chunks.get? (chunkIdOf payload))) hub)
  cases held : hub.chunks.get? (chunkIdOf payload) with
  | none => exact pushes_refl hub
  | some chunk =>
    apply after_bind_of_keeps (f := chunks) (o := hub) rfl (fun _ h => pushes_of_chunks h)
    intro epoch t _ same
    simp only [advanceFence]
    rw [← Table.key_of_get? held] at held
    exact pushes_of_put (chunk.pushed_fenced epoch) held (chunks_put_bind same _ _)

theorem applyEscalationRecorded_pushes (payload : List (String × Json)) (hub : MockHubService) :
    Pushes hub (Method.after (applyEscalationRecorded payload) hub) := by
  simp only [applyEscalationRecorded]
  rw [after_bind_of_ok _ rfl]
  change Pushes hub (Method.after _ hub)
  dsimp only
  cases held : hub.chunks.get? (chunkIdOf payload) with
  | none => exact pushes_refl hub
  | some chunk =>
    apply after_bind_of_keeps (f := chunks) (o := hub) rfl (fun _ h => pushes_of_chunks h)
    intro epoch t _ same
    rw [after_ite]
    split
    · exact pushes_of_chunks same
    · rw [← Table.key_of_get? held] at held
      exact pushes_of_put (chunk.pushed_escalated (some (escalationOf payload epoch))) held
        (chunks_put_bind same _ _)

theorem applyFact_pushes (r kind : String) (payload : List (String × Json)) (hub : MockHubService) :
    Pushes hub (Method.after (applyFact r kind payload) hub) := by
  apply applyFact_cases (P := fun m => Pushes hub (Method.after m hub))
  · intro _
    exact applyLeaseMinted_pushes r payload hub
  · intro _
    exact applyEscalationRecorded_pushes payload hub
  · intro _
    exact pushes_of_chunks (congrArg Prod.fst (Keeps.keeps (f := besideQuestions) hub))
  · intro _
    exact pushes_of_chunks (congrArg Prod.fst (Keeps.keeps (f := besideQuestions) hub))
  · intro m kept
    exact pushes_of_chunks (congrArg Work.chunks (kept.keeps hub))

theorem ingestFacts_moves (r : String) (facts : List Fact) :
    Moves hub (.ingestFacts r facts) (Method.after (ingestFacts r facts) hub) := by
  have pushed : Pushes hub (Method.after (ingestFacts r facts) hub) := by
    simp only [ingestFacts]
    rw [after_bind_of_ok _ rfl]
    have swept := (factLane r).push_related (R := Pushes) pushes_refl
      pushes_trans
      (fun fact => applyFact_pushes r fact.kind fact.payload) facts
    rw [after_bind]
    split
    · exact swept _ hub
    · exact swept _ hub
  intro id
  have row := pushed id
  cases held : hub.chunks.get? id with
  | none =>
    rw [held] at row
    generalize (Method.after (ingestFacts r facts) hub).chunks.get? id = new at row ⊢
    cases row
    exact .kept none
  | some chunk =>
    rw [held] at row
    generalize (Method.after (ingestFacts r facts) hub).chunks.get? id = new at row ⊢
    cases row with
    | some h => exact .moved (Table.key_of_get? held) (.pushed h)

theorem next_moves (op : Op) (hub : MockHubService) : Moves hub op (hub.next op) := by
  cases op with
  | seedChunk spec => exact seedChunk_moves spec
  | claim c r w es => exact claim_moves c r w es
  | rekeyRouteToken c r => exact rekeyRouteToken_moves c r
  | release c r e reason token => exact release_moves c r e reason token
  | pauseChunk c => exact pauseChunk_moves c
  | resumeChunk c => exact resumeChunk_moves c
  | applyCompletion c e n choice => exact applyCompletion_moves c e n choice
  | applyDecision c e n => exact applyDecision_moves c e n
  | hubAdvance c => exact hubAdvance_moves c
  | stopChunk c => exact stopChunk_moves c
  | retireHostRunner h r actor force => exact retireHostRunner_moves h r actor force
  | ingestFacts r facts => exact ingestFacts_moves r facts
  | ingestHostFacts h facts =>
    exact moves_of_chunks (congrArg Work.chunks
      (Keeps.keeps (f := fun hub : MockHubService => hub.work.besideHostMarks)
        (m := ingestHostFacts h facts) hub))
  | ingestTranscripts r records =>
    exact moves_of_chunks (congrArg Work.chunks
      (Keeps.keeps (f := fun hub : MockHubService => hub.work.fences)
        (m := ingestTranscripts r records) hub))
  | answerQuestion q a actor =>
    exact moves_of_chunks (congrArg Prod.fst
      (Keeps.keeps (f := besideQuestions) (m := answerQuestion q a actor) hub))
  | registry op => exact moves_of_work ((keeps_work_registry op).keeps hub)
  | lever op => exact moves_of_work rfl
  | read op => exact moves_of_work ((keeps_work_read op).keeps hub)
  | reset =>
    intro id
    exact .cleared _ (.inl rfl)

end Moves

theorem run_applyCompletion [Platform] {hub : MockHubService} {id : String} {chunk : ChunkState}
    (held : hub.chunks.get? id = some chunk) (unpinned : hub.Unpinned id)
    (unreplayed : hub.Unreplayed id) (e : Int) (n choice : String) :
    (applyCompletion id e n choice).run hub =
      (judgeCompletion chunk (openQuestionIds hub.store.toHubRows id e) e n choice).run hub := by
  simp only [applyCompletion]
  rw [run_bind_of_read (answer_require held), run_checkPinnedGraph unpinned, run_findLever,
    run_readStore, unreplayed]

/-! Laws of one step, carried along runs. -/

def AllChunks (I : ChunkState → Prop) (hub : MockHubService) : Prop :=
  ∀ id chunk, hub.chunks.get? id = some chunk → I chunk

theorem allChunks_fresh {I : ChunkState → Prop} (sources : Sources) :
    AllChunks I (fresh sources) := by
  intro id chunk found
  cases found

variable [Platform] {I : ChunkState → Prop}

theorem next_allChunks {op : Op} {hub : MockHubService}
    (seeds : ∀ spec id projectId, spec.entry ∈ spec.nodes → I (ChunkSpec.seeded spec id projectId))
    (steps : ∀ chunk later, hub.chunks.get? chunk.chunkId = some chunk →
      ChunkStep hub op chunk later → I chunk → I later)
    (h : AllChunks I hub) : AllChunks I (hub.next op) := by
  intro id chunk found
  have fate := next_moves op hub id
  rw [found] at fate
  generalize held : hub.chunks.get? id = old at fate
  cases fate with
  | kept => exact h id chunk held
  | moved filed step =>
    cases filed
    exact steps _ chunk held step (h _ _ held)
  | seeded _ entry => exact seeds _ _ _ entry

theorem reachable_allChunks
    (seeds : ∀ spec id projectId, spec.entry ∈ spec.nodes → I (ChunkSpec.seeded spec id projectId))
    (steps : ∀ hub op chunk later, ChunkStep hub op chunk later → I chunk → I later)
    {hub : MockHubService} (h : hub.Reachable) : AllChunks I hub := by
  obtain ⟨sources, ops, hrun⟩ := h
  rw [hrun]
  apply Machine.invariant_always
  · intro op hub h
    exact next_allChunks seeds (fun chunk later _ => steps hub op chunk later) h
  · exact allChunks_fresh sources

omit [Platform] in
theorem not_renews {op : Op} (h : match op with
      | .reset | .seedChunk _ => False
      | _ => True) {id : String} {hub : MockHubService} : ¬ Renews id op hub := by
  intro renews
  cases renews with
  | inl reset =>
    cases reset
    exact h
  | inr seeds =>
    obtain ⟨spec, _, seed, _⟩ := seeds
    cases seed
    exact h

theorem reachable_after {hub : MockHubService} (h : hub.Reachable) (ops : List Op) :
    (after ops hub).Reachable := by
  obtain ⟨sources, before, hrun⟩ := h
  rw [hrun]
  exact ⟨sources, before ++ ops, (Machine.after_append before ops _).symm⟩

theorem follow_chunk {C : Op → MockHubService → Prop} {R : ChunkState → ChunkState → Prop}
    (refl : ∀ chunk, R chunk chunk) (trans : ∀ {a b c}, R a b → R b c → R a c) {id : String}
    (steps : ∀ hub op chunk later, C op hub → hub.chunks.get? id = some chunk → chunk.chunkId = id →
      ChunkStep hub op chunk later → R chunk later)
    {ops : List Op} {hub : MockHubService} {chunk : ChunkState}
    (run : Meets (fun op hub => ¬ Renews id op hub ∧ C op hub) ops hub)
    (held : hub.chunks.get? id = some chunk) :
    ∃ later, (after ops hub).chunks.get? id = some later ∧ R chunk later := by
  induction ops generalizing hub chunk with
  | nil => exact ⟨chunk, held, refl chunk⟩
  | cons op ops ih =>
    have fate := next_moves op hub id
    rw [held] at fate
    generalize moved : (hub.next op).chunks.get? id = new at fate
    cases fate with
    | kept => exact ih run.2 moved
    | moved filed step =>
      obtain ⟨last, hlast, hR⟩ := ih run.2 moved
      exact ⟨last, hlast, trans (steps hub op chunk _ run.1.2 held filed step) hR⟩
    | seeded _ _ renews => exact absurd renews run.1.1
    | cleared _ renews => exact absurd renews run.1.1

end MockHubService

end BlizzardMock.MockHub
