import BlizzardMock.MockHub.RosterLaws
import BlizzardMock.MockHub.RetryLaws
import BlizzardMock.MockHub.UnarmedLaws

/-! Where a chunk stands: its node, its fence and the completions applied to it, and the calls that
move it. -/

namespace BlizzardMock.MockHub

open Method

structure Footing where
  node : Option String
  epoch : Int
  applied : Dict String ApplyOutcome
  nodes : Dict String NodeSpec
  entry : String
  projectId : String

def ChunkState.footing (chunk : ChunkState) : Footing :=
  ⟨chunk.currentNodeId, chunk.latestEpoch, chunk.applied, chunk.nodes, chunk.entry, chunk.projectId⟩

namespace MockHubService

def footing (c : String) (hub : MockHubService) : Option Footing :=
  (hub.chunks.get? c).map ChunkState.footing

/-- A call that moves no footing of a chunk. -/
def Leaves [Platform] (c : String) : Op → Prop
  | .claim c' .. => c' ≠ c
  | .applyCompletion c' .. => c' ≠ c
  | .ingestFacts _ facts => ∀ fact ∈ facts, fact.kind = leaseMinted → chunkIdOf fact.payload ≠ c
  | _ => True

section Frames

variable {c : String} {α : Type}

instance (m : HubM α) [h : Keeps chunks m] : Keeps (footing c) m :=
  h.comp m fun rows => (rows.get? c).map ChunkState.footing

instance (m : HubM α) [h : Keeps besideQuestions m] : Keeps (footing c) m :=
  h.comp m fun w => (w.1.get? c).map ChunkState.footing

theorem footing_of_chunks {hub later : MockHubService} (same : later.chunks = hub.chunks) :
    later.footing c = hub.footing c :=
  congrArg (fun rows : Table ChunkState.chunkId => (rows.get? c).map ChunkState.footing) same

theorem footing_put_of_ne {hub later : MockHubService} {chunk : ChunkState}
    (put : later.chunks = hub.chunks.put chunk) (other : chunk.chunkId ≠ c) :
    later.footing c = hub.footing c := by
  simp only [footing]
  rw [put, Table.get?_put_of_ne (Ne.symm other)]

theorem footing_put_self {later : MockHubService} {rows : Table ChunkState.chunkId}
    {chunk : ChunkState}
    (put : later.chunks = rows.put chunk) : later.footing chunk.chunkId = some chunk.footing := by
  simp only [footing]
  rw [put, Table.get?_put_self]
  rfl

theorem footing_put_alike {hub later : MockHubService} {chunk next : ChunkState}
    (held : hub.chunks.get? chunk.chunkId = some chunk) (put : later.chunks = hub.chunks.put next)
    (filed : next.chunkId = chunk.chunkId) (alike : next.footing = chunk.footing) :
    later.footing c = hub.footing c := by
  by_cases same : c = chunk.chunkId
  · rw [same, ← filed, footing_put_self put, filed, alike]
    simp only [footing]
    rw [held]
    rfl
  · exact footing_put_of_ne put fun h => same (h.symm.trans filed)

variable [Platform]

theorem footing_leaseMinted (r : String) {payload : List (String × Json)}
    (spared : chunkIdOf payload ≠ c) :
    Keeps (footing c) (applyLeaseMinted r payload) where
  keeps hub := by
    cases held : hub.chunks.get? (chunkIdOf payload) with
    | none =>
      have idle : (applyLeaseMinted r payload).run hub = .ok true hub := by
        simp only [applyLeaseMinted]
        rw [run_readStore]
        change EStateM.run (whenSome _ (hub.chunks.get? (chunkIdOf payload)) >>= _) hub = _
        rw [held]
        rfl
      rw [after_of_run_ok idle]
    | some chunk =>
      cases minted : epochOf payload with
      | error error =>
        have idle : Method.after (applyLeaseMinted r payload) hub = hub := by
          simp only [applyLeaseMinted]
          rw [after_bind_of_ok _ rfl]
          change Method.after (whenSome _ (hub.chunks.get? (chunkIdOf payload)) >>= _) hub = _
          rw [held, after_bind_pure]
          simp only [whenSome]
          rw [minted]
          rfl
        rw [idle]
      | ok epoch =>
        refine footing_put_of_ne (chunks_mint (r := r) held minted) ?_
        have filed : chunk.chunkId = chunkIdOf payload := Table.key_of_get? held
        exact fun same => spared (filed.symm.trans same)

instance (payload : List (String × Json)) :
    Keeps (footing c) (applyEscalationRecorded payload) where
  keeps hub := by
    simp only [applyEscalationRecorded]
    rw [after_bind_of_ok _ rfl]
    change (Method.after _ hub).footing c = _
    dsimp only
    cases held : hub.chunks.get? (chunkIdOf payload) with
    | none => rfl
    | some chunk =>
      refine after_bind_of_keeps (f := chunks) (o := hub) (P := fun t =>
        t.footing c = hub.footing c) rfl
        (fun _ same => footing_of_chunks same) ?_
      intro epoch t _ same
      rw [after_ite]
      split
      · exact footing_of_chunks same
      · rw [← Table.key_of_get? held] at held
        exact footing_put_alike held (chunks_put_bind same _ _) rfl rfl

theorem footing_applyFact (r : String) {kind : String} {payload : List (String × Json)}
    (spared : kind = leaseMinted → chunkIdOf payload ≠ c) :
    Keeps (footing c) (applyFact r kind payload) := by
  apply applyFact_cases (P := fun m => Keeps (footing c) m)
  · exact fun minted => footing_leaseMinted r (spared minted)
  · intro _
    infer_instance
  · intro _
    infer_instance
  · intro _
    infer_instance
  · intro m _
    infer_instance

theorem footing_ingestFacts (r : String) {facts : List Fact}
    (spared : ∀ fact ∈ facts, fact.kind = leaseMinted → chunkIdOf fact.payload ≠ c) :
    Keeps (footing c) (ingestFacts r facts) where
  keeps hub := by
    have swept := (factLane r).loop_related_of_reached (R := fun s t => t.footing c = s.footing c)
      (fun _ => rfl) (fun hst htu => htu.trans hst) ((factLane r).sorted facts)
      { mark := hub.factHighWater.getD r 0 } hub fun fact t mem =>
        (footing_applyFact r
          (spared fact ((List.mem_insertionSort _).mp (Lane.Rule.mem_of_reached mem)))).keeps t
    simp only [ingestFacts]
    rw [after_bind_of_ok _ rfl, after_bind]
    split
    · exact swept
    · exact swept

omit [Platform] in
theorem not_renews_of_serves {op : Op} (serves : Serves op) (hub : MockHubService) :
    ¬ Renews c op hub := by
  rintro (same | ⟨spec, chunk, same, _⟩)
  · rw [same] at serves
    exact serves
  · rw [same] at serves
    exact serves

theorem footing_step {hub : MockHubService} {op : Op} {chunk later : ChunkState}
    (step : ChunkStep hub op chunk later) (serves : Serves op) (leaves : Leaves chunk.chunkId op)
    (other : ∀ r facts, op ≠ .ingestFacts r facts) : later.footing = chunk.footing := by
  cases step with
  | claimed => exact absurd rfl leaves
  | completed => exact absurd rfl leaves
  | pushed => exact absurd rfl (other _ _)
  | paused =>
    simp only [ChunkState.paused]
    split <;> rfl
  | rekeyed | released | advanced | unrouted => exact serves.elim
  | _ => rfl

theorem footing_next {op : Op} (serves : Serves op) (leaves : Leaves c op) (hub : MockHubService) :
    (hub.next op).footing c = hub.footing c := by
  by_cases facts : ∃ r facts, op = .ingestFacts r facts
  · obtain ⟨r, facts, same⟩ := facts
    subst same
    exact (footing_ingestFacts r leaves).keeps hub
  · have fate := next_moves op hub c
    simp only [footing]
    generalize hub.chunks.get? c = held at fate ⊢
    generalize (hub.next op).chunks.get? c = later at fate ⊢
    cases fate with
    | kept => rfl
    | moved filed step =>
      rw [← filed] at leaves
      exact congrArg some (footing_step step serves leaves fun r pushed same =>
        facts ⟨r, pushed, same⟩)
    | seeded _ _ renews => exact absurd renews (not_renews_of_serves serves hub)
    | cleared _ renews => exact absurd renews (not_renews_of_serves serves hub)

end Frames

end MockHubService

namespace Roster

structure Steady (roster later : Roster) : Prop where
  keyring : later.keyring = roster.keyring
  runners : ∀ r, (later.runners.get? r).map (fun row => (row.tenantId, row.retiredAt)) =
    (roster.runners.get? r).map fun row => (row.tenantId, row.retiredAt)
  projects : ∀ id project, roster.projects.get? id = some project →
    later.projects.get? id = some project

theorem Steady.refl (roster : Roster) : Steady roster roster := ⟨rfl, fun _ => rfl, fun _ _ => id⟩

theorem Steady.trans {roster mid later : Roster} (first : roster.Steady mid)
    (second : mid.Steady later) :
    roster.Steady later :=
  ⟨second.keyring.trans first.keyring, fun r => (second.runners r).trans (first.runners r),
    fun id project held => second.projects id project (first.projects id project held)⟩

theorem Changes.steady {roster later : Roster} {events : List Event}
    (changes : Changes roster events later)
    (none : events = []) : roster.Steady later := by
  induction changes with
  | idle roster => exact .refl roster
  | seed project fresh =>
    refine ⟨rfl, fun _ => rfl, fun id other held => ?_⟩
    have apart : id ≠ project.projectId := fun same => by
      rw [same, fresh] at held
      cases held
    exact (Table.get?_put_of_ne apart _).trans held
  | revise held runnerId tenantId retiredAt _ =>
    refine ⟨rfl, fun r => ?_, fun _ _ => id⟩
    dsimp only
    rw [Table.get?_put]
    split
    case isTrue same =>
      rw [same, runnerId, held, Option.map_some, Option.map_some, tenantId, retiredAt]
    case isFalse => rfl
  | trans _ _ first second =>
    obtain ⟨later, earlier⟩ := List.append_eq_nil_iff.mp none
    exact (first earlier).trans (second later)
  | _ => cases none

def Names (roster : Roster) (token : Option String) (r : String) : Prop :=
  ∃ t, token = some t ∧ roster.keyring.held.get? t = some r ∧ (roster.runners.get? r).isSome

def Works (roster : Roster) (r projectId : String) : Prop :=
  ∃ row project, roster.runners.get? r = some row ∧ row.retiredAt = none ∧
    roster.projects.get? projectId = some project ∧ project.tenantId = row.tenantId

variable {roster later : Roster} {token : Option String} {r projectId : String}

theorem Steady.names (steady : roster.Steady later) :
    later.Names token r ↔ roster.Names token r := by
  have present : (later.runners.get? r).isSome = (roster.runners.get? r).isSome := by
    have same := congrArg Option.isSome (steady.runners r)
    rwa [Option.isSome_map, Option.isSome_map] at same
  simp only [Names, steady.keyring, present]

theorem Steady.names_eq (steady : roster.Steady later) : later.Names token = roster.Names token :=
  funext fun _ => propext steady.names

theorem Steady.works (steady : roster.Steady later) (works : roster.Works r projectId) :
    later.Works r projectId := by
  obtain ⟨row, project, held, active, found, shared⟩ := works
  have same := steady.runners r
  rw [held] at same
  obtain ⟨next, there, alike⟩ := Option.map_eq_some_iff.mp same
  obtain ⟨tenantId, retiredAt⟩ := Prod.mk.inj alike
  exact ⟨next, project, there, retiredAt.trans active, steady.projects _ _ found,
    shared.trans tenantId.symm⟩

end Roster

namespace MockHubService

variable [Platform]

theorem steady_next {op : Op} (serves : Serves op) (hub : MockHubService) :
    hub.roster.Steady (hub.next op).roster := by
  have standing : op ≠ .reset := fun same => by
    rw [same] at serves
    exact serves
  refine (changes_next op hub standing).steady ?_
  cases op with
  | registry op =>
    cases op with
    | register => rfl
    | setPaused => rfl
    | _ => exact serves.elim
  | retireHostRunner => exact serves.elim
  | _ => rfl

section Gate

variable {hub : MockHubService} {token : Option String} {c r : String}

omit [Platform] in
theorem answer_principal_iff : answer (principal token) hub = .ok r ↔ hub.roster.Names token r := by
  cases token with
  | none =>
    apply iff_of_false
    · intro named
      cases named
    · rintro ⟨t, same, _⟩
      cases same
  | some t =>
    change answer (settle (principalOf hub.store.toRegistry t)) hub = _ ↔ _
    rw [answer_settle]
    simp only [principalOf, Registry.runnerForToken, Roster.Names]
    change _ ↔ ∃ t', some t = some t' ∧
      hub.store.tokens.get? t' = some r ∧ (hub.store.runners.get? r).isSome
    cases held : hub.store.tokens.get? t with
    | none => 
      apply iff_of_false
      · intro named
        dsimp only [Option.bind] at named
        split at named <;> cases named
      · rintro ⟨t', same, owned, _⟩
        cases same
        rw [held] at owned
        cases owned
    | some owner =>
      dsimp only [Option.bind]
      cases row : hub.store.runners.get? owner with
      | none =>
        apply iff_of_false
        · intro named
          dsimp only at named
          split at named <;> cases named
        · rintro ⟨t', same, owned, there⟩
          cases same
          rw [held] at owned
          cases owned
          rw [row] at there
          cases there
      | some runner =>
        have filed : runner.runnerId = owner := Table.key_of_get? row
        dsimp only
        rw [filed, Except.ok.injEq]
        constructor
        · intro same
          cases same
          exact ⟨t, rfl, held, by rw [row]; rfl⟩
        · rintro ⟨t', same, owned, _⟩
          cases same
          rw [held] at owned
          exact Option.some.inj owned

omit [Platform] in
theorem answer_refuseRetiredRunner {action projectId : String}
    (works : hub.roster.Works r projectId) :
    answer (refuseRetiredRunner r action) hub = .ok () := by
  obtain ⟨row, _, held, active, _⟩ := works
  have held : hub.store.runners.get? r = some row := held
  change answer (refuseIf ((hub.store.runners.get? r).any (·.retiredAt.isSome)) _) hub = _
  rw [held]
  simp [active]

omit [Platform] in
theorem answer_requireRunnerChunk {chunk : ChunkState} :
    answer (requireRunnerChunk c r) hub = .ok chunk ↔ hub.chunks.get? c = some chunk ∧
      ∃ project row, hub.store.projects.get? chunk.projectId = some project ∧
        hub.store.runners.get? r = some row ∧ project.tenantId = row.tenantId := by
  simp only [requireRunnerChunk, answer_bind_ok_iff]
  constructor
  · rintro ⟨found, held, projects, read, project, known, row, there, _, shared, same⟩
    change Except.ok _ = Except.ok projects at read
    change Except.ok found = Except.ok chunk at same
    cases read
    cases same
    exact ⟨found_of_require rfl held, project, row, orRaise_ok.mp known, orRaise_ok.mp there,
      not_not.mp (refuseIf_ok.mp shared)⟩
  · rintro ⟨held, project, row, known, there, shared⟩
    refine ⟨chunk, answer_require held, _, rfl, project, orRaise_ok.mpr known, row,
      answer_added_some there, ⟨⟩,
      refuseIf_ok.mpr (not_not.mpr shared), rfl⟩

end Gate

end MockHubService

end BlizzardMock.MockHub
