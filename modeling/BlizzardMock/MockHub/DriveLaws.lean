import BlizzardMock.Data.Flat
import BlizzardMock.MockHub.ClaimLaws
import BlizzardMock.MockHub.FootingLaws

namespace BlizzardMock.MockHub

open Method

namespace Footing

variable (f : Footing)

/-- What a completion is answered with, and where it leaves the chunk: again, turned down, or taken.
-/
inductive Applies (n : String) (e : Int) (outcome : ApplyOutcome) : Footing → Prop
  | again (applied : f.applied.get? (ChunkState.appliedKey n e) = some outcome) :
    Applies n e outcome f
  | refused (new : f.applied.get? (ChunkState.appliedKey n e) = none)
      (failed : outcome = .failure) :
    Applies n e outcome f
  | taken (node : Option String) (new : f.applied.get? (ChunkState.appliedKey n e) = none)
      (current : f.epoch ≤ e) (known : n ∈ f.nodes)
      (stands : outcome = .next → ∃ m ∈ f.nodes, node = some m) :
    Applies n e outcome { f with
      node
      applied := f.applied.set (ChunkState.appliedKey n e) outcome }

def Hands (response : ApplyResponse) : Prop :=
  ∀ envelope, response.nextEnvelope = some envelope →
    f.node = some envelope.node.nodeId ∧ envelope.epoch = f.epoch

def Completes (n : String) (e : Int) (later : Footing) : Except HubError ApplyResponse → Prop
  | .ok response => f.Applies n e response.outcome later ∧ later.Hands response
  | .error _ => later = f ∧ f.applied.get? (ChunkState.appliedKey n e) = some .next ∧
      ∃ m, f.node = some m ∧ m ∉ f.nodes

def Submits (n : String) (e : Int) (later : Footing) (answered : Except HubError ApplyResponse) :
    Prop :=
  ∃ mid, f.Completes n e mid answered ∧ (later = mid ∨ ∃ again, mid.Completes n e later again)

def Within (bound : Int) : Prop :=
  ∀ key ∈ f.applied, ∃ n e, key = ChunkState.appliedKey n e ∧ 0 ≤ e ∧ e < bound

def Advances (n : String) (e : Int) (later : Footing) : Prop :=
  f.applied.get? (ChunkState.appliedKey n e) = none ∧ ∃ node outcome,
    later = { f with node, applied := f.applied.set (ChunkState.appliedKey n e) outcome } ∧
      (outcome = .next → ∃ m ∈ f.nodes, node = some m)

variable {f} {later mid : Footing} {n n' : String} {e e' bound : Int} {outcome o : ApplyOutcome}
  {answered : Except HubError ApplyResponse}

theorem appliedKey_inj (he : 0 ≤ e) (he' : 0 ≤ e')
    (same : ChunkState.appliedKey n e = ChunkState.appliedKey n' e') : n = n' ∧ e = e' := by
  have parts := Flat.join_inj_last (c := '#') rfl (Flat.notMem_toString_int rfl he)
    (Flat.notMem_toString_int rfl he') same
  exact ⟨parts.1, Flat.toString_int_inj he he' parts.2⟩

theorem Within.mono (within : f.Within bound) {further : Int} (le : bound ≤ further) :
    f.Within further := by
  intro key mem
  obtain ⟨n, e, spelled, nonneg, below⟩ := within key mem
  exact ⟨n, e, spelled, nonneg, below.trans_le le⟩

theorem Within.new (within : f.Within bound) (nonneg : 0 ≤ e) (beyond : bound ≤ e) :
    f.applied.get? (ChunkState.appliedKey n e) = none := by
  refine Dict.not_mem_iff.mp fun mem => ?_
  obtain ⟨n', e', spelled, nonneg', below⟩ := within _ mem
  rw [← (appliedKey_inj nonneg nonneg' spelled).2] at below
  exact absurd (below.trans_le beyond) (lt_irrefl e)

structure Same (f later : Footing) : Prop where
  epoch : later.epoch = f.epoch
  nodes : later.nodes = f.nodes
  projectId : later.projectId = f.projectId

theorem Same.trans (first : f.Same mid) (second : mid.Same later) : f.Same later :=
  ⟨second.epoch.trans first.epoch, second.nodes.trans first.nodes,
    second.projectId.trans first.projectId⟩

theorem Applies.same (applies : f.Applies n e outcome later) : f.Same later := by
  cases applies <;> exact ⟨rfl, rfl, rfl⟩

theorem Applies.within (applies : f.Applies n e outcome later) (nonneg : 0 ≤ e) (below : e < bound)
    (within : f.Within bound) : later.Within bound := by
  cases applies with
  | again => exact within
  | refused => exact within
  | taken =>
    intro key mem
    by_cases same : key = ChunkState.appliedKey n e
    · exact ⟨n, e, same, nonneg, below⟩
    · obtain ⟨before, found⟩ := Dict.mem_iff.mp mem
      have found := (Dict.get?_set_of_ne same _ _).symm.trans found
      exact within key (Dict.mem_iff.mpr ⟨before, found⟩)

theorem Applies.settled (applies : f.Applies n e outcome later)
    (applied : f.applied.get? (ChunkState.appliedKey n e) = some o) : later = f ∧ outcome = o := by
  cases applies with
  | again same => exact ⟨rfl, Option.some.inj (same.symm.trans applied)⟩
  | refused new => cases new.symm.trans applied
  | taken _ new => cases new.symm.trans applied

theorem Applies.applied (applies : f.Applies n e outcome later) (went : outcome ≠ .failure) :
    later.applied.get? (ChunkState.appliedKey n e) = some outcome := by
  cases applies with
  | again same => exact same
  | refused _ failed => exact absurd failed went
  | taken => exact Dict.get?_set_self _ _ _

theorem Completes.same (completes : f.Completes n e later answered) : f.Same later := by
  cases answered with
  | ok response => exact completes.1.same
  | error error =>
    rw [completes.1]
    exact ⟨rfl, rfl, rfl⟩

theorem Completes.within (completes : f.Completes n e later answered) (nonneg : 0 ≤ e)
    (below : e < bound)
    (within : f.Within bound) : later.Within bound := by
  cases answered with
  | ok response => exact completes.1.within nonneg below within
  | error error =>
    rw [completes.1]
    exact within

theorem Completes.settled (completes : f.Completes n e later answered)
    (applied : f.applied.get? (ChunkState.appliedKey n e) = some o) : later = f := by
  cases answered with
  | ok response => exact (completes.1.settled applied).1
  | error error => exact completes.1

theorem Submits.same (submits : f.Submits n e later answered) : f.Same later := by
  obtain ⟨mid, first, rest⟩ := submits
  cases rest with
  | inl once =>
    rw [once]
    exact first.same
  | inr twice => exact twice.elim fun _ second => first.same.trans second.same

theorem Submits.within (submits : f.Submits n e later answered) (nonneg : 0 ≤ e) (below : e < bound)
    (within : f.Within bound) : later.Within bound := by
  obtain ⟨mid, first, rest⟩ := submits
  have within := first.within nonneg below within
  cases rest with
  | inl once =>
    rw [once]
    exact within
  | inr twice => exact twice.elim fun _ second => second.within nonneg below within

theorem Submits.raised {error : HubError} (submits : f.Submits n e later (.error error)) :
    later = f := by
  obtain ⟨mid, ⟨same, applied, _⟩, rest⟩ := submits
  subst same
  cases rest with
  | inl once => exact once
  | inr twice => exact twice.elim fun _ second => second.settled applied

theorem Submits.hands {response : ApplyResponse} (submits : f.Submits n e later (.ok response))
    (next : response.outcome = .next) : later.Hands response := by
  obtain ⟨mid, ⟨applies, hands⟩, rest⟩ := submits
  cases rest with
  | inl once =>
    rw [once]
    exact hands
  | inr twice =>
    obtain ⟨_, second⟩ := twice
    have went : response.outcome ≠ .failure := by
      rw [next]
      decide
    rw [second.settled (applies.applied went)]
    exact hands

/-- What a driver may send instead of a completion: of another node of no graph, or of an epoch
past. -/
structure Distorts (f : Footing) (n : String) (e : Int) (n' : String) (e' : Int) : Prop where
  node : n' = n ∨ n' ∉ f.nodes
  epoch : e' = e ∨ e' < f.epoch

theorem Completes.owing {now : Footing} (completes : now.Completes n' e' later answered)
    (distorts : f.Distorts n e n' e') (new : f.applied.get? (ChunkState.appliedKey n e) = none)
    (owing : now = f ∨ f.Advances n e now) : later = f ∨ f.Advances n e later := by
  cases answered with
  | error error =>
    rw [completes.1]
    exact owing
  | ok response =>
    cases completes.1 with
    | again => exact owing
    | refused => exact owing
    | taken node unapplied current known stands =>
      cases owing with
      | inl same =>
        subst same
        cases distorts.node.resolve_right (not_not.mpr known)
        cases distorts.epoch.resolve_right (not_lt.mpr current)
        exact .inr ⟨new, node, _, rfl, stands⟩
      | inr advances =>
        obtain ⟨_, _, _, same, _⟩ := advances
        subst same
        cases distorts.node.resolve_right (not_not.mpr known)
        cases distorts.epoch.resolve_right (not_lt.mpr current)
        rw [Dict.get?_set_self] at unapplied
        cases unapplied

theorem Submits.owing {now : Footing} (submits : now.Submits n' e' later answered)
    (distorts : f.Distorts n e n' e') (new : f.applied.get? (ChunkState.appliedKey n e) = none)
    (owing : now = f ∨ f.Advances n e now) : later = f ∨ f.Advances n e later := by
  obtain ⟨mid, first, rest⟩ := submits
  have owing := first.owing distorts new owing
  cases rest with
  | inl once =>
    rw [once]
    exact owing
  | inr twice => exact twice.elim fun _ second => second.owing distorts new owing

theorem Completes.recovers {now : Footing} (completes : now.Completes n e later answered)
    (new : f.applied.get? (ChunkState.appliedKey n e) = none)
    (owing : now = f ∨ f.Advances n e now) :
    ∃ response, answered = .ok response ∧
      (f.Advances n e later ∨ response.outcome = .failure ∧ later = f) := by
  cases owing with
  | inl same =>
    subst same
    cases answered with
    | error error => cases new.symm.trans completes.2.1
    | ok response =>
      refine ⟨response, rfl, ?_⟩
      cases completes.1 with
      | again applied => cases new.symm.trans applied
      | refused _ failed => exact .inr ⟨failed, rfl⟩
      | taken node _ _ _ stands => exact .inl ⟨new, node, _, rfl, stands⟩
  | inr advances =>
    have stepped := advances
    obtain ⟨_, node, outcome, same, stands⟩ := stepped
    have applied : now.applied.get? (ChunkState.appliedKey n e) = some outcome := by
      rw [same]
      exact Dict.get?_set_self _ _ _
    cases answered with
    | error error =>
      obtain ⟨_, went, m, stood, astray⟩ := completes
      cases Option.some.inj (applied.symm.trans went)
      obtain ⟨m', mem, stands⟩ := stands rfl
      rw [same] at stood astray
      cases stands.symm.trans stood
      exact absurd mem astray
    | ok response =>
      refine ⟨response, rfl, .inl ?_⟩
      rw [(completes.1.settled applied).1]
      exact advances

end Footing

namespace ChunkState

variable [Unicode] {chunk : ChunkState}

theorem nodeEnvelope_stands {nodeId : String} {e : Int} {envelope : NodeEnvelope}
    (built : chunk.nodeEnvelope nodeId e = .ok envelope) :
    nodeId ∈ chunk.nodes ∧ envelope.node.nodeId = nodeId ∧ envelope.epoch = e := by
  simp only [nodeEnvelope] at built
  cases held : chunk.node nodeId with
  | none =>
    rw [held] at built
    cases built
  | some node =>
    rw [held] at built
    cases built
    exact ⟨node_mem held, rfl, rfl⟩

theorem nodeEnvelope_missing {nodeId : String} {e : Int} {error : HubError}
    (raised : chunk.nodeEnvelope nodeId e = .error error) : nodeId ∉ chunk.nodes := by
  intro mem
  obtain ⟨envelope, built⟩ := nodeEnvelope_of_mem mem e
  rw [raised] at built
  cases built

theorem rebuild_completes {n : String} {e : Int} {outcome : ApplyOutcome}
    (applied : chunk.applied.get? (appliedKey n e) = some outcome) :
    chunk.footing.Completes n e chunk.footing (chunk.rebuild outcome) := by
  cases built : chunk.rebuild outcome with
  | ok response =>
    have outcome_eq := rebuild_outcome built
    refine ⟨.again (outcome_eq ▸ applied), fun envelope handed => ?_⟩
    simp only [rebuild] at built
    split at built
    case isFalse =>
      cases built
      cases handed
    case isTrue =>
      cases current : chunk.currentNodeId with
      | none =>
        rw [current] at built
        cases built
        cases handed
      | some nodeId =>
        rw [current] at built
        dsimp only at built
        cases made : chunk.nodeEnvelope nodeId chunk.latestEpoch with
        | error error =>
          rw [made] at built
          cases built
        | ok next =>
          rw [made] at built
          cases built
          cases handed
          obtain ⟨_, node, epoch⟩ := nodeEnvelope_stands made
          exact ⟨current.trans (congrArg some node.symm), epoch⟩
  | error error =>
    simp only [rebuild] at built
    split at built
    case isFalse => cases built
    case isTrue next =>
      cases current : chunk.currentNodeId with
      | none =>
        rw [current] at built
        cases built
      | some nodeId =>
        rw [current] at built
        dsimp only at built
        cases made : chunk.nodeEnvelope nodeId chunk.latestEpoch with
        | error error =>
          rw [next] at applied
          exact ⟨rfl, applied, nodeId, current, nodeEnvelope_missing made⟩
        | ok next =>
          rw [made] at built
          cases built

theorem advance_hands {target : String} {response : ApplyResponse}
    (answered : (chunk.advance target).2 = .ok response) :
    (chunk.advance target).1.footing.Hands response := by
  intro envelope handed
  simp only [advance] at answered ⊢
  split at answered
  case isTrue =>
    cases answered
    cases handed
  case isFalse h =>
    cases held : chunk.node target with
    | none =>
      rw [held] at answered
      cases answered
      cases handed
    | some node =>
      rw [held] at answered
      dsimp only at answered ⊢
      split at answered
      case isTrue =>
        cases answered
        cases handed
      case isFalse runs =>
        cases made : chunk.nodeEnvelope target chunk.latestEpoch with
        | error error =>
          rw [made] at answered
          cases answered
        | ok next =>
          rw [made] at answered
          cases answered
          cases handed
          obtain ⟨_, node, epoch⟩ := nodeEnvelope_stands made
          rw [if_neg h, if_neg runs]
          exact ⟨congrArg some node.symm, epoch⟩

omit [Unicode] in
theorem Landing.applies {target n : String} {e : Int} {next : ChunkState}
    {response : ApplyResponse} (landing : chunk.Landing target next response)
    (new : chunk.applied.get? (appliedKey n e) = none) (current : chunk.latestEpoch ≤ e)
    (known : n ∈ chunk.nodes) :
    chunk.footing.Applies n e response.outcome
      (next.recorded (appliedKey n e) response).footing := by
  have stands : response.outcome = .next → ∃ m ∈ chunk.nodes, next.currentNodeId = some m := by
    intro outcome
    cases landing with
    | runnerNode _ _ _ held => exact ⟨target, node_mem held, rfl⟩
    | finished _ _ other => cases outcome.symm.trans other
    | nowhere _ _ _ other => cases outcome.symm.trans other
    | hubNode _ _ _ _ other => cases outcome.symm.trans other
  have taken := Footing.Applies.taken
    (f := chunk.footing) next.currentNodeId new current known stands
  cases landing <;> exact taken

end ChunkState

namespace MockHubService

variable [Platform] {hub : MockHubService} {c : String} {f : Footing}

theorem applyCompletion_completes (unarmed : hub.levers = ∅)
    (stays : hub.footing c = some f) (e : Int)
    (n choice : String) :
    ∃ later, (hub.next (.applyCompletion c e n choice)).footing c = some later ∧
      f.Completes n e later (answer (applyCompletion c e n choice) hub) := by
  obtain ⟨chunk, held, same⟩ := Option.map_eq_some_iff.mp stays
  subst same
  have filed : chunk.chunkId = c := Table.key_of_get? held
  have unpinned : hub.Unpinned c := lever_unarmed unarmed _ _
  have unreplayed : hub.Unreplayed c := lever_unarmed unarmed _ _
  cases new : chunk.applied.get? (ChunkState.appliedKey n e) with
  | some outcome =>
    obtain ⟨answered, same⟩ := applyCompletion_again held new unpinned unreplayed choice
    refine ⟨chunk.footing, ?_, ?_⟩
    · change (Method.after (applyCompletion c e n choice) hub).footing c = _
      rw [same, stays]
    · rw [answered]
      exact ChunkState.rebuild_completes new
  | none =>
    cases chosen : chunk.completionTarget (openQuestionIds hub.store.toHubRows c e) e n choice with
    | error detail =>
      have run := applyCompletion_refused held unpinned unreplayed new chosen
      refine ⟨chunk.footing, ?_, ?_⟩
      · change (Method.after (applyCompletion c e n choice) hub).footing c = _
        rw [after_of_run_ok run, stays]
      · rw [answer_of_run_ok run]
        refine ⟨.refused new rfl, fun envelope handed => ?_⟩
        cases handed
    | ok target =>
      have accepted := ChunkState.completionTarget_ok.mp chosen
      obtain ⟨response, answered, landing⟩ := chunk.advance_landing target
      have run : (applyCompletion c e n choice).run hub =
          .ok response { hub with store.chunks := (hub.chunks.put (chunk.advance target).1).put <|
            (chunk.advance target).1.recorded (ChunkState.appliedKey n e) response } := by
        rw [run_applyCompletion held unpinned unreplayed]
        simp only [judgeCompletion, new, chosen, answered]
        rfl
      have filed : ((chunk.advance target).1.recorded
        (ChunkState.appliedKey n e) response).chunkId = c :=
        landing.chunkId.trans filed
      obtain ⟨node, known, _⟩ := Option.bind_eq_some_iff.mp accepted.2.2.2
      have put : (hub.next (.applyCompletion c e n choice)).chunks = (hub.chunks.put _).put _ :=
        congrArg chunks (after_of_run_ok run)
      have later := footing_put_self put
      rw [filed] at later
      refine ⟨_, later, ?_⟩
      rw [answer_of_run_ok run]
      exact ⟨landing.applies new accepted.1 (ChunkState.node_mem known),
        ChunkState.advance_hands answered⟩

omit [Platform] in
theorem answer_refuseForeignRunnerChunk {r : String} {chunk : ChunkState}
    (held : hub.chunks.get? c = some chunk) :
    answer (refuseForeignRunnerChunk c r) hub = .ok () ↔
      ∃ project row, hub.store.projects.get? chunk.projectId = some project ∧
        hub.store.runners.get? r = some row ∧ project.tenantId = row.tenantId := by
  constructor
  · intro own
    obtain ⟨found, read, own⟩ := answer_bind_ok_iff.mp own
    have read : hub.chunks.get? c = found := Except.ok.inj read
    rw [held] at read
    subst read
    obtain ⟨_, required, _⟩ := answer_bind_ok_iff.mp own
    obtain ⟨same, shared⟩ := answer_requireRunnerChunk.mp required
    rw [held] at same
    cases same
    exact shared
  · intro shared
    refine answer_bind_ok_iff.mpr ⟨some chunk, congrArg Except.ok held, ?_⟩
    exact answer_bind_ok_iff.mpr ⟨chunk, answer_requireRunnerChunk.mpr ⟨held, shared⟩, rfl⟩

omit [Platform] in
theorem active_of_refuseRetiredRunner {r action : String} {row : RunnerRow}
    (there : hub.store.runners.get? r = some row)
    (active : answer (refuseRetiredRunner r action) hub = .ok ()) : row.retiredAt = none := by
  change answer (refuseIf ((hub.store.runners.get? r).any (·.retiredAt.isSome)) _) hub = _ at active
  rw [there] at active
  have live := refuseIf_ok.mp active
  cases retired : row.retiredAt with
  | none => rfl
  | some instant => simp [retired] at live

/-- A claim that is refused writes nothing; one that is granted enters the chunk for a runner at
work. -/
def Grants (hub : MockHubService) (c r : String) (answered : Except HubError RouteClaimResponse)
    (later : MockHubService) : Prop :=
  match answered with
  | .error _ => later = hub
  | .ok response =>
    ∃ f, hub.footing c = some f ∧ hub.roster.Works r f.projectId ∧ response.chunkId = c ∧
      response.envelope.epoch = f.epoch ∧
      later.footing c = some { f with node := some response.envelope.node.nodeId }

theorem claim_grants (unarmed : hub.levers = ∅) (placed : hub.AllChunks ChunkState.Placed)
    (c r w : String) (es : List String) :
    let granted : HubM RouteClaimResponse := do
      refuseForeignRunnerChunk c r
      claim c r w es
    hub.Grants c r (answer granted hub) (Method.after granted hub) := by
  refine outcome_bind_of_rests (P := hub.Grants c r) unarmed (fun _ _ => rfl) fun _ own => ?_
  simp only [claim]
  refine outcome_bind_of_rests (P := hub.Grants c r) unarmed (fun _ _ => rfl) fun chunk found => ?_
  have held := found_of_require rfl found
  refine outcome_bind_of_rests (P := hub.Grants c r) unarmed (fun _ _ => rfl) fun _ _ => ?_
  refine outcome_bind_of_rests (P := hub.Grants c r) unarmed (fun _ _ => rfl) fun _ active => ?_
  refine outcome_bind_of_rests (P := hub.Grants c r) unarmed (fun _ _ => rfl) fun _ _ => ?_
  refine outcome_bind_of_rests (P := hub.Grants c r) unarmed (fun _ _ => rfl) fun _ _ => ?_
  refine outcome_bind_of_rests (P := hub.Grants c r) unarmed (fun _ _ => rfl) fun _ allowed => ?_
  obtain ⟨envelope, built⟩ := (placed c chunk held).claim_envelope (free_of_refuseClaimant allowed)
  obtain ⟨_, node, epoch⟩ := ChunkState.nodeEnvelope_stands built
  have works : hub.roster.Works r chunk.projectId := by
    obtain ⟨project, row, known, there, shared⟩ := (answer_refuseForeignRunnerChunk held).mp own
    exact ⟨row, project, there, active_of_refuseRetiredRunner there active, known, shared⟩
  rw [built]
  refine ⟨chunk.footing, congrArg (Option.map ChunkState.footing) held, works, rfl, epoch, ?_⟩
  let entered := chunk.claimedBy r w es chunk.currentOrEntry (claimToken chunk c)
  have filed : chunk.chunkId = c := Table.key_of_get? held
  have filed : entered.chunkId = c := filed
  let routed : MockHubService := { hub with store.chunks := hub.chunks.put entered }
  have put : routed.chunks = hub.chunks.put entered := rfl
  have later := footing_put_self put
  rw [filed] at later
  rw [node]
  exact later

theorem footing_ingest_minted {r : String} {fact : Fact} {epoch : Int}
    (stays : hub.footing c = some f)
    (new : hub.factHighWater.getD r 0 < fact.seq) (minted : fact.kind = leaseMinted)
    (about : chunkIdOf fact.payload = c) (read : epochOf fact.payload = .ok epoch) :
    (Method.after (ingestFacts r [fact]) hub).footing c = some
      { f with epoch := max f.epoch epoch } := by
  obtain ⟨chunk, held, same⟩ := Option.map_eq_some_iff.mp stays
  subst same
  rw [← about] at held
  have written : (Method.after (ingestFacts r [fact]) hub).chunks = hub.chunks.put
    (chunk.fenced epoch) := by
    rw [← chunks_mint (r := r) held read, ← minted]
    change (Method.after ((factLane r).push [fact] (hub.factHighWater.getD r 0) >>= _) hub).chunks =
      _
    rw [push_single new]
    cases judged : answer (applyFact r fact.kind fact.payload) hub with
    | error error => rw [after_bind_of_error _ (answer_bind_of_error _ judged _), after_bind_pure]
    | ok accepted =>
      rw [after_bind_of_ok _ (answer_bind_of_ok _ judged _), after_bind_pure hub]
      rfl
  have filed : chunk.chunkId = chunkIdOf fact.payload := Table.key_of_get? held
  have later := footing_put_self written
  rw [← about, ← filed]
  exact later

end MockHubService

namespace Api

open MockHubService

variable [Platform] {hub : MockHubService} {token : Option String} {c r : String} {f : Footing}

omit [Platform] in
theorem run_fleet_working {α : Type} (unarmed : hub.levers = ∅) (named : hub.roster.Names token r)
    (works : hub.roster.Works r f.projectId) (route : String → HubM (Reply α)) :
    (fleet token route).run hub = (route r).run hub := by
  rw [run_fleet unarmed, answer_principal_iff.mpr named]
  dsimp only
  rw [answer_refuseRetiredRunner works]

omit [Platform] in
theorem answer_own (stays : hub.footing c = some f) (works : hub.roster.Works r f.projectId) :
    answer (refuseForeignRunnerChunk c r) hub = .ok () := by
  obtain ⟨chunk, held, same⟩ := Option.map_eq_some_iff.mp stays
  subst same
  obtain ⟨row, project, there, _, known, shared⟩ := works
  exact (answer_refuseForeignRunnerChunk held).mpr ⟨project, row, known, there, shared⟩

theorem run_submitCompletion_working (unarmed : hub.levers = ∅) (stays : hub.footing c = some f)
    (named : hub.roster.Names token r) (works : hub.roster.Works r f.projectId) (e : Int)
    (n choice : String) :
    (submitCompletion token c e n choice).run hub =
      match answer (applyCompletion c e n choice) hub with
      | .ok response => .ok (.served 200 response) (hub.next (.applyCompletion c e n choice))
      | .error error =>
        .ok (.refused (chunkRefusal error).1 (some error))
          (hub.next (.applyCompletion c e n choice)) := by
  rw [run_submitCompletion token c e n choice unarmed, run_fleet_working unarmed named works,
    run_runnerChunk unarmed, answer_own stays works]
  dsimp only
  rw [run_serve unarmed]
  cases answer (applyCompletion c e n choice) hub <;> rfl

/-- What the route of a claim comes to. -/
def Grants (hub : MockHubService) (token : Option String) (c : String) (later : MockHubService) :
    Reply RouteClaimResponse → Prop
  | .refused .. => later = hub
  | .served _ response => ∃ r, hub.roster.Names token r ∧ hub.Grants c r (.ok response) later

theorem run_claimRoute (unarmed : hub.levers = ∅) (placed : hub.AllChunks ChunkState.Placed)
    (token : Option String) (c w : String) (es : List String) :
    ∃ reply later, (claimRoute token c w es).run hub = .ok reply later ∧
      Grants hub token c later reply := by
  rw [claimRoute, run_dispatch unarmed, run_claimGate unarmed]
  cases named : answer (principal token) hub with
  | error error => exact ⟨_, _, rfl, rfl⟩
  | ok r =>
    dsimp only
    rw [run_serve unarmed]
    have grants := claim_grants unarmed placed c r w es
    dsimp only at grants
    generalize answer (refuseForeignRunnerChunk c r >>= fun _ => claim c r w es) hub =
      answered at grants ⊢
    cases answered with
    | error error => exact ⟨_, _, rfl, grants⟩
    | ok response => exact ⟨_, _, rfl, r, answer_principal_iff.mp named, grants⟩

theorem footing_pushFacts_minted {fact : Fact} {epoch : Int} (unarmed : hub.levers = ∅)
    (stays : hub.footing c = some f) (named : hub.roster.Names token r)
    (works : hub.roster.Works r f.projectId) (new : hub.factHighWater.getD r 0 < fact.seq)
    (minted : fact.kind = leaseMinted) (about : chunkIdOf fact.payload = c)
    (read : epochOf fact.payload = .ok epoch) :
    (after (pushFacts token [fact]) hub).footing c = some
      { f with epoch := max f.epoch epoch } := by
  have run : (pushFacts token [fact]).run hub =
      (serve 200 (fun error => (unhandled error, none)) none (ingestFacts r [fact])).run hub := by
    rw [pushFacts, run_dispatch unarmed, run_fleet_working unarmed named works]
  rw [run_serve unarmed] at run
  rw [← footing_ingest_minted stays new minted about read]
  cases answered : answer (ingestFacts r [fact]) hub with
  | error error =>
    rw [answered] at run
    rw [after_of_run_ok run]
  | ok ack =>
    rw [answered] at run
    rw [after_of_run_ok run]

end Api

end BlizzardMock.MockHub
