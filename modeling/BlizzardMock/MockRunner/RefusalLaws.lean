import BlizzardMock.MockHub.ClaimReply
import BlizzardMock.MockHub.DriveLaws
import BlizzardMock.MockRunner.ClaimRefusal

namespace BlizzardMock.MockHub

open Method MockRunner

def HubError.claimReading : HubError → Option ClaimRefusal
  | .claimDeniedUnregistered _ | .claimDeniedPaused _ | .claimRunnerLeverRefusal ..
    | .runnerRetired .. => some .paused
  | .claimDeniedTerminal .. | .claimDeniedNotReady .. => some .terminal
  | .claimConflict _ => some .conflict
  | .dependencyUnmet _ => some .dependency
  | .claimIncompatible .. => some .incompatible
  | .chunkNotFound _ | .pinnedGraphMissing => some .unexpected
  | _ => none

theorem classify_claimReply [Unicode] {e : HubError} {why : ClaimRefusal}
    (reading : e.claimReading = some why)
    (legacy : Bool) (c : String) : ∃ reply, Api.claimReply legacy c e = some reply ∧
      classifyClaimRefusal reply.1 reply.2 = why := by
  cases e
  case claimRunnerLeverRefusal kind r detail =>
    cases reading
    simp only [Api.claimReply, Api.claimProblem]
    split <;> cases legacy <;> exact ⟨_, rfl, rfl⟩
  all_goals cases reading
  all_goals cases legacy <;> exact ⟨_, rfl, rfl⟩

namespace MockHubService

def Shares (hub : MockHubService) (r : String) (chunk : ChunkState) : Prop :=
  ∃ project row, hub.store.projects.get? chunk.projectId = some project ∧
    hub.store.runners.get? r = some row ∧ project.tenantId = row.tenantId

/-- What stands in the way of a claim, by the class its refusal is read as. -/
def Bears (hub : MockHubService) (c r : String) : ClaimRefusal → Prop
  | .unexpected =>
    (∀ chunk, hub.chunks.get? c = some chunk → ¬ hub.Shares r chunk) ∨
      (lever hub.levers .pinnedGraphMissing (some c)).isSome
  | .paused =>
    (∀ row, hub.store.runners.get? r = some row → row.retiredAt.isSome ∨ row.NeverConnected ∨
      row.paused = true) ∨
      ∃ kind, (kind = .claimRunnerRetired ∨ kind = .claimRunnerVersionRefused) ∧
        ((lever hub.levers kind (some c)).filter (claimLeverNames · r)).isSome
  | .terminal => ∃ chunk, hub.chunks.get? c = some chunk ∧
      (chunk.Ended ∨ chunk.claimed = false ∧ chunk.status ≠ .ready)
  | .conflict => ∃ chunk, hub.chunks.get? c = some chunk ∧ ¬ chunk.Ended ∧ chunk.claimed = true
  | .dependency => (lever hub.levers .dependencyUnmet (some c)).isSome
  | .incompatible => ∃ chunk row, hub.chunks.get? c = some chunk ∧ hub.store.runners.get? r = some row ∧
      (chunk.projectId ∉ servedProjectIds row ∨
        Matching.capabilityIneligible chunk chunk.currentOrEntry row.capabilities = true)

/-- A call that answers to `Q`, or raises what stands in the claim's way. -/
def Reports (hub : MockHubService) (c r : String) {α : Type} (Q : α → Prop) :
    Except HubError α → Prop
  | .ok a => Q a
  | .error e => ∃ why, e.claimReading = some why ∧ hub.Bears c r why

section Ladder

variable {α β : Type} {hub : MockHubService} {c r : String} {chunk : ChunkState} {row : RunnerRow}

theorem reports_bind {P : α → Prop} {Q : β → Prop} {m : HubM α} {g : α → HubM β}
    (guards : hub.Guards (answer m hub) (Method.after m hub))
    (first : hub.Reports c r P (answer m hub))
    (rest : ∀ a, P a → hub.Reports c r Q (answer (g a) hub)) :
    hub.Reports c r Q (answer (m >>= g) hub) := by
  cases answered : answer m hub with
  | error e =>
    rw [answered] at first
    rw [answer_bind_of_error _ answered]
    exact first
  | ok a =>
    have same : Method.after m hub = hub := by rwa [answered] at guards
    rw [answered] at first
    rw [answer_bind_of_ok _ answered, same]
    exact rest a first

theorem Reports.imp {P Q : α → Prop} {outcome : Except HubError α}
    (first : hub.Reports c r P outcome)
    (rest : ∀ a, P a → Q a) : hub.Reports c r Q outcome := by
  cases outcome with
  | ok a => exact rest a first
  | error e => exact first

theorem reports_read {f : MockHubService → α} : hub.Reports c r (· = f hub) (answer (read f) hub) :=
  rfl

theorem reports_refuseIf {p : Prop} [Decidable p] {e : HubError} (why : ClaimRefusal)
    (reading : e.claimReading = some why) (bears : p → hub.Bears c r why) :
    hub.Reports c r (fun _ => ¬ p) (answer (refuseIf p e) hub) := by
  rw [answer_refuseIf]
  split
  case isTrue h => exact ⟨why, reading, bears h⟩
  case isFalse h => exact h

theorem reports_orRaise {found : Option α} {e : HubError} (why : ClaimRefusal)
    (reading : e.claimReading = some why) (bears : found = none → hub.Bears c r why) :
    hub.Reports c r (found = some ·) (answer (orRaise e found) hub) := by
  cases found with
  | none => exact ⟨why, reading, bears rfl⟩
  | some a => rfl

theorem reports_lever {found : Option Lever} {e : Lever → HubError} (why : ClaimRefusal)
    (reading : ∀ armed, (e armed).claimReading = some why)
    (bears : found.isSome → hub.Bears c r why) :
    hub.Reports c r (fun _ => found = none) (answer (whenSome (fun armed => do
      consumeLever armed
      raise (e armed)) found) hub) := by
  cases found with
  | none => rfl
  | some armed => exact ⟨why, reading armed, bears rfl⟩

theorem reports_checkPinnedGraph : hub.Reports c r
    (fun _ => lever hub.levers .pinnedGraphMissing (some c) = none)
    (answer (checkPinnedGraph c) hub) := by
  simp only [checkPinnedGraph]
  apply reports_bind guards_of_keeps reports_read
  intro found read
  subst read
  exact reports_lever .unexpected (fun _ => rfl) .inr

theorem reports_refuseByClaimLever {kind : HubLever} {detail : String}
    (claims : kind = .claimRunnerRetired ∨ kind = .claimRunnerVersionRefused) :
    hub.Reports c r (fun _ => (lever hub.levers kind (some c)).filter (claimLeverNames · r) = none)
      (answer (refuseByClaimLever kind c r detail) hub) := by
  simp only [refuseByClaimLever]
  apply reports_bind guards_of_keeps reports_read
  intro found read
  subst read
  exact reports_lever .paused (fun _ => rfl) fun armed => .inr ⟨kind, claims, armed⟩

theorem reports_refuseRetiredRunner (there : hub.store.runners.get? r = some row) :
    hub.Reports c r (fun _ => ¬ row.retiredAt.isSome)
      (answer (refuseRetiredRunner r "claim") hub) := by
  simp only [refuseRetiredRunner]
  apply reports_bind guards_of_keeps reports_read
  intro found read
  have read : found = some row := read.trans there
  subst read
  refine reports_refuseIf .paused rfl fun retired => .inl fun other found => .inl ?_
  rw [there] at found
  cases found
  exact retired

theorem reports_require :
    hub.Reports c r (fun chunk => hub.chunks.get? c = some chunk) (answer (require c) hub) := by
  simp only [require]
  apply reports_bind guards_of_keeps reports_read
  intro found read
  subst read
  refine reports_orRaise .unexpected rfl fun missing => .inl fun chunk held => ?_
  change hub.chunks.get? c = none at missing
  rw [missing] at held
  cases held

theorem reports_added (there : hub.store.runners.get? r = some row) :
    hub.Reports c r (· = row) (answer (added r) hub) := by
  rw [answer_added_some there]
  rfl

theorem reports_requireRunnerChunk (there : hub.store.runners.get? r = some row) :
    hub.Reports c r (fun chunk => hub.chunks.get? c = some chunk ∧ hub.Shares r chunk)
      (answer (requireRunnerChunk c r) hub) := by
  simp only [requireRunnerChunk]
  apply reports_bind guards_of_keeps reports_require
  intro chunk held
  apply reports_bind guards_of_keeps reports_read
  intro known read
  subst read
  refine reports_bind guards_of_keeps (reports_orRaise .unexpected rfl fun unknown =>
    .inl fun other found shares => ?_)
    fun project known => ?_
  · rw [held] at found
    cases found
    obtain ⟨project, _, known, _⟩ := shares
    cases unknown.symm.trans known
  apply reports_bind guards_of_keeps (reports_added there)
  intro found same
  subst same
  apply reports_bind guards_of_keeps
  · refine reports_refuseIf .unexpected rfl fun foreign => .inl fun other found shares => ?_
    rw [held] at found
    cases found
    obtain ⟨project', row', known', there', shared⟩ := shares
    cases known.symm.trans known'
    cases there.symm.trans there'
    exact foreign shared
  · intro _ shared
    exact ⟨held, project, found, known, there, not_not.mp shared⟩

theorem reports_refuseForeignRunnerChunk (there : hub.store.runners.get? r = some row) :
    hub.Reports c r (fun _ => ∀ chunk, hub.chunks.get? c = some chunk → hub.Shares r chunk)
      (answer (refuseForeignRunnerChunk c r) hub) := by
  simp only [refuseForeignRunnerChunk]
  apply reports_bind guards_of_keeps reports_read
  intro found read
  have read : found = hub.chunks.get? c := read
  cases found with
  | none =>
    intro chunk held
    cases read.trans held
  | some chunk =>
    apply reports_bind guards_of_keeps (reports_requireRunnerChunk there)
    intro other shares chunk held
    cases held.symm.trans shares.1
    exact shares.2

theorem reports_refuseBrakedRunner (there : hub.store.runners.get? r = some row) :
    hub.Reports c r (fun registration =>
      registration = row ∧ ¬ row.NeverConnected ∧ row.paused = false)
      (refuseBrakedRunner (some row) r) := by
  have only {other : RunnerRow} (found : hub.store.runners.get? r = some other) : other = row :=
    Option.some.inj (found.symm.trans there)
  simp only [refuseBrakedRunner]
  split
  case isTrue never =>
    exact ⟨.paused, rfl, .inl fun other found => .inr (.inl (only found ▸ never))⟩
  case isFalse connected =>
    split
    case isTrue paused =>
      exact ⟨.paused, rfl, .inl fun other found => .inr (.inr (only found ▸ paused))⟩
    case isFalse unpaused => exact ⟨rfl, connected, Bool.eq_false_iff.mpr unpaused⟩

theorem reports_refuseClaim (held : hub.chunks.get? c = some chunk) :
    hub.Reports c r (fun _ =>
      ¬ chunk.Ended ∧ chunk.claimed = false ∧ chunk.status = .ready) chunk.refuseClaim := by
  simp only [ChunkState.refuseClaim]
  split
  case isTrue ended => exact ⟨.terminal, rfl, chunk, held, .inl ended⟩
  case isFalse live =>
    split
    case isTrue claimed => exact ⟨.conflict, rfl, chunk, held, live, claimed⟩
    case isFalse unclaimed =>
      have free := Bool.eq_false_iff.mpr unclaimed
      split
      case isTrue unready => exact ⟨.terminal, rfl, chunk, held, .inr ⟨free, unready⟩⟩
      case isFalse ready => exact ⟨live, free, not_not.mp ready⟩

variable [Platform]

structure Suits (hub : MockHubService) (c : String) (chunk : ChunkState) (row : RunnerRow) :
    Prop where
  connected : ¬ row.NeverConnected
  unpaused : row.paused = false
  live : ¬ chunk.Ended
  unclaimed : chunk.claimed = false
  ready : chunk.status = .ready
  unblocked : lever hub.levers .dependencyUnmet (some c) = none
  served : chunk.projectId ∈ servedProjectIds row
  eligible : ¬ Matching.capabilityIneligible chunk chunk.currentOrEntry row.capabilities = true

theorem reports_refuseClaimant (held : hub.chunks.get? c = some chunk)
    (there : hub.store.runners.get? r = some row) :
    hub.Reports c r (fun _ => hub.Suits c chunk row) (answer (refuseClaimant chunk c r) hub) := by
  simp only [refuseClaimant]
  apply reports_bind guards_of_keeps reports_read
  intro found read
  have read : found = some row := read.trans there
  subst read
  apply reports_bind guards_of_keeps (by
    rw [answer_settle]
    exact reports_refuseBrakedRunner there)
  rintro registration ⟨same, connected, unpaused⟩
  subst same
  apply reports_bind guards_of_keeps (by
    rw [answer_settle]
    exact reports_refuseClaim held)
  rintro _ ⟨live, unclaimed, ready⟩
  apply reports_bind guards_of_keeps reports_read
  intro blocked read
  subst read
  apply reports_bind (guards_lever fun _ armed => armed)
    (reports_lever .dependency (fun _ => rfl) fun armed => armed)
  intro _ unblocked
  apply reports_bind guards_of_keeps reports_read
  intro detail _
  apply reports_bind guards_of_keeps
  · exact reports_refuseIf .incompatible rfl fun unserved =>
      ⟨chunk, registration, held, there, .inl unserved⟩
  · intro _ served
    refine (reports_refuseIf .incompatible rfl fun unfit =>
      ⟨chunk, registration, held, there, .inr unfit⟩).imp fun _ eligible => ?_
    exact ⟨connected, unpaused, live, unclaimed, ready, unblocked, not_not.mp served, eligible⟩

omit [Platform] in
theorem Suits.unborne (suits : hub.Suits c chunk row) (held : hub.chunks.get? c = some chunk)
    (there : hub.store.runners.get? r = some row) (shares : hub.Shares r chunk)
    (pinned : lever hub.levers .pinnedGraphMissing (some c) = none)
    (active : ¬ row.retiredAt.isSome)
    (unarmed : ∀ kind, kind = .claimRunnerRetired ∨ kind = .claimRunnerVersionRefused →
      (lever hub.levers kind (some c)).filter (claimLeverNames · r) = none) (why : ClaimRefusal) :
    ¬ hub.Bears c r why := by
  have only {other : ChunkState} (found : hub.chunks.get? c = some other) : other = chunk :=
    Option.some.inj (found.symm.trans held)
  intro bears
  cases why with
  | unexpected =>
    rcases bears with foreign | armed
    · exact foreign chunk held shares
    · simp [pinned] at armed
  | paused =>
    rcases bears with braked | ⟨kind, claims, armed⟩
    · rcases braked row there with retired | never | paused
      · exact active retired
      · exact suits.connected never
      · simp [suits.unpaused] at paused
    · simp [unarmed kind claims] at armed
  | terminal =>
    obtain ⟨other, found, ended⟩ := bears
    rw [only found] at ended
    rcases ended with ended | ⟨_, unready⟩
    · exact suits.live ended
    · exact unready suits.ready
  | conflict =>
    obtain ⟨other, found, _, claimed⟩ := bears
    rw [only found, suits.unclaimed] at claimed
    cases claimed
  | dependency =>
    rw [Bears, suits.unblocked] at bears
    cases bears
  | incompatible =>
    obtain ⟨other, other', found, found', unfit⟩ := bears
    cases only found
    cases there.symm.trans found'
    rcases unfit with unserved | ineligible
    · exact unserved suits.served
    · exact suits.eligible ineligible

theorem reports_claim (placed : hub.AllChunks ChunkState.Placed)
    (there : hub.store.runners.get? r = some row)
    (shares : ∀ chunk, hub.chunks.get? c = some chunk → hub.Shares r chunk) (w : String)
    (es : List String) :
    hub.Reports c r (fun _ => ∀ why, ¬ hub.Bears c r why) (answer (claim c r w es) hub) := by
  simp only [claim]
  apply reports_bind guards_of_keeps reports_require
  intro chunk held
  apply reports_bind (guards_checkPinnedGraph c) reports_checkPinnedGraph
  intro _ pinned
  apply reports_bind (guards_refuseRetiredRunner r "claim") (reports_refuseRetiredRunner there)
  intro _ active
  apply reports_bind (guards_refuseByClaimLever _ c r _) (reports_refuseByClaimLever (.inl rfl))
  intro _ retiring
  apply reports_bind (guards_refuseByClaimLever _ c r _) (reports_refuseByClaimLever (.inr rfl))
  intro _ refusing
  cases allowed : answer (refuseClaimant chunk c r) hub with
  | error e =>
    have raised := reports_refuseClaimant held there
    rw [allowed] at raised
    rw [answer_bind_of_error _ allowed]
    exact raised
  | ok _ =>
    have suits := reports_refuseClaimant held there
    rw [allowed] at suits
    have same : Method.after (refuseClaimant chunk c r) hub = hub := by
      have kept : hub.Guards (answer (refuseClaimant chunk c r) hub)
          (Method.after (refuseClaimant chunk c r) hub) := guards_refuseClaimant chunk c r
      rwa [allowed] at kept
    obtain ⟨envelope, built⟩ :=
      (placed c chunk held).claim_envelope (free_of_refuseClaimant allowed)
    rw [answer_bind_of_ok _ allowed, same, built]
    exact suits.unborne held there (shares chunk held) pinned active
      (by rintro kind (rfl | rfl); exacts [retiring, refusing])

end Ladder

section Readings

variable [Platform] {hub : MockHubService} {token : Option String} {r : String}

/-- A runner's claim is served where nothing stands in its way, and what the runner reads off a
refusal, in either shape of its body, does stand in its way. -/
theorem refusal_read (reachable : hub.Reachable) (named : answer (principal token) hub = .ok r)
    (c w : String) (es : List String) :
    match answer (do refuseForeignRunnerChunk c r; claim c r w es) hub with
    | .ok _ => ∀ why, ¬ hub.Bears c r why
    | .error e => ∀ legacy, ∃ status body, Api.claimReply legacy c e = some (status, body) ∧
        status = (Api.claimRefusal e).1 ∧ hub.Bears c r (classifyClaimRefusal status body) := by
  obtain ⟨_, _, _, present⟩ := answer_principal_iff.mp named
  obtain ⟨row, there⟩ := Option.isSome_iff_exists.mp present
  have told : hub.Reports c r (fun _ => ∀ why, ¬ hub.Bears c r why)
      (answer (refuseForeignRunnerChunk c r >>= fun _ => claim c r w es) hub) :=
    reports_bind guards_of_keeps (reports_refuseForeignRunnerChunk there) fun _ shares =>
      reports_claim (reachable_placed reachable) there shares w es
  split
  case h_1 answered =>
    rw [answered] at told
    exact told
  case h_2 e raised =>
    rw [raised] at told
    obtain ⟨why, reading, bears⟩ := told
    intro legacy
    obtain ⟨⟨status, body⟩, replied, read⟩ := classify_claimReply reading legacy c
    exact ⟨status, body, replied, Api.claimReply_status replied, read ▸ bears⟩

end Readings

section

attribute [local instance] Platform.plain

theorem blocked_claim_read :
    ∃ e, answer (do refuseForeignRunnerChunk "c" "r"; claim "c" "r" "w" []) blockedOnce =
      .error e ∧ ∀ legacy, ∃ status body, Api.claimReply legacy "c" e = some (status, body) ∧
        status = (Api.claimRefusal e).1 ∧
          blockedOnce.Bears "c" "r" (classifyClaimRefusal status body) := by
  have reachable : blockedOnce.Reachable := reachable_run _ _
  have named : answer (principal (some "t")) blockedOnce = .ok "r" := rfl
  exact ⟨_, rfl, refusal_read reachable named "c" "w" []⟩

end

end MockHubService

end BlizzardMock.MockHub
