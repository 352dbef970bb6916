import BlizzardMock.MockHub.RosterLaws

namespace BlizzardMock.MockHub

open Method Keyring

namespace Roster

structure Remembers (roster : Roster) (past : List Event) : Prop where
  recalls : roster.keyring.Recalls past
  added {token r : String} : .issued token r ∈ past → (roster.runners.get? r).isSome
  bare {r : String} {row : RunnerRow} : roster.runners.get? r = some row → row.retiredAt.isSome →
    current r past = none

variable {roster next : Roster} {past events : List Event}

theorem Remembers.bare_put {runners : Table RunnerRow.runnerId} {past past' : List Event}
    (bare : ∀ {r row}, runners.get? r = some row → row.retiredAt.isSome → current r past = none)
    {row : RunnerRow} (here : row.retiredAt.isSome → current row.runnerId past' = none)
    (others : ∀ r, r ≠ row.runnerId → current r past' = current r past) {r : String}
    {found : RunnerRow}
    (h : (runners.put row).get? r = some found) (retired : found.retiredAt.isSome) :
    current r past' = none := by
  rw [Table.get?_put] at h
  split at h
  case isTrue same =>
    cases h
    rw [same]
    exact here retired
  case isFalse apart =>
    rw [others r apart]
    exact bare h retired

theorem Remembers.changes (remembers : roster.Remembers past) (changes : Changes roster events next)
    (once : (issuances (events ++ past)).Nodup) : next.Remembers (events ++ past) := by
  induction changes generalizing past with
  | idle => exact remembers
  | seed project fresh => exact ⟨remembers.recalls, remembers.added, remembers.bare⟩
  | revise held runnerId tenantId retiredAt served =>
    refine ⟨remembers.recalls, fun h => isSome_put _ (remembers.added h), ?_⟩
    refine Remembers.bare_put remembers.bare (fun retired => ?_) fun _ _ => rfl
    rw [retiredAt] at retired
    rw [runnerId]
    exact remembers.bare held retired
  | @add roster row token fresh live served =>
    obtain ⟨unissued, _⟩ := List.nodup_cons.mp once
    have new : current row.runnerId past = none := by
      cases known : current row.runnerId past with
      | none => rfl
      | some old =>
        have present := remembers.added (issued_of_current known)
        rw [fresh] at present
        cases present
    refine ⟨remembers.recalls.grant unissued new, fun h => ?_, ?_⟩
    · cases h with
      | head => rw [Table.get?_put_self]; rfl
      | tail _ h => exact isSome_put _ (remembers.added h)
    · refine Remembers.bare_put remembers.bare (fun retired => ?_) fun r apart => ?_
      · rw [live] at retired
        cases retired
      · exact if_neg fun same => apart same.symm
  | @rotate roster row token held live =>
    obtain ⟨unissued, once⟩ := List.nodup_cons.mp once
    have revoked : current row.runnerId (.revoked row.runnerId :: past) = none := if_pos rfl
    refine ⟨(remembers.recalls.retract once row.runnerId).grant unissued revoked, fun h => ?_, ?_⟩
    · cases h with
      | head => rw [held]; rfl
      | tail _ h =>
        cases h with
        | tail _ h => exact remembers.added h
    · intro r found known retired
      have apart : row.runnerId ≠ r := by
        intro same
        rw [← same, held] at known
        cases known
        rw [live] at retired
        cases retired
      simp only [List.cons_append, List.nil_append, current, apart, if_false]
      exact remembers.bare known retired
  | revoke runnerId =>
    refine ⟨remembers.recalls.retract once runnerId, fun h => ?_, fun known retired => ?_⟩
    · cases h with
      | tail _ h => exact remembers.added h
    · simp only [List.cons_append, List.nil_append, current]
      split
      case isTrue => rfl
      case isFalse => exact remembers.bare known retired
  | @retire roster row next held runnerId tenantId projects =>
    refine ⟨remembers.recalls.retract once row.runnerId, fun h => ?_, ?_⟩
    · cases h with
      | tail _ h => exact isSome_put _ (remembers.added h)
    · refine Remembers.bare_put remembers.bare (fun _ => ?_) fun r apart => ?_
      · exact if_pos runnerId.symm
      · rw [runnerId] at apart
        exact if_neg fun same => apart same.symm
  | @retired roster row held already =>
    have none_held := remembers.bare held already
    refine ⟨remembers.recalls.idle none_held, fun h => ?_, fun known retired => ?_⟩
    · cases h with
      | tail _ h => exact remembers.added h
    · simp only [List.cons_append, List.nil_append, current]
      split
      case isTrue => rfl
      case isFalse => exact remembers.bare known retired
  | trans _ _ first second =>
    rw [List.append_assoc] at once ⊢
    rw [issuances_append] at once
    exact second (first remembers (List.nodup_append.mp once).2.1) (issuances_append _ _ ▸ once)

end Roster

namespace MockHubService

/-- The hub answers for a token what the history says of it: it resolves to the runner whose last
token it is, and is otherwise retired, revoked or unknown by what became of the runner it was issued
to. -/
structure TokensKnown (hub : MockHubService) (past : List Roster.Event) : Prop where
  resolves (token r : String) :
    answer (principal (some token)) hub = .ok r ↔ current r past = some token
  single {token other r : String} : answer (principal (some token)) hub = .ok r →
    answer (principal (some other)) hub = .ok r → token = other
  bare {r : String} {row : RunnerRow} : hub.store.runners.get? r = some row → row.retiredAt.isSome →
    ∀ token, answer (principal (some token)) hub ≠ .ok r
  named {token r : String} : current r past = some token →
    ∃ view, answer (identity (some token)) hub = .ok view ∧ view.runnerId = r
  retired {token r : String} {row : RunnerRow} : .issued token r ∈ past →
    hub.store.runners.get? r = some row → row.retiredAt.isSome →
    answer (identity (some token)) hub = .error (.runnerTokenRefused "retired" (some r))
  revoked {token r : String} {row : RunnerRow} : .issued token r ∈ past →
    hub.store.runners.get? r = some row → row.retiredAt = none → current r past ≠ some token →
    answer (identity (some token)) hub = .error (.runnerTokenRefused "revoked" (some r))
  unknown (token : String) :
    answer (identity (some token)) hub = .error (.runnerTokenRefused "unknown" none) ↔
      token ∉ issuances past

variable {hub : MockHubService} {past : List Roster.Event}

theorem answer_principal (token : String) :
    answer (principal (some token)) hub = principalOf hub.store.toRegistry token :=
  answer_settle hub _

theorem answer_identity (token : String) :
    answer (identity (some token)) hub = identityOf hub.store.toRegistry hub.levers token :=
  answer_settle hub _

theorem stale_of_issued (once : (issuances past).Nodup) {token r : String}
    (issued : .issued token r ∈ past) (unheld : current r past ≠ some token) (r' : String) :
    current r' past ≠ some token := by
  intro held
  rw [owner_unique once issued (issued_of_current held)] at unheld
  exact unheld held

section

variable (remembers : hub.roster.Remembers past) {token r : String}
include remembers

theorem runnerForToken_of_current (h : current r past = some token) :
    ∃ row, hub.store.runnerForToken token = some row ∧ row.runnerId = r ∧ row.retiredAt = none := by
  have held := (remembers.recalls.held token r).mpr h
  obtain ⟨row, found⟩ := Option.isSome_iff_exists.mp (remembers.added (issued_of_current h))
  refine ⟨row, ?_, Table.key_of_get? found, ?_⟩
  · change (hub.roster.keyring.held.get? token).bind hub.roster.runners.get? = some row
    rw [held]
    exact found
  · by_contra retired
    rw [remembers.bare found (Option.isSome_iff_ne_none.mpr retired)] at h
    cases h

theorem runnerForToken_of_stale (h : ∀ r, current r past ≠ some token) :
    hub.store.runnerForToken token = none := by
  have lost : hub.roster.keyring.held.get? token = none := by
    cases held : hub.roster.keyring.held.get? token with
    | none => rfl
    | some r => exact absurd ((remembers.recalls.held token r).mp held) (h r)
  change (hub.roster.keyring.held.get? token).bind hub.roster.runners.get? = none
  rw [lost]
  rfl

theorem principal_of_current (h : current r past = some token) :
    answer (principal (some token)) hub = .ok r := by
  obtain ⟨row, found, named, _⟩ := runnerForToken_of_current remembers h
  rw [answer_principal, principalOf, found]
  exact congrArg Except.ok named

theorem current_of_principal (h : answer (principal (some token)) hub = .ok r) :
    current r past = some token := by
  rw [answer_principal, principalOf] at h
  by_contra stale
  have nobody : ∀ r', current r' past ≠ some token := by
    intro r' held
    obtain ⟨row, found, named, _⟩ := runnerForToken_of_current remembers held
    rw [found] at h
    cases h
    rw [named] at stale
    exact stale held
  rw [runnerForToken_of_stale remembers nobody] at h
  dsimp only at h
  split at h <;> cases h

theorem identity_of_stale (stale : ∀ r, current r past ≠ some token)
    (issued : .issued token r ∈ past)
    {row : RunnerRow} (found : hub.store.runners.get? r = some row) :
    answer (identity (some token)) hub = .error (.runnerTokenRefused
      (if row.retiredAt.isSome then "retired" else "revoked") (some r)) := by
  have spent : hub.store.revokedTokens.get? token = some r :=
    (remembers.recalls.spent token r).mpr ⟨issued, stale r⟩
  rw [answer_identity, identityOf, runnerForToken_of_stale remembers stale]
  dsimp only
  rw [spent, Option.bind_some, found]
  dsimp only
  rw [Table.key_of_get? found]

theorem tokensKnown_of_remembers (once : (issuances past).Nodup) : hub.TokensKnown past where
  resolves token r := ⟨current_of_principal remembers, principal_of_current remembers⟩
  single h h' := by
    have held := current_of_principal remembers h
    rw [current_of_principal remembers h'] at held
    exact (Option.some.inj held).symm
  bare found retired token resolved := by
    have held := current_of_principal remembers resolved
    rw [remembers.bare found retired] at held
    cases held
  named h := by
    obtain ⟨row, found, named, live⟩ := runnerForToken_of_current remembers h
    refine ⟨⟨row.runnerId, row.name, row.tenantId, tenantName hub.store.toRegistry row.tenantId,
      fleetFlags hub.levers⟩, ?_, named⟩
    rw [answer_identity, identityOf, found]
    simp [live]
  retired {token r row} issued found retired := by
    have unheld : current r past ≠ some token := by
      rw [remembers.bare found retired]
      exact Option.some_ne_none token |>.symm
    rw [identity_of_stale remembers (stale_of_issued once issued unheld) issued found,
      if_pos retired]
  revoked {token r row} issued found live unheld := by
    rw [identity_of_stale remembers (stale_of_issued once issued unheld) issued found, live]
    rfl
  unknown token := by
    constructor
    · intro refused issued
      obtain ⟨r, issued⟩ := mem_issuances.mp issued
      obtain ⟨row, found⟩ := Option.isSome_iff_exists.mp (remembers.added issued)
      by_cases held : current r past = some token
      · obtain ⟨row, resolved, _, live⟩ := runnerForToken_of_current remembers held
        rw [answer_identity, identityOf, resolved] at refused
        simp [live] at refused
      · rw [identity_of_stale remembers (stale_of_issued once issued held) issued found] at refused
        split at refused <;> simp at refused
    · intro unissued
      have stale (r : String) : current r past ≠ some token := fun held =>
        unissued (mem_issuances.mpr ⟨r, issued_of_current held⟩)
      have unspent : hub.store.revokedTokens.get? token = none := by
        change hub.roster.keyring.spent.get? token = none
        cases spent : hub.roster.keyring.spent.get? token with
        | none => rfl
        | some r =>
          have issued := ((remembers.recalls.spent token r).mp spent).1
          exact absurd (mem_issuances.mpr ⟨r, issued⟩) unissued
      rw [answer_identity, identityOf, runnerForToken_of_stale remembers stale]
      rw [unspent]
      rfl

end

variable [Platform]

def recorded (op : Op) (hub : MockHubService) (past : List Roster.Event) : List Roster.Event :=
  match op with
  | .reset => []
  | op => op.events (answer op.run hub) ++ past

def history : List Op → MockHubService → List Roster.Event → List Roster.Event
  | [], _, past => past
  | op :: ops, hub, past => history ops (hub.next op) (recorded op hub past)

omit [Platform] in
theorem remembers_founded (hub : MockHubService) (h : hub.store.toRegistry = founded {}) :
    hub.roster.Remembers [] := by
  have roster : hub.roster = ⟨(founded {}).projects, ∅, {}⟩ := by
    simp only [MockHubService.roster, h]
    rfl
  rw [roster]
  exact ⟨recalls_empty, nofun, nofun⟩

theorem remembers_next (op : Op) (hub : MockHubService) (past : List Roster.Event)
    (remembers : (issuances past).Nodup → hub.roster.Remembers past)
    (once : (issuances (recorded op hub past)).Nodup) :
    (hub.next op).roster.Remembers (recorded op hub past) := by
  by_cases h : op = .reset
  · subst h
    exact remembers_founded _ rfl
  · have same : recorded op hub past = op.events (answer op.run hub) ++ past := by
      cases op <;> first | rfl | exact absurd rfl h
    rw [same] at once ⊢
    have earlier : (issuances past).Nodup := by
      rw [issuances_append] at once
      exact (List.nodup_append.mp once).2.1
    exact (remembers earlier).changes (changes_next op hub h) once

theorem remembers_after (ops : List Op) (hub : MockHubService) (past : List Roster.Event)
    (remembers : (issuances past).Nodup → hub.roster.Remembers past)
    (once : (issuances (history ops hub past)).Nodup) :
    (after ops hub).roster.Remembers (history ops hub past) := by
  induction ops generalizing hub past with
  | nil => exact remembers once
  | cons op ops ih =>
    exact ih (hub.next op) (recorded op hub past) (remembers_next op hub past remembers) once

/-- In every run of calls from a fresh hub that issues no token twice since its last reset, the hub
knows its tokens. -/
theorem tokens_known (sources : Sources) (ops : List Op)
    (once : (issuances (history ops (fresh sources) [])).Nodup) :
    (after ops (fresh sources)).TokensKnown (history ops (fresh sources) []) :=
  tokensKnown_of_remembers
    (remembers_after ops (fresh sources) [] (fun _ => remembers_founded _ rfl) once) once

end MockHubService

section

attribute [local instance] Platform.plain

open MockHubService

def enrolled : List Op :=
  [.registry (.addRunner "ann" firstTenantId (some "r") (some "t") none none),
    .registry (.enroll "r" firstTenantId), .registry (.retire "r" "operator")]

theorem tokens_known_enrolled :
    (after enrolled (fresh .still)).TokensKnown (history enrolled (fresh .still) []) :=
  tokens_known .still enrolled (by decide)

end

end BlizzardMock.MockHub
