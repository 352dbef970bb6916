import BlizzardMock.Data.Flat
import BlizzardMock.LeverMap
import BlizzardMock.MockHub.Service.Base
import BlizzardMock.MockRunner.Levers

namespace BlizzardMock

inductive LeverKind
  | hub (kind : MockHub.HubLever)
  | runner (kind : MockRunner.RunnerLever)

namespace LeverKind

def value : LeverKind → String
  | hub kind => kind.value
  | runner kind => kind.value

theorem notMem_value (kind : LeverKind) : '#' ∉ kind.value.toList := by
  cases kind with
  | hub kind => cases kind <;> decide
  | runner kind => cases kind <;> decide

end LeverKind

def PlainScope (scope : Option String) : Prop := scope ≠ some "" ∧ scope ≠ some "*"

def scopeText : Option String → String
  | none => "*"
  | some c => if c = "" then "*" else c

theorem scopeText_inj {scope scope' : Option String} (plain : PlainScope scope)
    (plain' : PlainScope scope')
    (same : scopeText scope = scopeText scope') : scope = scope' := by
  cases scope with
  | none =>
    cases scope' with
    | none => rfl
    | some c =>
      have full : c ≠ "" := fun empty => plain'.1 (congrArg some empty)
      simp only [scopeText, if_neg full] at same
      exact absurd (congrArg some same.symm) plain'.2
  | some c =>
    have full : c ≠ "" := fun empty => plain.1 (congrArg some empty)
    cases scope' with
    | none =>
      simp only [scopeText, if_neg full] at same
      exact absurd (congrArg some same) plain.2
    | some c' =>
      have full' : c' ≠ "" := fun empty => plain'.1 (congrArg some empty)
      simp only [scopeText, if_neg full, if_neg full'] at same
      exact congrArg some same

namespace Lever

/-- A lever the store keys apart from any other. -/
def Plain (lever : Lever) : Prop := '#' ∉ lever.kind.toList ∧ PlainScope lever.chunkId

theorem scopeKey_eq (lever : Lever) :
    lever.scopeKey = lever.kind ++ "#" ++ scopeText lever.chunkId := rfl

theorem scopeKey_of_pair {lever other : Lever} (same : lever.pair = other.pair) :
    lever.scopeKey = other.scopeKey := by
  rw [scopeKey_eq, scopeKey_eq, (Prod.mk.inj same).1, (Prod.mk.inj same).2]

theorem pair_of_scopeKey {lever other : Lever} (plain : lever.Plain) (plain' : other.Plain)
    (same : lever.scopeKey = other.scopeKey) : lever.pair = other.pair := by
  rw [scopeKey_eq, scopeKey_eq] at same
  have parts := Flat.join_inj_first (c := '#') rfl plain.1 plain'.1 same
  exact Prod.ext parts.1 (scopeText_inj plain.2 plain'.2 parts.2)

end Lever

namespace InMemoryLeverStore

def toMap (levers : InMemoryLeverStore) : LeverMap := fun p => levers.values.find? fun lever =>
      lever.pair = p

def hit : LeverCall → InMemoryLeverStore → Option LeverPair
  | .use kind asked, levers => (levers.find kind asked).map Lever.pair
  | _, _ => none

def next : LeverCall → InMemoryLeverStore → InMemoryLeverStore
  | .arm lever, levers => levers.arm lever
  | .clear kind chunkId, levers => levers.clear kind chunkId
  | .clearAll, _ => ∅
  | .use kind asked, levers => (levers.find kind asked).elim levers levers.consume

def Filed (levers : InMemoryLeverStore) : Prop :=
  ∀ key lever, levers.get? key = some lever → lever.scopeKey = key ∧ lever.Plain

variable {levers : InMemoryLeverStore}

theorem Filed.mem_values (filed : levers.Filed) {lever : Lever} :
    lever ∈ levers.values ↔ levers.get? lever.scopeKey = some lever := by
  rw [Dict.mem_values]
  constructor
  · intro held
    obtain ⟨key, held⟩ := held
    rw [(filed key lever held).1]
    exact held
  · exact fun held => ⟨_, held⟩

theorem pair_of_toMap {p : LeverPair} {lever : Lever} (found : levers.toMap p = some lever) :
    lever.pair = p :=
  of_decide_eq_true (List.find?_some (p := fun lever : Lever => decide (lever.pair = p)) found)

theorem Filed.toMap_eq_some (filed : levers.Filed) {p : LeverPair} {lever : Lever} :
    levers.toMap p = some lever ↔ levers.get? lever.scopeKey = some lever ∧ lever.pair = p := by
  constructor
  · intro found
    have mem := List.mem_of_find?_eq_some found
    exact ⟨filed.mem_values.mp mem, pair_of_toMap found⟩
  · intro h
    have mem := filed.mem_values.mpr h.1
    cases found : levers.toMap p with
    | none =>
      have none_there := List.find?_eq_none.mp found lever mem
      exact absurd (decide_eq_true h.2) none_there
    | some other =>
      have held := filed.mem_values.mp (List.mem_of_find?_eq_some found)
      rw [Lever.scopeKey_of_pair ((pair_of_toMap found).trans h.2.symm), h.1] at held
      exact held.symm

theorem filed_empty : Filed ∅ := by
  intro key lever held
  cases held

theorem Filed.arm (filed : levers.Filed) {lever : Lever} (plain : lever.Plain) :
    (levers.arm lever).Filed := by
  intro key other held
  simp only [InMemoryLeverStore.arm, Dict.get?_set] at held
  split at held
  case isTrue same =>
    cases held
    exact ⟨same.symm, plain⟩
  case isFalse => exact filed key other held

theorem Filed.erase (filed : levers.Filed) (key : String) : Filed (levers.erase key) := by
  intro key' other held
  rw [Dict.get?_erase] at held
  split at held
  case isTrue => cases held
  case isFalse => exact filed key' other held

theorem Filed.toMap_written (filed : levers.Filed) {later : InMemoryLeverStore}
    (filed' : later.Filed)
    {lever : Lever} (plain : lever.Plain) {new : Option Lever}
    (own : ∀ l, new = some l → l.pair = lever.pair)
    (written : ∀ key, later.get? key = if key = lever.scopeKey then new else levers.get? key) :
    later.toMap = Function.update levers.toMap lever.pair new := by
  funext p
  apply Option.ext
  intro other
  rw [filed'.toMap_eq_some, written, Function.update_apply]
  by_cases same : p = lever.pair
  · rw [if_pos same]
    constructor
    · intro h
      rw [if_pos (Lever.scopeKey_of_pair (h.2.trans same))] at h
      exact h.1
    · intro h
      have pair := own other h
      rw [if_pos (Lever.scopeKey_of_pair pair)]
      exact ⟨h, pair.trans same.symm⟩
  · rw [if_neg same, filed.toMap_eq_some]
    constructor
    · intro h
      split at h
      case isTrue => exact absurd (h.2.symm.trans (own other h.1)) same
      case isFalse => exact h
    · intro h
      have apart : other.scopeKey ≠ lever.scopeKey := by
        intro keys
        have pairs := Lever.pair_of_scopeKey (filed _ _ h.1).2 plain keys
        exact same (h.2.symm.trans pairs)
      rw [if_neg apart]
      exact h

theorem Filed.toMap_arm (filed : levers.Filed) {lever : Lever} (plain : lever.Plain) :
    (levers.arm lever).toMap = Function.update levers.toMap lever.pair (some lever) := by
  apply filed.toMap_written (filed.arm plain) plain
  · intro l h
    cases h
    rfl
  · intro key
    exact Dict.get?_set _ _ _ _

theorem Filed.toMap_erase (filed : levers.Filed) {lever : Lever} (plain : lever.Plain) :
    toMap (levers.erase lever.scopeKey) = Function.update levers.toMap lever.pair none := by
  apply filed.toMap_written (filed.erase _) plain
  · intro l h
    cases h
  · intro key
    exact Dict.get?_erase _ _ _

theorem Filed.consume (filed : levers.Filed) {lever : Lever} (plain : lever.Plain) :
    (levers.consume lever).Filed := by
  simp only [InMemoryLeverStore.consume]
  cases lever.remaining with
  | none => exact filed
  | some n =>
    dsimp only
    split
    · exact filed.erase _
    · have plain' : Lever.Plain { lever with remaining := some (n - 1) } := plain
      exact filed.arm plain'

theorem Filed.toMap_consume (filed : levers.Filed) {lever : Lever}
    (held : levers.toMap lever.pair = some lever) :
    (levers.consume lever).toMap = Function.update levers.toMap lever.pair lever.spent := by
  have plain : lever.Plain := (filed _ _ (filed.toMap_eq_some.mp held).1).2
  simp only [InMemoryLeverStore.consume, Lever.spent]
  cases lever.remaining with
  | none => rw [← held, Function.update_eq_self]
  | some n =>
    dsimp only
    split
    · exact filed.toMap_erase plain
    · have plain' : Lever.Plain { lever with remaining := some (n - 1) } := plain
      exact filed.toMap_arm plain'

theorem Filed.find_some (filed : levers.Filed) {kind : String} {asked : Option String}
    {lever : Lever}
    (found : levers.find kind asked = some lever) :
    lever.kind = kind ∧ Reaches lever.chunkId asked ∧ levers.toMap lever.pair = some lever := by
  have mem := List.mem_of_find?_eq_some found
  have matched := of_decide_eq_true (List.find?_some
    (p := fun lever : Lever => decide (lever.kind = kind ∧ lever.Matches asked)) found)
  exact ⟨matched.1, matched.2, filed.toMap_eq_some.mpr ⟨filed.mem_values.mp mem, rfl⟩⟩

theorem Filed.find_none (filed : levers.Filed) {kind : String} {asked : Option String}
    (missed : levers.find kind asked = none) {scope : Option String}
    (reaches : Reaches scope asked) :
    levers.toMap (kind, scope) = none := by
  cases held : levers.toMap (kind, scope) with
  | none => rfl
  | some lever =>
    obtain ⟨filed', pair⟩ := filed.toMap_eq_some.mp held
    obtain ⟨kinds, scopes⟩ := Prod.mk.inj pair
    have unmatched := List.find?_eq_none.mp missed lever (filed.mem_values.mpr filed')
    rw [← scopes] at reaches
    have matches' : lever.kind = kind ∧ lever.Matches asked := ⟨kinds, reaches⟩
    exact absurd (decide_eq_true matches') unmatched

/-- Whether a call arms or clears only what the store keys apart. -/
def Plain (call : LeverCall) : Prop :=
  match call with
  | .arm lever => (∃ kind : LeverKind, lever.kind = kind.value) ∧ PlainScope lever.chunkId
  | .clear kind scope => (∃ kind' : LeverKind, kind = kind'.value) ∧ PlainScope scope
  | _ => True

theorem plain_of_kind {lever : Lever} (h : ∃ kind : LeverKind, lever.kind = kind.value)
    (scope : PlainScope lever.chunkId) : lever.Plain := by
  obtain ⟨kind, same⟩ := h
  refine ⟨?_, scope⟩
  rw [same]
  exact kind.notMem_value

theorem Filed.preserved (filed : levers.Filed) {call : LeverCall} (plain : Plain call) :
    (next call levers).Filed := by
  cases call with
  | arm lever => exact filed.arm (plain_of_kind plain.1 plain.2)
  | clear kind scope => exact filed.erase _
  | clearAll => exact filed_empty
  | use kind asked =>
    simp only [InMemoryLeverStore.next]
    cases found : levers.find kind asked with
    | none => exact filed
    | some lever =>
      have held := (filed.find_some found).2.2
      exact filed.consume (filed _ _ (filed.toMap_eq_some.mp held).1).2

theorem Filed.step (filed : levers.Filed) {call : LeverCall} (plain : Plain call) :
    LeverMap.Step levers.toMap call (hit call levers) (next call levers).toMap := by
  cases call with
  | arm lever =>
    simp only [InMemoryLeverStore.next]
    rw [filed.toMap_arm (plain_of_kind plain.1 plain.2)]
    exact .arm lever
  | clear kind scope =>
    have keyed : Lever.Plain { kind := kind, chunkId := scope } := plain_of_kind plain.1 plain.2
    simp only [InMemoryLeverStore.next, InMemoryLeverStore.clear]
    rw [filed.toMap_erase keyed]
    exact .clear kind scope
  | clearAll => exact .clearAll
  | use kind asked =>
    simp only [InMemoryLeverStore.next, hit]
    cases found : levers.find kind asked with
    | none => exact .missed fun scope reaches => filed.find_none found reaches
    | some lever =>
      obtain ⟨rfl, reaches, held⟩ := filed.find_some found
      simp only [Option.map_some]
      rw [Option.elim_some, filed.toMap_consume held]
      exact .used held reaches

def after (calls : List LeverCall) (levers : InMemoryLeverStore) : InMemoryLeverStore :=
  Machine.after next calls levers

def affected (p : LeverPair) : List LeverCall → InMemoryLeverStore → Nat
  | [], _ => 0
  | call :: calls, levers =>
    affected p calls (next call levers) + if hit call levers = some p then 1 else 0

def affectedOn (kind c : String) : List LeverCall → InMemoryLeverStore → Nat
  | [], _ => 0
  | call :: calls, levers => affectedOn kind c calls (next call levers) +
      if LeverMap.asksOn kind c call ∧ (hit call levers).isSome then 1 else 0

theorem Filed.run (filed : levers.Filed) {calls : List LeverCall}
    (plain : ∀ call ∈ calls, Plain call) :
    (after calls levers).Filed := by
  induction calls generalizing levers with
  | nil => exact filed
  | cons call calls ih =>
    have first := plain call List.mem_cons_self
    exact ih (filed.preserved first) fun other mem => plain other (List.mem_cons_of_mem _ mem)

theorem Filed.affected_run (filed : levers.Filed) {p : LeverPair} {calls : List LeverCall}
    (plain : ∀ call ∈ calls, Plain call ∧ LeverMap.Spares p call)
    (counted : LeverMap.Counted (levers.toMap p)) :
    affected p calls levers + LeverMap.left ((after calls levers).toMap p) = LeverMap.left
      (levers.toMap p) := by
  induction calls generalizing levers with
  | nil => exact Nat.zero_add _
  | cons call calls ih =>
    obtain ⟨first, spares⟩ := plain call List.mem_cons_self
    obtain ⟨counted', moved⟩ := (filed.step first).left_spared spares counted
    have rest := ih (filed.preserved first) (fun other mem =>
      plain other (List.mem_cons_of_mem _ mem)) counted'
    simp only [affected]
    simp only [after] at rest ⊢
    rw [Machine.after_cons]
    omega

theorem Filed.affectedOn_run (filed : levers.Filed) {kind c : String} {calls : List LeverCall}
    (plain : ∀ call ∈ calls, Plain call ∧ LeverMap.SparesOn kind c call)
    (one : LeverMap.Counted (levers.toMap (kind, none)))
    (two : LeverMap.Counted (levers.toMap (kind, some c))) :
    affectedOn kind c calls levers =
      min (calls.countP (LeverMap.asksOn kind c)) (LeverMap.leftOn levers.toMap kind c) := by
  induction calls generalizing levers with
  | nil => simp [affectedOn]
  | cons call calls ih =>
    obtain ⟨first, spares⟩ := plain call List.mem_cons_self
    have step := filed.step first
    have one' := (step.left_spared spares.1 one).1
    have two' := (step.left_spared spares.2.1 two).1
    have rest := ih (filed.preserved first) (fun other mem =>
      plain other (List.mem_cons_of_mem _ mem)) one' two'
    simp only [affectedOn, List.countP_cons]
    rw [rest]
    cases asks : LeverMap.asksOn kind c call with
    | true =>
      cases call with
      | use kind' asked =>
        obtain ⟨rfl, rfl⟩ := of_decide_eq_true asks
        have taken := step.leftOn_asked one two
        simp only [true_and, reduceIte]
        omega
      | _ => cases asks
    | false =>
      have kept := step.leftOn_other spares asks
      rw [kept]
      simp

theorem counted_of_remaining {armed : Option Lever} {lever : Lever} {n : Int}
    (held : armed = some lever)
    (remaining : lever.remaining = some n) (pos : 1 ≤ n) :
    LeverMap.Counted armed ∧ LeverMap.left armed = n.toNat := by
  rw [held]
  constructor
  · intro other same
    cases same
    exact ⟨n, pos, remaining⟩
  · simp [LeverMap.left, remaining]

/-- While nothing is armed or cleared for a scope the store does not key apart, it is the plain map:
a look-up finds a lever exactly where one reaches, each call is a step of the map, and a lever
affects as many calls as it was armed for, alone or beside the other that reaches its chunk. -/
theorem levers_refine_map {calls : List LeverCall} (plain : ∀ call ∈ calls, Plain call) :
    let levers := after calls ∅
    (∀ kind asked, (levers.find kind asked).isSome ↔
      ∃ scope, Reaches scope asked ∧ (levers.toMap (kind, scope)).isSome) ∧
    (∀ call, Plain call → LeverMap.Step levers.toMap call (hit call levers)
      (next call levers).toMap) ∧
    (∀ more p lever n, levers.toMap p = some lever → lever.remaining = some n → 1 ≤ n →
      (∀ call ∈ more, Plain call ∧ LeverMap.Spares p call) →
      affected p more levers + LeverMap.left ((after more levers).toMap p) = n.toNat) ∧
    ∀ more kind c wide own n₁ n₂, levers.toMap (kind, none) = some wide →
      levers.toMap (kind, some c) = some own → wide.remaining = some n₁ → own.remaining = some n₂ →
      1 ≤ n₁ → 1 ≤ n₂ → (∀ call ∈ more, Plain call ∧ LeverMap.SparesOn kind c call) →
      affectedOn kind c more levers = min (more.countP (LeverMap.asksOn kind c))
        (n₁ + n₂).toNat := by
  intro levers
  have filed : levers.Filed := filed_empty.run plain
  refine ⟨?_, fun call h => filed.step h, ?_, ?_⟩
  · intro kind asked
    constructor
    · intro found
      obtain ⟨lever, found⟩ := Option.isSome_iff_exists.mp found
      obtain ⟨rfl, reaches, held⟩ := filed.find_some found
      exact ⟨_, reaches, Option.isSome_iff_exists.mpr ⟨lever, held⟩⟩
    · intro armed
      obtain ⟨scope, reaches, held⟩ := armed
      cases missed : levers.find kind asked with
      | some lever => rfl
      | none =>
        rw [filed.find_none missed reaches] at held
        cases held
  · intro more p lever n held remaining pos spares
    obtain ⟨counted, total⟩ := counted_of_remaining held remaining pos
    rw [← total]
    exact filed.affected_run spares counted
  · intro more kind c wide own n₁ n₂ one two remaining₁ remaining₂ pos₁ pos₂ spares
    obtain ⟨counted₁, total₁⟩ := counted_of_remaining one remaining₁ pos₁
    obtain ⟨counted₂, total₂⟩ := counted_of_remaining two remaining₂ pos₂
    rw [filed.affectedOn_run spares counted₁ counted₂, LeverMap.leftOn, total₁, total₂,
      Int.toNat_add (by omega) (by omega)]

end InMemoryLeverStore

section

open InMemoryLeverStore

def dropOnce (scope : Option String) : LeverCall :=
  .arm { kind := "drop_ack", chunkId := scope, remaining := some 1 }

theorem wildcard_scope_collides :
    let both := after [dropOnce none, dropOnce (some "*")] ∅
    both.toMap ("drop_ack", none) = none ∧ (both.find "drop_ack" (some "c")).isSome = false ∧
      affectedOn "drop_ack" "*"
        [.use "drop_ack" (some "*"), .use "drop_ack" (some "*")] both = 1 := by
  refine ⟨rfl, rfl, rfl⟩

theorem levers_refine_map_both :
    let both := after [dropOnce none, dropOnce (some "c")] ∅
    let more : List LeverCall :=
      [.use "drop_ack" (some "c"), .use "drop_ack" (some "c"), .use "drop_ack" (some "c")]
    affectedOn "drop_ack" "c" more both = 2 := by
  have kind : ∃ kind : LeverKind, "drop_ack" = kind.value := ⟨.hub .dropAck, rfl⟩
  have plain : ∀ call ∈ [dropOnce none, dropOnce (some "c")], Plain call := by
    simp [dropOnce, Plain, PlainScope, kind]
  have laws := levers_refine_map plain
  exact laws.2.2.2 _ "drop_ack" "c" _ _ 1 1 rfl rfl rfl rfl (by decide) (by decide)
    (by simp [Plain, LeverMap.SparesOn, LeverMap.Spares])

end

end BlizzardMock
