import BlizzardMock.Data.Machine
import BlizzardMock.Levers
import Mathlib.Logic.Function.Basic

namespace BlizzardMock

abbrev LeverPair := String × Option String

def Lever.pair (lever : Lever) : LeverPair := (lever.kind, lever.chunkId)

def Lever.spent (lever : Lever) : Option Lever :=
  match lever.remaining with
  | none => some lever
  | some n => if n - 1 ≤ 0 then none else some { lever with remaining := some (n - 1) }

/-- What is asked of a lever store; a call that is affected by a lever finds it and consumes it. -/
inductive LeverCall
  | arm (lever : Lever)
  | clear (kind : String) (chunkId : Option String)
  | clearAll
  | use (kind : String) (chunkId : Option String)

/-- A global scope reaches every chunk, any other its own. -/
def Reaches (scope asked : Option String) : Prop := scope = none ∨ scope = asked

abbrev LeverMap := LeverPair → Option Lever

namespace LeverMap

/-- What a call makes of the map, and the pair it is affected at.  Where two scopes reach a chunk,
either lever may affect the call. -/
inductive Step (m : LeverMap) : LeverCall → Option LeverPair → LeverMap → Prop
  | arm (lever : Lever) : Step m (.arm lever) none (Function.update m lever.pair (some lever))
  | clear (kind : String) (scope : Option String) :
    Step m (.clear kind scope) none (Function.update m (kind, scope) none)
  | clearAll : Step m .clearAll none fun _ => none
  | missed {kind : String} {asked : Option String}
      (h : ∀ scope, Reaches scope asked → m (kind, scope) = none) :
    Step m (.use kind asked) none m
  | used {kind : String} {asked scope : Option String} {lever : Lever}
      (armed : m (kind, scope) = some lever)
    (reaches : Reaches scope asked) :
    Step m (.use kind asked) (some (kind, scope)) (Function.update m (kind, scope) lever.spent)

def Spares (p : LeverPair) : LeverCall → Prop
  | .arm lever => lever.pair ≠ p
  | .clear kind scope => (kind, scope) ≠ p
  | .clearAll => False
  | .use .. => True

def Counted (armed : Option Lever) : Prop :=
  ∀ lever, armed = some lever → ∃ n, 1 ≤ n ∧ lever.remaining = some n

def left (armed : Option Lever) : Nat := armed.elim 0 fun lever => (lever.remaining.getD 0).toNat

variable {m next : LeverMap} {call : LeverCall} {hit : Option LeverPair} {p : LeverPair}

theorem Counted.spent {lever : Lever} (counted : Counted (some lever)) :
    Counted lever.spent ∧ left lever.spent + 1 = left (some lever) := by
  obtain ⟨n, pos, remaining⟩ := counted lever rfl
  simp only [Lever.spent, remaining]
  split
  case isTrue last =>
    constructor
    · intro later h
      cases h
    · simp only [left, remaining, Option.elim_none, Option.elim_some, Option.getD_some]
      omega
  case isFalse more =>
    constructor
    · intro later h
      cases h
      exact ⟨n - 1, by omega, rfl⟩
    · simp only [left, remaining, Option.elim_some, Option.getD_some]
      omega

theorem Step.spared (step : Step m call hit next) (spares : Spares p call) (other : hit ≠ some p) :
    next p = m p := by
  cases step with
  | arm lever => exact Function.update_of_ne spares.symm _ _
  | clear kind scope => exact Function.update_of_ne spares.symm _ _
  | clearAll => exact spares.elim
  | missed => rfl
  | used armed reaches =>
    exact Function.update_of_ne (fun same => other (congrArg some same.symm)) _ _

theorem Step.left_spared (step : Step m call hit next) (spares : Spares p call)
    (counted : Counted (m p)) :
    Counted (next p) ∧ left (next p) + (if hit = some p then 1 else 0) = left (m p) := by
  by_cases same : hit = some p
  · rw [if_pos same]
    cases step with
    | used armed reaches =>
      cases same
      rw [Function.update_self, armed]
      rw [armed] at counted
      exact counted.spent
    | _ => cases same
  · rw [if_neg same, step.spared spares same]
    exact ⟨counted, rfl⟩

/-- The calls the global lever of a kind and a chunk's own still affect together. -/
def leftOn (m : LeverMap) (kind c : String) : Nat := left (m (kind, none)) + left (m (kind, some c))

def asksOn (kind c : String) : LeverCall → Bool
  | .use kind' asked => kind' = kind ∧ asked = some c
  | _ => false

/-- A call that leaves the two pairs to a chunk's own calls. -/
def SparesOn (kind c : String) (call : LeverCall) : Prop :=
  Spares (kind, none) call ∧ Spares (kind, some c) call ∧
    ∀ asked, call = .use kind asked → asked = some c

theorem Step.leftOn_asked {kind c : String} (step : Step m (.use kind (some c)) hit next)
    (one : Counted (m (kind, none))) (two : Counted (m (kind, some c))) :
    (if hit.isSome then 1 else 0) = min 1 (leftOn m kind c) ∧
      leftOn next kind c = leftOn m kind c - 1 := by
  have first := step.left_spared (p := (kind, none)) trivial one
  have second := step.left_spared (p := (kind, some c)) trivial two
  simp only [leftOn]
  cases step with
  | missed h =>
    rw [h none (.inl rfl), h (some c) (.inr rfl)]
    exact ⟨rfl, rfl⟩
  | @used _ _ scope lever armed reaches =>
    cases reaches with
    | inl global =>
      cases global
      simp only [Option.isSome_some, reduceIte, Option.some.injEq, Prod.mk.injEq, true_and,
        reduceCtorEq] at first second ⊢
      omega
    | inr own =>
      cases own
      simp only [Option.isSome_some, reduceIte, Option.some.injEq, Prod.mk.injEq, true_and,
        reduceCtorEq] at first second ⊢
      omega

theorem Step.leftOn_other {kind c : String} (step : Step m call hit next)
    (spares : SparesOn kind c call)
    (other : asksOn kind c call = false) : leftOn next kind c = leftOn m kind c := by
  have apart (scope : Option String) : hit ≠ some (kind, scope) := by
    intro same
    cases step with
    | used armed reaches =>
      cases same
      have asked := spares.2.2 _ rfl
      simp [asksOn, asked] at other
    | _ => cases same
  simp only [leftOn]
  rw [step.spared spares.1 (apart none), step.spared spares.2.1 (apart (some c))]

end LeverMap

end BlizzardMock
