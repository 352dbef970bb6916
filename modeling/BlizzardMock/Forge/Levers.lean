import BlizzardMock.Forge.Models

namespace BlizzardMock.Forge

inductive LeverKind
  | externallyMerged | mergeConflict | mergeRejected | commentMidflight | rateLimited
  | tokenRejected | unreachable | staleBranch | checksPending | checksFailed | baseChecksFailed
  | refChecks | branchProtected | ruleset | mergeCommitsDisallowed | rateBudget
  | secondaryRateLimited | mergeableState | checksStartupFailure
  deriving DecidableEq

def actionLevers : List LeverKind := [.externallyMerged, .commentMidflight, .refChecks, .rateBudget]

structure LeverParams where
  repo : Option String := none
  number : Option Nat := none
  remaining : Option Int := none
  message : Option String := none
  method : Option MergeMethod := none
  ref : Option String := none
  checks : Option (List CheckSpec) := none
  branch : Option String := none
  pattern : Option String := none
  state : Option MergeableState := none
  token : Option String := none
  reset : Option Int := none

def scopeKey (repo : Option String) (number : Option Nat) (branch pattern : Option String) :
    String :=
  -- an empty repository is falsy, so it keys like an absent one
  let scope := match repo with
    | none => "*"
    | some r => if r = "" then "*" else r
  scope ++ "#" ++ number.elim "*" toString ++ branch.elim "" ("@" ++ ·) ++
    pattern.elim "" ("~" ++ ·)

structure Lever where
  kind : LeverKind
  repo : Option String
  number : Option Nat
  remaining : Option Int := none
  message : Option String := none
  branch : Option String := none
  pattern : Option String := none
  state : Option MergeableState := none
  deriving DecidableEq

namespace Lever

def key (lever : Lever) : String :=
  scopeKey lever.repo lever.number lever.branch lever.pattern

def Matches (lever : Lever) (repo : Option String) (number : Option Nat) : Prop :=
  (lever.repo = none ∨ lever.repo = repo) ∧ (lever.number = none ∨ lever.number = number)

instance (lever : Lever) (repo : Option String) (number : Option Nat) :
    Decidable (lever.Matches repo number) :=
  inferInstanceAs (Decidable (_ ∧ _))

end Lever

def requireScope (kind : LeverKind) (params : LeverParams) : Except ForgeError Unit :=
  match kind with
  | .branchProtected =>
    if params.repo = none ∨ params.branch = none then
      .error (.validationError "branch_protected requires repo and branch")
    else .ok ()
  | .ruleset =>
    if params.repo = none ∨ params.pattern = none then
      .error (.validationError "ruleset requires repo and pattern")
    else .ok ()
  | .mergeCommitsDisallowed =>
    if params.repo = none then
      .error (.validationError "merge_commits_disallowed requires repo")
    else .ok ()
  | .mergeableState =>
    if params.repo = none ∨ params.number = none ∨
        params.state ∉ forceableMergeableStates.map some then
      .error (.validationError
        "mergeable_state requires repo, number, and a state of unstable, has_hooks, or draft")
    else .ok ()
  | _ => .ok ()

structure ArmedLever extends Lever where
  inScope : requireScope kind { repo, number, branch, pattern, state } = .ok ()

abbrev InMemoryLeverStore := Dict (LeverKind × String) ArmedLever

namespace InMemoryLeverStore

def arm (levers : InMemoryLeverStore) (lever : ArmedLever) : InMemoryLeverStore :=
  levers.set (lever.kind, lever.key) lever

def clear (levers : InMemoryLeverStore) (kind : LeverKind) (repo : Option String)
    (number : Option Nat) (branch pattern : Option String) : InMemoryLeverStore :=
  levers.erase (kind, scopeKey repo number branch pattern)

def find (levers : InMemoryLeverStore) (kind : LeverKind) (repo : Option String)
    (number : Option Nat) : Option ArmedLever :=
  levers.values.find? fun lever => lever.kind = kind ∧ lever.Matches repo number

/-- Decrement a self-expiring lever's `remaining`, clearing it at zero. -/
def consume (levers : InMemoryLeverStore) (lever : ArmedLever) : InMemoryLeverStore :=
  match lever.remaining with
  | none => levers
  | some n =>
    if n - 1 ≤ 0 then levers.erase (lever.kind, lever.key)
    else levers.set (lever.kind, lever.key)
      { lever with remaining := some (n - 1), inScope := lever.inScope }

end InMemoryLeverStore

end BlizzardMock.Forge
