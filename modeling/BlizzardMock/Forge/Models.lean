import Mathlib.Data.List.Sort
import BlizzardMock.Data.Table

namespace BlizzardMock.Forge

abbrev Instant := Int

inductive State | opened | closed
  deriving DecidableEq

def State.value : State → String
  | .opened => "open"
  | .closed => "closed"

inductive MergeableState
  | clean | dirty | unknown | behind | blocked | unstable | hasHooks | draft
  deriving DecidableEq

/-- The states the `mergeable_state` lever may force onto a pull request. -/
def forceableMergeableStates : List MergeableState := [.unstable, .hasHooks, .draft]

inductive MergeMethod | merge | squash | rebase
  deriving DecidableEq

structure Repo where
  owner : String
  name : String
  defaultBranch : String

def Repo.fullName (repo : Repo) : String := repo.owner ++ "/" ++ repo.name

/-- One check run against a commit; there is no conclusion until the status is `completed`. -/
structure CheckRun where
  name : String
  status : String
  conclusion : Option String := none
  headSha : String
  deriving DecidableEq

structure PullRequest where
  number : Nat
  title : String
  body : String
  state : State := .opened
  user : String
  head : String
  base : String
  createdAt : Instant
  updatedAt : Instant
  merged : Bool := false
  mergedAt : Option Instant := none
  mergedBy : Option String := none
  mergeCommitSha : Option String := none
  closedHeadSha : Option String := none
  closedBaseSha : Option String := none
  deriving DecidableEq

def PullRequest.On (pull : PullRequest) (branch : String) : Prop :=
  branch = pull.head ∨ branch = pull.base

instance (pull : PullRequest) (branch : String) : Decidable (pull.On branch) :=
  inferInstanceAs (Decidable (_ ∨ _))

inductive ForgeError
  | repoNotFound (message : String)
  | pullNotFound (message : String)
  | branchNotFound (message : String)
  | compareRefNotFound (message : String)
  | notFastForward (message : String)
  | validationError (message : String)
  | notMergeable (message : String)
  | updateConflict (message : String)
  | mergeRejected (message : String)
  | headMismatch (message : String)
  | gitError (message : String)
  | mergeConflict (message : String)
  | protectedBranch (message : String)
  | ruleViolation (message : String)
  | mergeMethodNotAllowed (message : String)
  | refAlreadyExists (message : String)
  | refMissing (message : String)
  | gitCommandError
  deriving DecidableEq

structure RepoState where
  pulls : Table PullRequest.number := ∅
  nextNumber : Nat := 1

abbrev InMemoryForgeState := Dict String RepoState

namespace InMemoryForgeState

def repo (state : InMemoryForgeState) (full : String) : RepoState := state.getD full {}

def getPull (state : InMemoryForgeState) (full : String) (number : Nat) : Option PullRequest :=
  (state.repo full).pulls.get? number

def sortedPulls (state : InMemoryForgeState) (full : String) : List PullRequest :=
  (state.repo full).pulls.rows.insertionSort fun p q => p.number ≤ q.number

def listPulls (state : InMemoryForgeState) (full : String) (filter : Option String) :
    List PullRequest :=
  match filter with
  | none => state.sortedPulls full
  | some value =>
    if value = "all" then state.sortedPulls full
    else (state.sortedPulls full).filter (·.state.value = value)

def drawNumber (state : InMemoryForgeState) (full : String) : InMemoryForgeState :=
  state.set full { state.repo full with nextNumber := (state.repo full).nextNumber + 1 }

def putPull (state : InMemoryForgeState) (full : String) (pull : PullRequest) :
    InMemoryForgeState :=
  state.set full { state.repo full with pulls := (state.repo full).pulls.put pull }

end InMemoryForgeState

structure CheckSpec where
  name : String
  status : String

/-- The statuses a `ref_checks` entry may name, and the status and conclusion each reads as. -/
def checkStatuses : List (String × String × Option String) :=
  [("pending", "in_progress", none), ("failed", "completed", some "failure"),
    ("success", "completed", some "success")]

abbrev InMemoryCheckRunStore := Dict (String × String) (Dict String CheckRun)

namespace InMemoryCheckRunStore

def runs (checks : InMemoryCheckRunStore) (full sha : String) : Option (List CheckRun) :=
  (checks.get? (full, sha)).map (·.values)

def replaceAll (checks : InMemoryCheckRunStore) (full sha : String) (runs : List CheckRun) :
    InMemoryCheckRunStore :=
  checks.set (full, sha) (.ofList (runs.map fun run => (run.name, run)))

def put (checks : InMemoryCheckRunStore) (full sha : String) (run : CheckRun) :
    InMemoryCheckRunStore :=
  checks.set (full, sha) ((checks.getD (full, sha) ∅).set run.name run)

end InMemoryCheckRunStore

end BlizzardMock.Forge
