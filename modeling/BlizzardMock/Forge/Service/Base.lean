import Mathlib.Data.Stream.Init
import BlizzardMock.Data.Method
import BlizzardMock.Forge.Levers
import BlizzardMock.Forge.RateLedger
import BlizzardMock.Python.Json

namespace BlizzardMock.Forge

open Method

structure GitRepo where
  defaultBranch : String
  branches : Dict String String

/-- How a git command fails: on a conflict, on something else inside a worktree, or before there is
one. -/
inductive GitFailure | conflict | failed | refused
  deriving DecidableEq

/-- What git computes over the objects of a repository, which the forge only names. -/
class GitHost extends Unicode where
  revision : GitRepo → String → Option String
  /-- The commit that lands a head commit on a base under a message, at a time git reads itself. -/
  land : MergeMethod → GitRepo → String → String → String → Nat → Except GitFailure String
  mergesCleanly : String → String → Bool
  isAncestor : String → String → Bool
  admits : GitRepo → String → Bool

abbrev GitHost.plain : GitHost where
  isPrintable _ := true
  revision _ _ := none
  land _ _ base headSha _ _ := .ok (base ++ "+" ++ headSha)
  mergesCleanly _ _ := true
  isAncestor _ _ := true
  admits _ _ := true

def GitRepo.resolve [GitHost] (repo : GitRepo) (ref : String) : Option String :=
  (repo.branches.get? ref).or (GitHost.revision repo ref)

def GitFailure.error (failure : GitFailure) (op preposition head base : String) : ForgeError :=
  match failure with
  | .conflict =>
    .notMergeable (op ++ " of " ++ head ++ " " ++ preposition ++ " " ++ base ++ " conflicts")
  | .failed => .gitError (op ++ " of " ++ head ++ " " ++ preposition ++ " " ++ base ++ " failed")
  | .refused => .gitCommandError

structure GitBackend where
  root : String
  backing : String → Option String
  repos : Dict String GitRepo

def GitBackend.open? (git : GitBackend) (full : String) : Option GitRepo :=
  (git.backing full).bind git.repos.get?

def GitBackend.setBranches (git : GitBackend) (full : String)
    (f : Dict String String → Dict String String) : GitBackend :=
  match git.backing full, git.open? full with
  | some path, some repo =>
    { git with repos := git.repos.set path { repo with branches := f repo.branches } }
  | _, _ => git

structure ForgeService where
  git : GitBackend
  state : InMemoryForgeState := ∅
  levers : InMemoryLeverStore := ∅
  checks : InMemoryCheckRunStore := ∅
  rate : InMemoryRateLedger := {}
  clock : Stream' Instant
  stamps : Stream' Nat

abbrev ForgeM := EStateM ForgeError ForgeService

namespace ForgeService

def now : ForgeM Instant := do
  let instant ← read (·.clock.head)
  write fun forge => { forge with clock := forge.clock.tail }
  return instant

def stamp : ForgeM Nat := do
  let stamp ← read (·.stamps.head)
  write fun forge => { forge with stamps := forge.stamps.tail }
  return stamp

def setState (f : InMemoryForgeState → InMemoryForgeState) : ForgeM Unit :=
  write fun forge => { forge with state := f forge.state }

def setLevers (f : InMemoryLeverStore → InMemoryLeverStore) : ForgeM Unit :=
  write fun forge => { forge with levers := f forge.levers }

def setChecks (f : InMemoryCheckRunStore → InMemoryCheckRunStore) : ForgeM Unit :=
  write fun forge => { forge with checks := f forge.checks }

def setRate (f : InMemoryRateLedger → InMemoryRateLedger) : ForgeM Unit :=
  write fun forge => { forge with rate := f forge.rate }

def splitFullName [Unicode] (full : String) : Except ForgeError (String × String) :=
  let owner := full.toList.takeWhile (· ≠ '/')
  let name := full.toList.drop (owner.length + 1)
  if owner = [] ∨ name = [] then
    .error (.validationError ("malformed repo full name: " ++ reprStr full))
  else .ok (String.ofList owner, String.ofList name)

/-- `_open` -/
def openRepo (full : String) : ForgeM GitRepo := do
  let git ← read (·.git)
  orRaise (.repoNotFound ("no bare repo backs " ++ full ++ " under " ++ git.root)) (git.open? full)

def getRepo (owner name : String) : ForgeM Repo := do
  let git ← openRepo (owner ++ "/" ++ name)
  return { owner, name, defaultBranch := git.defaultBranch }

def branchExists (repo : Repo) (branch : String) : ForgeM Bool := do
  let git ← openRepo repo.fullName
  return decide (branch ∈ git.branches)

variable [GitHost]

def resolveRef (repo : Repo) (ref : String) : ForgeM String := do
  let git ← openRepo repo.fullName
  orRaise (.branchNotFound ("ref does not resolve in " ++ repo.fullName ++ ": " ++ ref))
    (git.resolve ref)

def isMergeable (repo : Repo) (base head : String) : ForgeM Bool := do
  let baseSha ← resolveRef repo base
  let headSha ← resolveRef repo head
  return GitHost.mergesCleanly baseSha headSha

def isAncestor (repo : Repo) (ancestor descendant : String) : ForgeM Bool := do
  let ancestor ← resolveRef repo ancestor
  let descendant ← resolveRef repo descendant
  return GitHost.isAncestor ancestor descendant

def updateRef (repo : Repo) (branch sha : String) : ForgeM Unit := do
  let git ← openRepo repo.fullName
  refuseIf (branch ∉ git.branches ∧ ¬ GitHost.admits git branch) .gitCommandError
  write fun forge => { forge with git := forge.git.setBranches repo.fullName (·.set branch sha) }

/-- `create_ref`, of a branch there is not. -/
def createBranch (repo : Repo) (branch sha : String) : ForgeM Unit := do
  let git ← openRepo repo.fullName
  refuseIf (branch ∈ git.branches) .gitCommandError
  updateRef repo branch sha

def deleteBranch (repo : Repo) (branch : String) : ForgeM Unit :=
  write fun forge => { forge with git := forge.git.setBranches repo.fullName (·.erase branch) }

/-- Moves the base to what landed on it.  The worktree of `merge` and `squash` is attached to the
base where the base is a branch, and moves it; a rebase writes the base's ref itself. -/
def moveBase (method : MergeMethod) (repo : Repo) (git : GitRepo) (base head : String) :
    Except GitFailure String → ForgeM String
  | .error failure =>
    let (op, preposition) := if method = .rebase then ("rebase", "onto") else ("merge", "into")
    raise (failure.error op preposition head base)
  | .ok sha => do
    if method = .rebase ∨ base ∈ git.branches then updateRef repo base sha
    return sha

/-- `merge`, `squash` and `rebase` -/
def landOn (method : MergeMethod) (repo : Repo) (base head message : String) : ForgeM String := do
  let headSha ← resolveRef repo head
  let git ← openRepo repo.fullName
  let time ← stamp
  moveBase method repo git base head (GitHost.land method git base headSha message time)

def getCommit (repo : Repo) (ref : String) : ForgeM String := resolveRef repo ref

end ForgeService

end BlizzardMock.Forge
