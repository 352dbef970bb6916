import BlizzardMock.Data.Machine
import BlizzardMock.Forge.Service.Refs

namespace BlizzardMock.Forge

open Method

inductive Op
  | createPull (owner name title body head base user : String)
  | setPullState (owner name : String) (number : Nat) (state : State)
  | mergePull (owner name : String) (number : Nat) (method : MergeMethod)
      (message sha : Option String) (user : String)
  | updateBranch (owner name : String) (number : Nat) (expectedHeadSha : Option String)
  | mergeBranches (owner name base head : String) (message : Option String)
  | createRef (owner name ref sha : String)
  | updateRef (owner name ref sha : String) (force : Bool)
  | deleteRef (owner name branch : String)
  | armLever (kind : LeverKind) (params : LeverParams)
  | clearLever (kind : LeverKind) (repo : Option String) (number : Option Nat)
      (branch pattern : Option String)
  | clearAllLevers

namespace ForgeService

variable [GitHost]

def perform : Op → ForgeM Unit
  | .createPull owner name title body head base user =>
    discard (createPull owner name title body head base user)
  | .setPullState owner name number state => discard (setPullState owner name number state)
  | .mergePull owner name number method message sha user =>
    discard (mergePull owner name number method message sha user)
  | .updateBranch owner name number expectedHeadSha =>
    discard (updateBranch owner name number expectedHeadSha)
  | .mergeBranches owner name base head message =>
    discard (mergeBranches owner name base head message)
  | .createRef owner name ref sha => discard (createRef owner name ref sha)
  | .updateRef owner name ref sha force => discard (updateRefTo owner name ref sha force)
  | .deleteRef owner name branch => deleteRef owner name branch
  | .armLever kind params => discard (armLever kind params)
  | .clearLever kind repo number branch pattern => clearLever kind repo number branch pattern
  | .clearAllLevers => clearAllLevers

def next (op : Op) (forge : ForgeService) : ForgeService := Method.after (perform op) forge

def fresh (git : GitBackend) (clock : Stream' Instant) (stamps : Stream' Nat) : ForgeService :=
  { git, clock, stamps }

end ForgeService

def toyGit : GitBackend where
  root := "repos"
  backing full := if full = "octocat/toy" then some "octocat/toy.git" else none
  repos := .ofList [("octocat/toy.git",
    { defaultBranch := "main",
      branches := .ofList [("main", "m"), ("feature", "f"), ("old", "o")] })]

def toy : ForgeService := .fresh toyGit (fun n => n) id

end BlizzardMock.Forge
