import BlizzardMock.Forge.Operations
import BlizzardMock.Python.Text

namespace BlizzardMock.Forge

open Method

structure Comment where
  id : Nat
  body : String
  user : String
  createdAt : Instant
  updatedAt : Instant

structure Issue where
  number : Nat
  title : String
  body : String
  state : State := .opened
  stateReason : Option String := none
  user : String
  labels : List String := []
  createdAt : Instant
  updatedAt : Instant
  comments : List Comment := []

structure Label where
  name : String

structure RepoThreads where
  issues : Table Issue.number := ∅
  labels : Table Label.name := ∅
  /-- The `comments` of the pulls. -/
  pullComments : Dict Nat (List Comment) := ∅
  nextCommentId : Nat := 1

structure Tracker where
  forge : ForgeService
  repos : Dict String RepoThreads := ∅

inductive TrackerError
  | forge (error : ForgeError)
  | issueNotFound (message : String)
  | labelAlreadyExists (message : String)
  | labelNotFound (message : String)

abbrev TrackerM := EStateM TrackerError Tracker

namespace RepoThreads

variable (threads : RepoThreads)

def putIssue (issue : Issue) : RepoThreads := { threads with issues := threads.issues.put issue }

def addIssueComment (issue : Issue) (comment : Comment) : RepoThreads :=
  threads.putIssue { issue with comments := issue.comments ++ [comment] }

def addPullComment (number : Nat) (comment : Comment) : RepoThreads :=
  { threads with
    pullComments := threads.pullComments.set number
      (threads.pullComments.getD number [] ++ [comment]) }

def putLabel (label : Label) : RepoThreads := { threads with labels := threads.labels.put label }

def listIssues (state : Option String) (labels : Option (List String)) : List Issue :=
  let issues := threads.issues.rows.insertionSort fun i j => i.number ≤ j.number
  let issues := match state with
    | none => issues
    | some value => if value = "all" then issues else issues.filter (·.state.value = value)
  issues.filter fun issue => (labels.getD []).all (· ∈ issue.labels)

end RepoThreads

namespace Tracker

def threads (tracker : Tracker) (full : String) : RepoThreads := tracker.repos.getD full {}

def getIssue (tracker : Tracker) (full : String) (number : Nat) : Option Issue :=
  (tracker.threads full).issues.get? number

def getPull (tracker : Tracker) (full : String) (number : Nat) : Option PullRequest :=
  tracker.forge.state.getPull full number

def nextNumber (tracker : Tracker) (full : String) : Nat :=
  (tracker.forge.state.repo full).nextNumber

def onForge {α : Type} (m : ForgeM α) : TrackerM α := fun tracker =>
  match m.run tracker.forge with
  | .ok a forge => .ok a { tracker with forge }
  | .error e forge => .error (.forge e) { tracker with forge }

def setThreads (full : String) (f : RepoThreads → RepoThreads) : TrackerM Unit :=
  write fun tracker => { tracker with repos := tracker.repos.set full (f (tracker.threads full)) }

def drawCommentId (full : String) : TrackerM Nat := do
  let threads ← read (·.threads full)
  setThreads full fun threads => { threads with nextCommentId := threads.nextCommentId + 1 }
  return threads.nextCommentId

def getRepo (owner name : String) : TrackerM Repo := onForge (ForgeService.getRepo owner name)

def now : TrackerM Instant := onForge ForgeService.now

def requireIssue (repo : Repo) (number : Nat) : TrackerM Issue := do
  let issue ← read (·.getIssue repo.fullName number)
  orRaise (.issueNotFound ("issue #" ++ toString number ++ " not found in " ++ repo.fullName)) issue

def listIssues (owner name : String) (state : Option String) (labels : Option (List String)) :
    TrackerM (List Issue) := do
  let repo ← getRepo owner name
  let threads ← read (·.threads repo.fullName)
  return threads.listIssues state labels

def createIssue (owner name title body user : String) (labels : List String) : TrackerM Issue := do
  let repo ← getRepo owner name
  refuseIf (strip title = "") (.forge (.validationError "issue title can't be blank"))
  let now ← now
  let number ← read (·.nextNumber repo.fullName)
  onForge (ForgeService.setState (·.drawNumber repo.fullName))
  let issue : Issue := { number, title, body, user, labels, createdAt := now, updatedAt := now }
  setThreads repo.fullName (·.putIssue issue)
  return issue

def newComment (full body user : String) : TrackerM Comment := do
  let now ← now
  let id ← drawCommentId full
  return { id, body, user, createdAt := now, updatedAt := now }

def createIssueComment (owner name : String) (number : Nat) (body user : String) :
    TrackerM Comment := do
  let repo ← getRepo owner name
  let issue ← read (·.getIssue repo.fullName number)
  let pull ← read (·.getPull repo.fullName number)
  refuseIf (issue.isNone = true ∧ pull.isNone = true)
    (.issueNotFound ("issue #" ++ toString number ++ " not found in " ++ repo.fullName))
  let comment ← newComment repo.fullName body user
  match issue with
  | some issue => setThreads repo.fullName (·.addIssueComment issue comment)
  | none => setThreads repo.fullName (·.addPullComment number comment)
  return comment

def listLabels (owner name : String) : TrackerM (List Label) := do
  let repo ← getRepo owner name
  let threads ← read (·.threads repo.fullName)
  return threads.labels.rows.insertionSort fun l m => l.name ≤ m.name

def addLabels (issue : Issue) (labels : List String) : Issue :=
  labels.foldl (fun issue label =>
    if label ∈ issue.labels then issue else { issue with labels := issue.labels ++ [label] }) issue

def addIssueLabels (owner name : String) (number : Nat) (labels : List String) :
    TrackerM Issue := do
  let repo ← getRepo owner name
  let issue ← requireIssue repo number
  let issue := addLabels issue labels
  setThreads repo.fullName (·.putIssue issue)
  return issue

def setIssueState (owner name : String) (number : Nat) (state : String)
    (stateReason : Option String) :
    TrackerM Issue := do
  let state ← orRaise (.forge (.validationError ("invalid state: " ++ state)))
    (if state = "open" then some State.opened else if state = "closed"
      then some State.closed else none)
  let repo ← getRepo owner name
  let issue ← requireIssue repo number
  let now ← now
  let issue := { issue with state, stateReason, updatedAt := now }
  setThreads repo.fullName (·.putIssue issue)
  return issue

section Unicode

variable [Unicode]

def createLabel (owner name labelName : String) : TrackerM Label := do
  let repo ← getRepo owner name
  let threads ← read (·.threads repo.fullName)
  refuseIf ((threads.labels.get? labelName).isSome = true)
    (.labelAlreadyExists ("label " ++ reprStr labelName ++ " already exists in " ++ repo.fullName))
  setThreads repo.fullName (·.putLabel ⟨labelName⟩)
  return ⟨labelName⟩

def removeIssueLabel (owner name : String) (number : Nat) (labelName : String) :
    TrackerM Issue := do
  let repo ← getRepo owner name
  let issue ← requireIssue repo number
  refuseIf (labelName ∉ issue.labels)
    (.labelNotFound ("label " ++ reprStr labelName ++ " not set on issue #" ++
      toString number ++ " in " ++
      repo.fullName))
  let issue := { issue with labels := issue.labels.erase labelName }
  setThreads repo.fullName (·.putIssue issue)
  return issue

def commentMidflight (repo : Option String) (number : Option Nat) (body : Option String)
    (user : String) :
    TrackerM Unit := do
  let missing := .forge (.validationError "comment_midflight requires repo, number, and body")
  let full ← orRaise missing repo
  let number ← orRaise missing number
  let body ← orRaise missing body
  let (owner, name) ← onForge (settle (ForgeService.splitFullName full))
  discard (createIssueComment owner name number body user)

end Unicode

variable [GitHost]

def armLever (kind : LeverKind) (params : LeverParams) (body : Option String) (user : String) :
    TrackerM Unit :=
  if kind = .commentMidflight then commentMidflight params.repo params.number body user
  else discard (onForge (ForgeService.armLever kind params))

end Tracker

inductive TrackerOp
  | call (op : Op)
  | armLever (kind : LeverKind) (params : LeverParams) (body : Option String) (user : String)
  | createIssue (owner name title body user : String) (labels : List String)
  | createIssueComment (owner name : String) (number : Nat) (body user : String)
  | createLabel (owner name labelName : String)
  | addIssueLabels (owner name : String) (number : Nat) (labels : List String)
  | removeIssueLabel (owner name : String) (number : Nat) (labelName : String)
  | setIssueState (owner name : String) (number : Nat) (state : String)
      (stateReason : Option String)

namespace Tracker

variable [GitHost]

def perform : TrackerOp → TrackerM Unit
  | .call (.armLever kind params) => armLever kind params none "octocat"
  | .call op => onForge (ForgeService.perform op)
  | .armLever kind params body user => armLever kind params body user
  | .createIssue owner name title body user labels =>
    discard (createIssue owner name title body user labels)
  | .createIssueComment owner name number body user =>
    discard (createIssueComment owner name number body user)
  | .createLabel owner name labelName => discard (createLabel owner name labelName)
  | .addIssueLabels owner name number labels => discard (addIssueLabels owner name number labels)
  | .removeIssueLabel owner name number labelName =>
    discard (removeIssueLabel owner name number labelName)
  | .setIssueState owner name number state stateReason =>
    discard (setIssueState owner name number state stateReason)

def next (op : TrackerOp) (tracker : Tracker) : Tracker := Method.after (perform op) tracker

def fresh (git : GitBackend) (clock : Stream' Instant) (stamps : Stream' Nat) : Tracker :=
  { forge := .fresh git clock stamps }

end Tracker

end BlizzardMock.Forge
