import BlizzardMock.Forge.Service.Base

namespace BlizzardMock.Forge

open Method

structure PullView where
  pull : PullRequest
  headSha : String
  baseSha : String
  mergeable : Option Bool
  mergeableState : MergeableState
  deriving DecidableEq

/-- One page of a pull listing; nothing is paged where the request named no `per_page`. -/
structure PullPage where
  views : List PullView
  page : Int
  perPage : Option Int
  total : Nat

def maxPerPage : Int := 100

structure PullQuery where
  state : Option String := some "open"
  base : Option String := none
  head : Option String := none
  sort : Option String := none
  direction : Option String := none
  page : Int := 1
  perPage : Option Int := none

structure MergeResult where
  sha : String
  message : String

def rpartitionColon (s : String) : Option String × String :=
  let branch := (s.toList.reverse.takeWhile (· ≠ ':')).reverse
  if ':' ∈ s.toList then
    (some (String.ofList (s.toList.take (s.toList.length - branch.length - 1))),
      String.ofList branch)
  else (none, s)

namespace PullQuery

variable (query : PullQuery)

def Heads (repo : Repo) (pull : PullRequest) : Prop :=
  ∀ head ∈ query.head,
    ((rpartitionColon head).1 = none ∨ (rpartitionColon head).1 = some repo.owner) ∧
      pull.head = (rpartitionColon head).2

instance (repo : Repo) (pull : PullRequest) : Decidable (query.Heads repo pull) :=
  inferInstanceAs (Decidable (∀ head ∈ query.head, _))

def Selects (repo : Repo) (pull : PullRequest) : Prop :=
  (query.base = none ∨ query.base = some pull.base) ∧ query.Heads repo pull

instance (repo : Repo) (pull : PullRequest) : Decidable (query.Selects repo pull) :=
  inferInstanceAs (Decidable (_ ∧ _))

def Descending : Prop :=
  query.direction.getD (if query.sort ∈ [none, some "created"] then "desc" else "asc") = "desc"

instance : Decidable query.Descending := inferInstanceAs (Decidable (_ = _))

def time (pull : PullRequest) : Instant :=
  if query.sort = some "updated" then pull.updatedAt else pull.createdAt

def Before (p q : PullRequest) : Prop :=
  query.time p < query.time q ∨ (query.time p = query.time q ∧ p.number ≤ q.number)

instance : DecidableRel query.Before := fun p q =>
  inferInstanceAs (Decidable (query.time p < query.time q ∨
    (query.time p = query.time q ∧ p.number ≤ q.number)))

def matching (repo : Repo) (state : InMemoryForgeState) : List PullRequest :=
  let pulls := (state.listPulls repo.fullName query.state).filter (query.Selects repo ·)
  if query.Descending then pulls.insertionSort fun p q => query.Before q p
  else pulls.insertionSort query.Before

def chosen (pulls : List PullRequest) : Int × Option Int × List PullRequest :=
  let page := max query.page 1
  match query.perPage with
  | none => (page, none, if page = 1 then pulls else [])
  | some perPage =>
    let perPage := min (max perPage 1) maxPerPage
    (page, some perPage,
      (pulls.take (page * perPage).toNat).drop ((page - 1) * perPage).toNat)

end PullQuery

namespace ForgeService

variable [GitHost]

def requirePull (repo : Repo) (number : Nat) : ForgeM PullRequest := do
  let state ← read (·.state)
  orRaise
    (.pullNotFound ("pull request #" ++ toString number ++ " not found in " ++ repo.fullName))
    (state.getPull repo.fullName number)

def putPull (repo : Repo) (pull : PullRequest) : ForgeM Unit :=
  setState (·.putPull repo.fullName pull)

def findLever (kind : LeverKind) (repo : Repo) (number : Option Nat) :
    ForgeM (Option ArmedLever) :=
  read (·.levers.find kind (some repo.fullName) number)

def mergeability (repo : Repo) (pull : PullRequest) : ForgeM (Option Bool × MergeableState) := do
  let levers ← read (·.levers)
  let find (kind : LeverKind) := levers.find kind (some repo.fullName) (some pull.number)
  if pull.merged ∨ pull.state = .closed then return (none, .unknown)
  else if (find .mergeConflict).isSome then return (some false, .dirty)
  else match (find .mergeableState).bind (·.state) with
  | some forced => return (some true, forced)
  | none =>
    -- behind, not conflicted: mergeable once the branch is updated
    if (find .staleBranch).isSome then return (some true, .behind)
    else if (find .checksPending).isSome then return (some true, .blocked)
    else if (find .checksFailed).isSome then return (some true, .blocked)
    else if (find .checksStartupFailure).isSome then return (some true, .blocked)
    else
      let mergeable ← isMergeable repo pull.base pull.head
      if mergeable then return (some true, .clean) else return (some false, .dirty)

def viewedHead (repo : Repo) (pull : PullRequest) : ForgeM String :=
  match if pull.state = .closed then pull.closedHeadSha else none with
  | some sha => pure sha
  | none => resolveRef repo pull.head

def viewedBase (repo : Repo) (pull : PullRequest) : ForgeM String :=
  rescue (fun | .branchNotFound _ => pull.closedBaseSha | _ => none) (resolveRef repo pull.base)

def view (repo : Repo) (pull : PullRequest) : ForgeM PullView := do
  let headSha ← viewedHead repo pull
  let baseSha ← viewedBase repo pull
  let (mergeable, mergeableState) ← mergeability repo pull
  return { pull, headSha, baseSha, mergeable, mergeableState }

def listPulls (owner name : String) (query : PullQuery) : ForgeM PullPage := do
  let repo ← getRepo owner name
  refuseIf (query.sort ∉ [none, some "created", some "updated"])
    (.validationError ("invalid sort: " ++ query.sort.getD ""))
  refuseIf (query.direction ∉ [none, some "asc", some "desc"])
    (.validationError ("invalid direction: " ++ query.direction.getD ""))
  let state ← read (·.state)
  let pulls := query.matching repo state
  let (page, perPage, chosen) := query.chosen pulls
  let views ← collect (fun pull => some <$> view repo pull) chosen
  return { views, page, perPage, total := pulls.length }

def getPull (owner name : String) (number : Nat) : ForgeM PullView := do
  let repo ← getRepo owner name
  let pull ← requirePull repo number
  view repo pull

def createPull (owner name title body head base user : String) : ForgeM PullView := do
  let repo ← getRepo owner name
  refuseIf (head = "" ∨ base = "") (.validationError "both head and base are required")
  let headThere ← branchExists repo head
  refuseIf (headThere = false) (.validationError ("head ref does not exist: " ++ head))
  let baseThere ← branchExists repo base
  refuseIf (baseThere = false) (.validationError ("base ref does not exist: " ++ base))
  let state ← read (·.state)
  refuseIf (∃ pull ∈ state.listPulls repo.fullName (some "open"), pull.head = head ∧
    pull.base = base)
    (.validationError ("A pull request already exists for " ++ owner ++ ":" ++ head ++ "."))
  let now ← now
  let number := (state.repo repo.fullName).nextNumber
  setState (·.drawNumber repo.fullName)
  let pull : PullRequest :=
    { number, title, body, head, base, user, createdAt := now, updatedAt := now }
  putPull repo pull
  view repo pull

def land (repo : Repo) (pull : PullRequest) (method : MergeMethod) (message : Option String) :
    ForgeM String :=
  -- an empty message is falsy, so it falls back like an absent one
  let said := message.filter (· ≠ "")
  let title := pull.title ++ " (#" ++ toString pull.number ++ ")"
  let commitMessage :=
    said.getD ("Merge pull request #" ++ toString pull.number ++ " from " ++ pull.head)
  landOn method repo pull.base pull.head
    (if method = .squash then said.getD title else commitMessage)

def recordMerge (repo : Repo) (pull : PullRequest) (sha mergedBy headSha : String) :
    ForgeM Unit := do
  let now ← now
  putPull repo { pull with
    merged := true
    mergedAt := some now
    mergedBy := some mergedBy
    mergeCommitSha := some sha
    closedHeadSha := some headSha
    closedBaseSha := some sha
    state := .closed
    updatedAt := now }

def mergePull (owner name : String) (number : Nat) (method : MergeMethod)
    (message sha : Option String)
    (user : String) : ForgeM MergeResult := do
  let repo ← getRepo owner name
  let pull ← requirePull repo number
  let notMergeable := .notMergeable ("pull request #" ++ toString number ++ " is not mergeable")
  refuseIf (pull.merged ∨ pull.state = .closed) notMergeable
  let disallowed ← findLever .mergeCommitsDisallowed repo none
  refuseIf (method = .merge ∧ disallowed.isSome)
    (.mergeMethodNotAllowed "Merge commits are not allowed on this repository")
  let rejected ← findLever .mergeRejected repo (some number)
  let reason := (rejected.bind (·.message)).filter (· ≠ "")
  refuseIf (rejected.isSome = true)
    (.mergeRejected (reason.getD "merge was rejected by branch policy"))
  let conflict ← findLever .mergeConflict repo (some number)
  refuseIf (conflict.isSome = true) notMergeable
  let headSha ← resolveRef repo pull.head
  refuseIf (sha ≠ none ∧ sha ≠ some headSha)
    (.headMismatch "Head branch was modified. Review and try the merge again.")
  let newSha ← land repo pull method message
  recordMerge repo pull newSha user headSha
  return ⟨newSha, "Pull Request successfully merged"⟩

def isMerged (owner name : String) (number : Nat) : ForgeM Bool := do
  let repo ← getRepo owner name
  let pull ← requirePull repo number
  return pull.merged

def updateBranch (owner name : String) (number : Nat) (expectedHeadSha : Option String) :
    ForgeM String := do
  let repo ← getRepo owner name
  let pull ← requirePull repo number
  refuseIf (pull.merged ∨ pull.state = .closed)
    (.notMergeable ("pull request #" ++ toString number ++ " is not mergeable"))
  let headSha ← resolveRef repo pull.head
  refuseIf (expectedHeadSha ≠ none ∧ expectedHeadSha ≠ some headSha)
    (.headMismatch "Head branch was modified. Review and try the merge again.")
  let conflict := .updateConflict
    ("merge conflict between base (" ++ pull.base ++ ") and head (" ++ pull.head ++ ")")
  let conflicts ← findLever .mergeConflict repo (some number)
  refuseIf (conflicts.isSome = true) conflict
  let _ ← rethrow (fun | .notMergeable _ => conflict | e => e)
    (landOn .merge repo pull.head pull.base
      ("Merge branch '" ++ pull.base ++ "' into " ++ pull.head))
  let stale ← findLever .staleBranch repo (some number)
  whenSome (fun lever => setLevers (·.clear lever.kind lever.repo lever.number none none)) stale
  return "Updating pull request branch."

/-- Pins the shas a pull closes with.  The pull is the stored one, so each is pinned as it is read.
-/
def freeze (repo : Repo) (pull : PullRequest) : ForgeM (String × String) := do
  let headSha ← resolveRef repo pull.head
  putPull repo { pull with closedHeadSha := some headSha }
  let baseSha ← resolveRef repo pull.base
  putPull repo { pull with closedHeadSha := some headSha, closedBaseSha := some baseSha }
  return (headSha, baseSha)

/-- What a pull is before its state is set: frozen on the way to closed, thawed on the way to open
while its head branch stands. -/
def thawed (repo : Repo) (pull : PullRequest) (state : State) : ForgeM PullRequest :=
  if state = .closed ∧ pull.state ≠ .closed then do
    let (headSha, baseSha) ← freeze repo pull
    return { pull with closedHeadSha := some headSha, closedBaseSha := some baseSha }
  else if state = .opened ∧ pull.merged = false then do
    let headThere ← branchExists repo pull.head
    refuseIf (headThere = false) (.validationError ("head ref does not exist: " ++ pull.head))
    return { pull with closedHeadSha := none, closedBaseSha := none }
  else return pull

def setPullState (owner name : String) (number : Nat) (state : State) : ForgeM PullView := do
  let repo ← getRepo owner name
  let pull ← requirePull repo number
  let pull ← thawed repo pull state
  let now ← now
  let pull := { pull with state, updatedAt := now }
  putPull repo pull
  view repo pull

end ForgeService

end BlizzardMock.Forge
