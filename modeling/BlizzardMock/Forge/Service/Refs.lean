import BlizzardMock.Forge.Service.Pulls
import BlizzardMock.Python.Fnmatch

namespace BlizzardMock.Forge

open Method

namespace ForgeService

variable [GitHost]

def matchingLevers (kind : LeverKind) (repo : Repo) : ForgeM (List ArmedLever) :=
  read fun forge =>
    forge.levers.values.filter fun lever =>
      lever.kind = kind ∧ lever.Matches (some repo.fullName) none

def coveringRule (levers : List ArmedLever) (branch : String) : Option String :=
  levers.findSome? fun lever => lever.pattern.filter (fnmatchcase branch ·)

def refuseByRuleset (repo : Repo) (branch : String) : ForgeM Unit := do
  let rules ← matchingLevers .ruleset repo
  whenSome
    (fun pattern => raise
      (.ruleViolation ("Repository rule violations found\n\nBranch " ++ branch ++
      " is covered by the rule " ++ pattern ++ ".")))
    (coveringRule rules branch)

/-- Merges `head` into `base` outside any pull; none where the base already holds the head. -/
def mergeBranches (owner name base head : String) (message : Option String) :
    ForgeM (Option String) := do
  let repo ← getRepo owner name
  refuseIf (base = "" ∨ head = "") (.validationError "both base and head are required")
  let baseThere ← branchExists repo base
  refuseIf (baseThere = false) (.compareRefNotFound "Base does not exist")
  let headSha ← rethrow
    (fun | .branchNotFound _ => .compareRefNotFound "Head does not exist" | e => e)
    (resolveRef repo head)
  refuseByRuleset repo base
  let held ← isAncestor repo headSha base
  if held then return none
  else
    let said := message.filter (· ≠ "")
    let sha ← rethrow
      (fun | .notMergeable _ => .mergeConflict "Merge conflict" | e => e)
      (landOn .merge repo base headSha (said.getD ("Merge branch '" ++ head ++ "' into " ++ base)))
    let commit ← getCommit repo sha
    return some commit

def syntheticCheckRun (sha status : String) (conclusion : Option String) : CheckRun :=
  { name := "ci", status, conclusion, headSha := sha }

def firstHeadedAt (repo : Repo) (sha : String) : List PullRequest → ForgeM (Option PullRequest)
  | [] => return none
  | pull :: rest => do
    let headSha ← resolveRef repo pull.head
    if headSha = sha then return some pull else firstHeadedAt repo sha rest

def findPullByHeadSha (repo : Repo) (sha : String) : ForgeM (Option PullRequest) := do
  let state ← read (·.state)
  firstHeadedAt repo sha (state.listPulls repo.fullName (some "open"))

def baseFailed (repo : Repo) (sha : String) : ForgeM Bool := do
  let lever ← findLever .baseChecksFailed repo none
  if lever.isSome = true then (fun tip => decide (sha = tip)) <$> resolveRef repo repo.defaultBranch
  else return false

def derivedCheckRun (repo : Repo) (sha : String) : ForgeM CheckRun := do
  let pull ← findPullByHeadSha repo sha
  let levers ← read (·.levers)
  -- a lever of the pull that is headed at the commit, when one is
  let armed (kind : LeverKind) : Bool := pull.any fun pull =>
    (levers.find kind (some repo.fullName) (some pull.number)).isSome
  if armed .checksFailed then return syntheticCheckRun sha "completed" (some "failure")
  else if armed .checksStartupFailure then
    return syntheticCheckRun sha "completed" (some "startup_failure")
  else
    let red ← baseFailed repo sha
    if red then return syntheticCheckRun sha "completed" (some "failure")
    else if armed .checksPending then return syntheticCheckRun sha "in_progress" none
    else return syntheticCheckRun sha "completed" (some "success")

def listCheckRuns (owner name ref : String) : ForgeM (List CheckRun) := do
  let repo ← getRepo owner name
  let sha ← resolveRef repo ref
  let checks ← read (·.checks)
  match checks.runs repo.fullName sha with
  | some armed => return armed
  | none =>
    let run ← derivedCheckRun repo sha
    return [run]

def updateRefTo (owner name ref sha : String) (force : Bool) : ForgeM String := do
  let repo ← getRepo owner name
  let guards ← matchingLevers .branchProtected repo
  refuseIf (guards.any (·.branch = some ref) = true)
    (.protectedBranch ("Protected branch update failed for refs/heads/" ++ ref ++ "."))
  let currentSha ← resolveRef repo ref
  let targetSha ← resolveRef repo sha
  let forward ← if force then pure true else isAncestor repo currentSha targetSha
  refuseIf (forward = false)
    (.notFastForward ("Update is not a fast forward: refs/heads/" ++ ref))
  updateRef repo ref targetSha
  return targetSha

def removeHeadsPrefix (ref : String) : String :=
  if "refs/heads/".toList.isPrefixOf ref.toList then
    String.ofList (ref.toList.drop "refs/heads/".length)
  else ref

def createRef (owner name ref sha : String) : ForgeM String := do
  let repo ← getRepo owner name
  let branch := removeHeadsPrefix ref
  refuseIf (branch = ref ∨ branch = "") (.validationError "Reference name is invalid")
  refuseByRuleset repo branch
  let there ← branchExists repo branch
  refuseIf (there = true) (.refAlreadyExists "Reference already exists")
  let targetSha ← rethrow
    (fun | .branchNotFound _ => .validationError "Object does not exist" | e => e)
    (resolveRef repo sha)
  createBranch repo branch targetSha
  return targetSha

def closeWith (repo : Repo) (pull : PullRequest) : ForgeM Unit := do
  let (headSha, baseSha) ← freeze repo pull
  let now ← now
  putPull repo { pull with
    closedHeadSha := some headSha
    closedBaseSha := some baseSha
    state := .closed
    updatedAt := now }

def closePulls (repo : Repo) (branch : String) : List PullRequest → ForgeM Unit
  | [] => return ()
  | pull :: rest => do
    if pull.On branch then closeWith repo pull
    closePulls repo branch rest

def deleteRef (owner name branch : String) : ForgeM Unit := do
  let repo ← getRepo owner name
  let there ← branchExists repo branch
  refuseIf (there = false) (.refMissing "Reference does not exist")
  let state ← read (·.state)
  closePulls repo branch (state.listPulls repo.fullName (some "open"))
  deleteBranch repo branch

def externalMerge (params : LeverParams) : ForgeM Unit := do
  let missing := .validationError "externally_merged requires repo and number"
  let full ← orRaise missing params.repo
  let number ← orRaise missing params.number
  let (owner, name) ← settle (splitFullName full)
  let repo ← getRepo owner name
  let pull ← requirePull repo number
  if pull.merged then return ()
  else
    let headSha ← resolveRef repo pull.head
    let method := params.method.getD .merge
    let message :=
      if method = .squash then pull.title ++ " (#" ++ toString pull.number ++ ") (external)"
      else "Merge pull request #" ++ toString pull.number ++ " from " ++ pull.head ++ " (external)"
    let newSha ← land repo pull method (some message)
    recordMerge repo pull newSha "external" headSha

def invalidStatus (specs : List CheckSpec) : Option String :=
  (specs.map (·.status)).find? fun status => (checkStatuses.lookup status).isNone

def namedCheckRun (sha : String) (spec : CheckSpec) : CheckRun :=
  let (status, conclusion) := (checkStatuses.lookup spec.status).getD ("", none)
  { name := spec.name, status, conclusion, headSha := sha }

def refChecks (params : LeverParams) : ForgeM Unit := do
  let missing := .validationError "ref_checks requires repo, ref, and checks"
  let full ← orRaise missing params.repo
  let ref ← orRaise missing params.ref
  let specs ← orRaise missing params.checks
  whenSome (fun status => raise (.validationError ("invalid check status: " ++ status)))
    (invalidStatus specs)
  let (owner, name) ← settle (splitFullName full)
  let repo ← getRepo owner name
  let sha ← resolveRef repo ref
  let full := repo.fullName
  if specs = [] then setChecks (·.replaceAll full sha [])
  setChecks fun checks =>
    specs.foldl (fun checks spec => checks.put full sha (namedCheckRun sha spec)) checks

def fireActionLever (kind : LeverKind) (params : LeverParams) : ForgeM Unit :=
  match kind with
  | .externallyMerged => externalMerge params
  | .refChecks => refChecks params
  | .rateBudget => do
    let now ← now
    setRate (·.setBudget now params.token params.remaining params.reset)
  -- `comment_midflight` adds to a thread, and threads are no part of this state
  | _ => return ()

def armLever (kind : LeverKind) (params : LeverParams) : ForgeM (Option Lever) := do
  if kind ∈ actionLevers then
    fireActionLever kind params
    return none
  else match inScope : requireScope kind params with
    | .error e => raise e
    | .ok () =>
      let lever : ArmedLever :=
        { kind, repo := params.repo, number := params.number, remaining := params.remaining,
          message := params.message, branch := params.branch, pattern := params.pattern,
          state := params.state, inScope := inScope }
      setLevers (·.arm lever)
      return some lever.toLever

def clearLever (kind : LeverKind) (repo : Option String) (number : Option Nat)
    (branch pattern : Option String) : ForgeM Unit :=
  setLevers (·.clear kind repo number branch pattern)

def clearAllLevers : ForgeM Unit := do
  setLevers fun _ => ∅
  setChecks fun _ => ∅
  setRate (·.clear)

end ForgeService

end BlizzardMock.Forge
