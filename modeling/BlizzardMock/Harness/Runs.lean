import BlizzardMock.Data.Machine
import BlizzardMock.Harness.Session

/-! `run_prompt`, turn after turn and process beside process, as far as the session files go. -/

namespace BlizzardMock.Harness

open JsonText

def fenceEnvVar : String := "BLIZZARD_MOCK_HARNESS_FENCE"
def fenceEnvValue : String := "1"
def leaseIdEnvVar : String := "BLIZZARD_LEASE_ID"
def selftestLeaseId : String := "selftest"
def leaseTokenEnvVar : String := "BLIZZARD_LEASE_TOKEN"
def runnerUrlEnvVar : String := "BLIZZARD_RUNNER_URL"

/-- What a turn is launched with; `marker` is whether `find_fence_marker` finds one, `minted` the id
that `uuid4` draws where a spawn names none. -/
structure Launch where
  prompt : Text
  wholeMessage : Bool := false
  isResume : Bool := false
  named : Option String := none
  minted : String := ""
  env : Dict String String := ∅
  marker : Bool := true
  model : Option String := none
  effort : Option String := none
  compactionWindow : Option String := none
  permission : Option String := none

namespace Launch

def isFenced (launch : Launch) : Bool :=
  launch.env.get? fenceEnvVar = some fenceEnvValue && launch.marker

def sessionId (launch : Launch) : String :=
  match launch.named with
  | some id => if id = "" then launch.minted else id
  | none => launch.minted

def isAdmitted (launch : Launch) : Bool :=
  launch.isFenced && (!launch.isResume || launch.named.any (· ≠ ""))

def message (launch : Launch) : Text :=
  if launch.wholeMessage then launch.prompt
  else match Engine.splitBehaviorScript launch.prompt with
    | .ok (some tagged) => tagged.prose
    | _ => launch.prompt

def spawnCredential (launch : Launch) : SpawnCredential where
  leaseId := launch.env.get? leaseIdEnvVar
  leaseToken := launch.env.get? leaseTokenEnvVar
  runnerUrl := launch.env.get? runnerUrlEnvVar

def invocation (launch : Launch) : Invocation where
  kind := if launch.isResume then .resume else .spawn
  model := launch.model
  effort := launch.effort
  compactionWindow := launch.compactionWindow
  permission := launch.permission

def opened (launch : Launch) (state : SessionState) : SessionState :=
  let state :=
    if launch.isResume then
      { state with
        resumes := state.resumes ++ [String.ofList launch.message]
        spawnCredential :=
          if (launch.env.get? leaseTokenEnvVar).isSome then some launch.spawnCredential
            else state.spawnCredential }
    else
      { state with
        selftest := launch.env.get? leaseIdEnvVar = some selftestLeaseId
        spawnCredential := some launch.spawnCredential }
  { state with turns := state.turns + 1, invocations := state.invocations ++ [launch.invocation] }

end Launch

inductive Effect
  | ask (ask : Ask)
  | verdict (choice : String)

def Effect.apply (state : SessionState) : Effect → SessionState
  | .ask asked => { state with asks := state.asks ++ [asked] }
  | .verdict choice => { state with verdicts := state.verdicts ++ [choice] }

/-- Where a process is: before its turn, at a point of the turn with the session as it has it, or
behind it. -/
inductive Phase
  | ready
  | loaded (state : SessionState)
  | running (state : SessionState)
  | ended
  | dead

/-- `effects` is what the process's script has recorded so far. -/
structure Process where
  launch : Launch
  phase : Phase := .ready
  effects : List Effect := []

/-- `begun` are the processes that have saved a turn, in the order they did. -/
structure World where
  files : Files
  process : Nat → Process
  begun : List Nat := []

/-- A script's steps are those of a helper that records something; `finish` is however a script ends
that the process outlives, `die` a `crash(hard=True)` or a kill at any point. -/
inductive Act
  | load (pid : Nat)
  | save (pid : Nat)
  | record (pid : Nat) (effect : Effect)
  | finish (pid : Nat)
  | die (pid : Nat)

def Act.pid : Act → Nat
  | .load pid | .save pid | .record pid _ | .finish pid | .die pid => pid

namespace World

def name (w : World) (pid : Nat) : String := SessionStore.path (w.process pid).launch.sessionId

def set (w : World) (pid : Nat) (process : Process) : World :=
  { w with process := Function.update w.process pid process }

variable [Codecs]

def next (act : Act) (w : World) : World :=
  match act with
  | .load pid =>
    let process := w.process pid
    match process.phase with
    | .ready =>
      if process.launch.isAdmitted then
        match SessionStore.loadOrCreate w.files process.launch.sessionId with
        | .ok state => w.set pid { process with phase := .loaded (process.launch.opened state) }
        | .error _ => w.set pid { process with phase := .dead }
      else w.set pid { process with phase := .dead }
    | _ => w
  | .save pid =>
    let process := w.process pid
    match process.phase with
    | .loaded state =>
      { w with files := SessionStore.save w.files state, begun := w.begun ++ [pid] }.set pid
        { process with phase := .running state }
    | _ => w
  | .record pid effect =>
    let process := w.process pid
    match process.phase with
    | .running state =>
      w.set pid
        { process with
          phase := .running (effect.apply state), effects := process.effects ++ [effect] }
    | _ => w
  | .finish pid =>
    let process := w.process pid
    match process.phase with
    | .running state =>
      { w with files := SessionStore.save w.files state }.set pid { process with phase := .ended }
    | _ => w
  | .die pid =>
    let process := w.process pid
    match process.phase with
    | .ended => w
    | _ => w.set pid { process with phase := .dead }

end World

end BlizzardMock.Harness
