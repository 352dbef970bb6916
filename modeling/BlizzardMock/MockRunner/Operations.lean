import BlizzardMock.MockRunner.Service

/-! The driver and its hub as a machine: every verb of the driver, its levers, and what others do to
the hub between two verbs. -/

namespace BlizzardMock.MockRunner

open Method MockHub

inductive Verb
  | register (capabilities : Option (List RunnerCapability))
      (subscriptions : Option (List DeclaredSubscription)) (declining : List RunnerDecliningView)
  | peek
  | peekMatched (capabilities : List RunnerCapability) (policy : String) (enrolled : Bool)
  | claim (chunkId : String) (environmentIds : List String)
  | claimNext (environmentIds : List String) (strict : Bool)
  | complete (chunkId choice : String)
  | getChunk (chunkId : String)
  | chunkStatuses (chunkIds : List String)
  | declareGitCommit (leaseId : String) (commit : GitCommit)
  | escalate (chunkId takeoverCommand wrappedTakeoverCommand : String)
      (cause detail : Option String)
  | decide (chunkId : String)
  | ask (chunkId question : String) (options : List String) (harnessId : Option String)
  | pushTranscript (chunkId segmentId : String) (turns : List Fields) (recordTruncated : Bool)
  | pollAnswer (questionId : String)
  | pause (actor : String) (reason : Option String)
  | resume (actor : String)
  | reportEvent (severity kind message : String) (chunkId leaseId nodeName : Option String)
      (detail : Option Fields)
  | reportExternalUsage (slug : Json) (sampledAt : String) (windows : List Fields)
      (name : Option String)
  | reportExternalUsageMiss (slug : Json) (missedAt reason : String) (name : Option String)
  | reset

inductive LeverStep
  | arm (kind : RunnerLever) (chunkId : Option String) (remaining : Option Int) (payload : Fields)
  | clear (kind : String) (chunkId : Option String)
  | clearAll

inductive Step
  | verb (verb : Verb)
  | lever (step : LeverStep)
  | other (op : Op)

def Verb.Answer : Verb → Type
  | .register .. => Reply RunnerRegistrationResponse
  | .peek => Reply (List QueuePeekEntry)
  | .peekMatched .. => Reply (List QueuePeekEntry)
  | .claim .. => Reply RouteClaimResponse
  | .claimNext .. => Option (Reply RouteClaimResponse)
  | .complete .. => MockRunnerService.Completed
  | .getChunk _ => Reply ChunkDetail
  | .chunkStatuses _ => Reply (List ChunkStatusView)
  | .declareGitCommit .. => Unit
  | .escalate .. => Option (Reply RunnerFactAck)
  | .decide _ => Option (Reply ApplyResponse)
  | .ask .. => Option (Reply RunnerFactAck)
  | .pushTranscript .. => Option (Reply TranscriptSegmentAck)
  | .pollAnswer _ => Reply QuestionView
  | .pause .. => Reply RunnerFactAck
  | .resume _ => Reply RunnerFactAck
  | .reportEvent .. => Reply RunnerFactAck
  | .reportExternalUsage .. => Reply RunnerFactAck
  | .reportExternalUsageMiss .. => Reply RunnerFactAck
  | .reset => Unit

def LeverStep.apply : LeverStep → InMemoryLeverStore → InMemoryLeverStore
  | .arm kind chunkId remaining payload, levers =>
    levers.arm ⟨kind.value, chunkId, remaining, payload⟩
  | .clear kind chunkId, levers => levers.clear kind chunkId
  | .clearAll, _ => ∅

variable [Platform]

def Verb.run : (verb : Verb) → DriveM verb.Answer
  | .register caps subs declining => MockRunnerService.register caps subs declining
  | .peek => MockRunnerService.peek
  | .peekMatched caps policy enrolled => MockRunnerService.peekMatched caps policy enrolled
  | .claim c es => MockRunnerService.claim c es
  | .claimNext es strict => MockRunnerService.claimNext es strict
  | .complete c choice => MockRunnerService.complete c choice
  | .getChunk c => MockRunnerService.getChunk c
  | .chunkStatuses cs => MockRunnerService.chunkStatuses cs
  | .declareGitCommit lease commit => MockRunnerService.declareGitCommit lease commit
  | .escalate c takeover wrapped cause detail =>
    MockRunnerService.escalate c takeover wrapped cause detail
  | .decide c => MockRunnerService.decide c
  | .ask c question options harness => MockRunnerService.ask c question options harness
  | .pushTranscript c segment turns truncated =>
    MockRunnerService.pushTranscript c segment turns truncated
  | .pollAnswer q => MockRunnerService.pollAnswer q
  | .pause actor reason => MockRunnerService.pause actor reason
  | .resume actor => MockRunnerService.resume actor
  | .reportEvent severity kind message c lease node detail =>
    MockRunnerService.reportEvent severity kind message c lease node detail
  | .reportExternalUsage slug sampledAt windows name =>
    MockRunnerService.reportExternalUsage slug sampledAt windows name
  | .reportExternalUsageMiss slug missedAt reason name =>
    MockRunnerService.reportExternalUsageMiss slug missedAt reason name
  | .reset => MockRunnerService.reset

def Step.run : Step → DriveM Unit
  | .verb drive => do
    let _ ← drive.run
    return ()
  | .lever step =>
    MockRunnerService.setRunner fun runner => { runner with levers := step.apply runner.levers }
  | .other op => write fun stack => { stack with hub := stack.hub.next op }

namespace Stack

def next (step : Step) (stack : Stack) : Stack := Method.after step.run stack

def after (steps : List Step) (stack : Stack) : Stack := Machine.after next steps stack

/-- Every step of a run meets a condition in the stack it is taken in. -/
def Meets (C : Step → Stack → Prop) (steps : List Step) (stack : Stack) : Prop :=
  Machine.Meets next C steps stack

end Stack

def Passage.direct : Stream' Passage := fun _ => {}

def Stack.fresh (token : Option String) (name workspaceId : String) (hub : MockHubService)
    (passages : Stream' Passage) (clock : Stream' DateTime) (uuids : Stream' String) : Stack where
  runner := { token, name, workspaceId }
  hub
  passages
  clock
  uuids

end BlizzardMock.MockRunner
