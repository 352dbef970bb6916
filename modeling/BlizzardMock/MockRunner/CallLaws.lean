import BlizzardMock.MockHub.ApiLaws
import BlizzardMock.MockRunner.Operations

namespace BlizzardMock.MockRunner

open Method MockHub

namespace MockRunnerService

variable [Platform] {α : Type}

def met (stack : Stack) : MockHubService := stack.hub.after stack.passages.head.others

def left (route : Option String → HubM (Reply α)) (stack : Stack) : MockHubService :=
  if stack.passages.head.arrives then Method.after (route stack.runner.token) (met stack)
    else met stack

def returned (route : Option String → HubM (Reply α)) (stack : Stack) : Reply α :=
  if stack.passages.head.arrives then
    if stack.passages.head.answered then
      match answer (route stack.runner.token) (met stack) with
      | .ok reply => reply
      | .error error => .refused 500 (some error)
    else .refused 0 none
  else .refused 0 none

theorem returned_served {route : Option String → HubM (Reply α)} {stack : Stack}
    {status : Nat} {body : α}
    (h : returned route stack = .served status body) :
    answer (route stack.runner.token) (met stack) = .ok (.served status body) ∧
      left route stack = Method.after (route stack.runner.token) (met stack) := by
  simp only [returned] at h
  simp only [left]
  split at h
  case isFalse => cases h
  case isTrue arrives =>
    split at h
    case isFalse => cases h
    case isTrue =>
      rw [if_pos arrives]
      cases answered : answer (route stack.runner.token) (met stack) with
      | error e =>
        rw [answered] at h
        cases h
      | ok reply =>
        rw [answered] at h
        cases h
        exact ⟨rfl, rfl⟩

theorem run_call (route : Option String → HubM (Reply α)) (stack : Stack) :
    (call route).run stack = .ok (returned route stack)
      { stack with hub := left route stack, passages := stack.passages.tail } := by
  simp only [call, returned, left]
  change EStateM.run (if stack.passages.head.arrives then _ else _) _ = _
  cases stack.passages.head.arrives with
  | false => rfl
  | true =>
    change EStateM.run (if stack.passages.head.answered then _ else _) _ = _
    cases stack.passages.head.answered with
    | false => rfl
    | true =>
      change EStateM.run (match answer (route stack.runner.token) (met stack) with
        | .ok reply => _
        | .error error => _) _ = _
      cases answer (route stack.runner.token) (met stack) <;> rfl

def numbered (stack : Stack) : Stack :=
  { stack with runner := { stack.runner with runnerSeq := stack.runner.runnerSeq + 1 } }

def nextFact (kind : String) (payload : Fields) (stack : Stack) : Fact :=
  { seq := stack.runner.runnerSeq + 1, kind, payload }

def logged (kind : String) (payload : Fields) (stack : Stack) : Push where
  fact := nextFact kind payload stack
  reply := returned (Api.pushFacts · [nextFact kind payload stack]) (numbered stack)
  before := met stack
  after := left (Api.pushFacts · [nextFact kind payload stack]) (numbered stack)

theorem run_pushFact (kind : String) (payload : Fields) (stack : Stack) :
    (pushFact kind payload).run stack = .ok (logged kind payload stack).reply
      { numbered stack with
        hub := (logged kind payload stack).after
        passages := stack.passages.tail
        pushes := logged kind payload stack :: stack.pushes } := by
  have called := run_call (Api.pushFacts · [nextFact kind payload stack]) (numbered stack)
  simp only [pushFact, setRunner, readRunner]
  rw [run_write_bind, run_read_bind, run_read_bind]
  exact run_bind_of_run called

end MockRunnerService

end BlizzardMock.MockRunner
