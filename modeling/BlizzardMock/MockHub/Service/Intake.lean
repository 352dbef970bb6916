import BlizzardMock.Data.Lane
import BlizzardMock.MockHub.Service.Chunks
import BlizzardMock.Python.Text

namespace BlizzardMock.MockHub

open Method

structure Fact where
  seq : Int := 0
  kind : String := ""
  payload : List (String × Json) := []

def leaseMinted : String := "lease.minted"
def escalationRecorded : String := "escalation.recorded"
def questionAsked : String := "question.asked"
def answerDelivered : String := "answer.delivered"
def runnerLocallyPaused : String := "runner.locally_paused"
def runnerLocallyResumed : String := "runner.locally_resumed"
def usageRecorded : String := "usage.recorded"
def eventRecorded : String := "event.recorded"
def externalSubscriptionUsageSampled : String := "external_subscription_usage.sampled"
def externalSubscriptionUsageMissed : String := "external_subscription_usage.missed"

namespace ChunkState

variable (chunk : ChunkState)

def fenceRefusal (epoch : Int) : Option String :=
  if chunk.Ended then some "chunk is terminal"
  else if chunk.latestEpoch ≠ 0 ∧ epoch < chunk.latestEpoch then
    some ("stale epoch " ++ toString epoch ++ "; chunk is at " ++ toString chunk.latestEpoch)
  else none

def fenced (epoch : Int) : ChunkState :=
  { chunk with latestEpoch := max chunk.latestEpoch epoch }

end ChunkState

def textOrNone : Json → Except HubError (Option String)
  | .null => .ok none
  | .str s => .ok (some s)
  | _ => .error .validation

def textItems : List Json → Except HubError (List String)
  | [] => .ok []
  | .str s :: rest => (textItems rest).map (s :: ·)
  | _ :: _ => .error .validation

def strictText : Json → Option String
  | .str s => some s
  | _ => none

def strictPercentage : Json → Option Rat
  | .int n => if 0 ≤ n ∧ n ≤ 100 then some n else none
  | .float (.finite _ q) => if 0 ≤ q ∧ q ≤ 100 then some q else none
  | _ => none

def strictPositive : Json → Option Int
  | .int n => if 0 < n then some n else none
  | _ => none

section

variable [Platform]

/-- One entry of `windows`, or nothing for an entry the model does not validate. -/
def usageWindow : Json → Option ExternalSubscriptionUsageWindowView
  | .obj fields => do
    let window ← (Json.lookup "window" fields).bind strictText
    let utilizationPct ← (Json.lookup "utilization_pct" fields).bind strictPercentage
    let resetsAt ← (Json.lookup "resets_at" fields).bind Platform.laxDatetime
    let windowSeconds ← (Json.lookup "window_seconds" fields).bind strictPositive
    let resetsAt := if resetsAt.offset.isSome then resetsAt else resetsAt.replaceUTC
    return ⟨window, utilizationPct, resetsAt.isoformat, windowSeconds⟩
  | _ => none

def usageWindows : Json → List ExternalSubscriptionUsageWindowView
  | .arr entries => entries.filterMap usageWindow
  | _ => []

def textOr (default : String) (value : Json) : String :=
  if value.truthy then value.text else default

def chunkIdOf (payload : List (String × Json)) : String :=
  (Json.get payload "chunk_id" (.str "")).text

def questionIdOf (payload : List (String × Json)) : String :=
  (Json.get payload "question_id" (.str "")).text

def epochOf (payload : List (String × Json)) : Except HubError Int :=
  (Json.get payload "epoch" (.int 0)).toInt.mapError .builtin

def optionsOf (payload : List (String × Json)) : Except HubError (List Json) :=
  let options := Json.get payload "options" .null
  if options.truthy then options.toList.mapError .builtin else .ok []

/-- A non-empty text under `slug`. -/
def slugOf (payload : List (String × Json)) : Option String :=
  (strictText (Json.get payload "slug" .null)).filter (· ≠ "")

def escalationOf (payload : List (String × Json)) (epoch : Int) : EscalationState where
  epoch := epoch
  takeoverCommand := (Json.get payload "takeover_command" (.str "")).text
  wrappedTakeoverCommand := (Json.get payload "wrapped_takeover_command" (.str "")).text
  cause := (Json.get payload "cause" .null).optionalText
  detail := (Json.get payload "detail" .null).optionalText

/-- The row a `question.asked` payload describes, where it validates. -/
def questionOf (runnerId : String) (payload : List (String × Json)) :
    Except HubError QuestionState := do
  let epoch ← epochOf payload
  let options ← optionsOf payload
  let nodeId ← textOrNone (Json.get payload "node_id" .null)
  let sessionId ← textOrNone (Json.get payload "session_id" .null)
  let harnessId ← textOrNone (Json.get payload "harness_id" .null)
  let options ← textItems options
  return {
    questionId := questionIdOf payload
    chunkId := chunkIdOf payload
    nodeId := nodeId
    sessionId := sessionId
    harnessId := harnessId
    runnerId := runnerId
    epoch := epoch
    question := (Json.get payload "question" (.str "")).text
    options := options
    askedAt := (Json.get payload "asked_at" (.str "")).text }

end

namespace MockHubService

def stampOf : Json → Except HubError (Option DateTime)
  | .str s =>
    match DateTime.fromisoformat s with
    | .ok parsed =>
      match parsed.offset with
      | some offset => ((parsed.astimezoneUTC offset).map some).mapError .builtin
      | none => .ok (some parsed.replaceUTC)
    | .error .valueError => .ok none
    | .error e => .error (.builtin e)
  | _ => .ok none

def instantOr : Option DateTime → HubM DateTime
  | some instant => pure instant
  | none => now

def parseInstant (value : Json) : HubM DateTime := do
  let stamp ← settle (stampOf value)
  instantOr stamp

variable [Platform]

def usageView (payload : List (String × Json)) (slug : String) : HubM SubscriptionUsageView := do
  let sampledAt ← parseInstant (Json.get payload "sampled_at" .null)
  return {
    slug := slug
    name := textOr slug (Json.get payload "name" .null)
    sampledAt := some sampledAt.isoformat
    windows := usageWindows (Json.get payload "windows" .null) }

def usageMiss (payload : List (String × Json)) (slug : String) : HubM SubscriptionUsageMiss := do
  let missedAt ← parseInstant (Json.get payload "missed_at" .null)
  return {
    slug := slug
    name := textOr slug (Json.get payload "name" .null)
    missedAt := missedAt
    reason := textOr "" (Json.get payload "reason" .null) }

def advanceFence (chunk : ChunkState) (epoch : Int) (runnerId : String) : HubM Unit := do
  putChunk (chunk.fenced epoch)
  let row ← added runnerId
  setBooks fun books => { books with
    epochOwners := books.epochOwners.setdefault (row.tenantId, chunk.chunkId, epoch) runnerId }

def applyLeaseMinted (runnerId : String) (payload : List (String × Json)) : HubM Bool := do
  let held ← readStore (·.chunks.get? (chunkIdOf payload))
  whenSome (fun chunk => do
    let epoch ← settle (epochOf payload)
    advanceFence chunk epoch runnerId) held
  return true

def applyEscalationRecorded (payload : List (String × Json)) : HubM Bool := do
  match ← readStore (·.chunks.get? (chunkIdOf payload)) with
  | none => return true
  | some chunk => do
    let epoch ← settle (epochOf payload)
    if (chunk.fenceRefusal epoch).isSome then return false
    else do
      putChunk { chunk with escalation := some (escalationOf payload epoch) }
      return true

def questionFenced (store : HubRows) (payload : List (String × Json)) :
    Except HubError Bool :=
  match store.chunks.get? (chunkIdOf payload), store.questions.get? (questionIdOf payload) with
  | some chunk, none => (epochOf payload).map fun epoch => (chunk.fenceRefusal epoch).isSome
  | _, _ => .ok false

def applyQuestionAsked (runnerId : String) (payload : List (String × Json)) : HubM Bool := do
  if questionIdOf payload = "" ∨ chunkIdOf payload = "" then return false
  else do
    let fenced ← settle (← readStore (questionFenced · payload))
    if fenced then return false
    else do
      let question ← settle (questionOf runnerId payload)
      putQuestion question
      return true

def applyAnswerDelivered (payload : List (String × Json)) : HubM Bool := do
  match ← readStore (·.questions.get? (questionIdOf payload)) with
  | none => return false
  | some question =>
    if (question.deliveryRefusal (chunkIdOf payload)).isSome then return false
    else if question.delivered then return true
    else do
      let instant ← now
      putQuestion { question with
        delivered := true, deliveredAt := some instant.isoformat }
      return true

def applyLocallyPaused (runnerId : String) (payload : List (String × Json)) : HubM Bool := do
  report runnerId fun facts => { facts with
    locallyPaused := true
    locallyPausedBy := some (Json.get payload "by" (.str "operator")).text
    locallyPausedReason := Json.get payload "reason" .null }
  return true

def applyLocallyResumed (runnerId : String) : HubM Bool := do
  report runnerId fun facts => { facts with
    locallyPaused := false
    locallyPausedBy := none
    locallyPausedReason := .null }
  return true

def applyUsageSampled (runnerId : String) (payload : List (String × Json)) : HubM Bool := do
  match slugOf payload with
  | none => return false
  | some slug => do
    -- the view is built before the runner's facts are touched
    let view ← usageView payload slug
    report runnerId fun facts => { facts with
      subscriptionUsage := facts.subscriptionUsage.set slug view }
    return true

def applyUsageMissed (runnerId : String) (payload : List (String × Json)) : HubM Bool := do
  match slugOf payload with
  | none => return false
  | some slug => do
    let miss ← usageMiss payload slug
    report runnerId fun facts => { facts with
      subscriptionUsageMisses := facts.subscriptionUsageMisses.set slug miss }
    return true

/-- Dispatch one fact by `kind`: whether it applied.  A known kind naming an unknown chunk still
counts applied. -/
def applyFact (runnerId kind : String) (payload : List (String × Json)) : HubM Bool :=
  if kind = leaseMinted then applyLeaseMinted runnerId payload
  else if kind = escalationRecorded then applyEscalationRecorded payload
  else if kind = questionAsked then applyQuestionAsked runnerId payload
  else if kind = answerDelivered then applyAnswerDelivered payload
  else if kind = runnerLocallyPaused then applyLocallyPaused runnerId payload
  else if kind = runnerLocallyResumed then applyLocallyResumed runnerId
  else if kind = externalSubscriptionUsageSampled then applyUsageSampled runnerId payload
  else if kind = externalSubscriptionUsageMissed then applyUsageMissed runnerId payload
  else return kind = usageRecorded ∨ kind = eventRecorded

def factLane (runnerId : String) : Lane.Rule HubError MockHubService Fact where
  seq := Fact.seq
  judge fact := applyFact runnerId fact.kind fact.payload
  advance := max

def ingestFacts (runnerId : String) (facts : List Fact) : HubM RunnerFactAck := do
  let mark ← readBooks (·.factHighWater.getD runnerId 0)
  let lane ← (factLane runnerId).push facts mark
  setBooks fun books => { books with factHighWater := books.factHighWater.set runnerId lane.mark }
  return ⟨runnerId, lane.mark, lane.applied, lane.alreadyApplied, lane.rejected⟩

def applyHostFact (hostId kind : String) (payload : List (String × Json)) : HubM Bool := do
  match slugOf payload with
  | none => return false
  | some slug =>
    if kind = externalSubscriptionUsageSampled then do
      let view ← usageView payload slug
      let row ← host hostId
      setRegistry (·.putHost { row with subscriptionUsage := row.subscriptionUsage.set slug view })
      return true
    else if kind = externalSubscriptionUsageMissed then
      match strictText (Json.get payload "reason" .null) with
      | none => return false
      | some reason =>
        if strip reason = "" then return false
        else do
          let miss ← usageMiss payload slug
          let row ← host hostId
          setRegistry (·.putHost { row with
            subscriptionUsageMisses := row.subscriptionUsageMisses.set slug miss })
          return true
    else return false

def hostFactLane (hostId : String) : Lane.Rule HubError MockHubService Fact where
  seq := Fact.seq
  judge fact := applyHostFact hostId fact.kind fact.payload
  -- the host's lane assigns the mark, where the runner's takes a maximum
  advance _ seq := seq

def ingestHostFacts (hostId : String) (facts : List Fact) : HubM HostFactAck := do
  let _ ← host hostId
  let mark ← readBooks (·.hostFactHighWater.getD hostId 0)
  let lane ← (hostFactLane hostId).push facts mark
  setBooks fun books => { books with
    hostFactHighWater := books.hostFactHighWater.set hostId lane.mark }
  return ⟨hostId, lane.mark, lane.applied, lane.alreadyApplied, lane.rejected⟩

end MockHubService

end BlizzardMock.MockHub
