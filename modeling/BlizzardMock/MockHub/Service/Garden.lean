import BlizzardMock.MockHub.Service.Chunks
import BlizzardMock.Python.Text

namespace BlizzardMock.MockHub

open Method

structure GardenProposalClosureView where
  closure : GardenProposalClosureKind
  reason : Option String
  closedBy : String
  closedAt : String
  itemOutcome : Option GardenProposalItemOutcome
  source : Option String
  ref : Option String
  deriving DecidableEq

structure GardenProposalView where
  proposalId : String
  origin : GardenProposalOrigin
  routineName : Option String
  createdBy : Option String
  «class» : String
  title : String
  body : String
  findings : List String
  createdAt : String
  closure : Option GardenProposalClosureView
  project : ProjectFields
  deriving DecidableEq

structure GardenProposalsPageView where
  proposals : List GardenProposalView
  nextCursor : Option String
  deriving DecidableEq

def GardenProposalClosureSpec.view (closure : GardenProposalClosureSpec) (now : String) :
    GardenProposalClosureView where
  closure := closure.closure
  reason := closure.reason
  closedBy := closure.closedBy
  closedAt := (MockHubService.given closure.closedAt).getD now
  itemOutcome := closure.itemOutcome
  source := closure.source
  ref := closure.ref

def proposalView (p : GardenProposalSpec) (routineName now : String) (project : ProjectFields) :
    GardenProposalView where
  proposalId := p.proposalId
  origin := .routineRun
  routineName := some routineName
  createdBy := none
  «class» := p.class
  title := p.title
  body := p.body
  findings := p.findings
  createdAt := (MockHubService.given p.createdAt).getD now
  closure := p.closure.map (·.view now)
  project := project

def RoutineProposalState.admits : RoutineProposalState → GardenProposalSpec → Bool
  | .open, p => p.closure.isNone
  | .closed, p => p.closure.isSome
  | .all, _ => true

def ChunkState.docket (chunk : ChunkState) (state : RoutineProposalState) :
    List GardenProposalSpec :=
  chunk.gardenProposals.filter state.admits

namespace MockHubService

def gardenRunOr404 (chunkId : String) : HubM (ChunkState × GardenRunSpec) := do
  let chunk ← require chunkId
  let run ← orRaise (.noRunContext
    ("chunk " ++ chunkId ++ " carries no run context — not a routine run"))
    chunk.gardenRun
  return (chunk, run)

def gardenProposals (chunkId : String) (state : RoutineProposalState) :
    HubM (List GardenProposalView) := do
  let (chunk, run) ← gardenRunOr404 chunkId
  let instant ← now
  let project ← readStore (projectFields ·.toRegistry chunk.projectId)
  return (chunk.docket state).map (proposalView · run.routineName instant.isoformat project)

def pageOffset : Option String → Except HubError Nat
  | none => .ok 0
  | some cursor =>
    let offset : Int :=
      if startsWith cursor "o:" then
        match intOfText (removePrefix "o:" cursor) with
        | .ok n => n
        | .error _ => -1
      else -1
    if offset < 0 then .error (.malformedCursor cursor) else .ok offset.toNat

def gardenProposalsPage (chunkId : String) (state : RoutineProposalState) (cursor : Option String)
    (limit : Nat) :
    HubM GardenProposalsPageView := do
  let docket ← gardenProposals chunkId state
  let offset ← settle (pageOffset cursor)
  let stop := offset + limit
  return ⟨(docket.drop offset).take limit, if stop < docket.length
    then some ("o:" ++ toString stop) else none⟩

/-- A reader that goes from page to page until one names no next, each page under a limit of its
own; none where it has not come to an end within `fuel` pages. -/
def followPages (chunkId : String) (state : RoutineProposalState) :
    Nat → Stream' Nat → Option String → HubM (Option (List GardenProposalsPageView))
  | 0, _, _ => return none
  | fuel + 1, limits, cursor => do
    let page ← gardenProposalsPage chunkId state cursor limits.head
    match page.nextCursor with
    | none => return some [page]
    | some next => do
      let rest ← followPages chunkId state fuel limits.tail (some next)
      return rest.map (page :: ·)

end MockHubService

end BlizzardMock.MockHub
