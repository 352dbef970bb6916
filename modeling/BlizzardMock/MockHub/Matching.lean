import BlizzardMock.MockHub.State
import BlizzardMock.Python.Fnmatch

namespace BlizzardMock.MockHub.Matching

inductive QueueMatchPolicy | hold | passOver
  deriving DecidableEq

def QueueMatchPolicy.of (value : String) : QueueMatchPolicy :=
  if value = "hold" then .hold else .passOver

variable (chunk : ChunkState)

/-- The outbound edges `_reachable_runner_node_ids` pushes for a node, in order. -/
def pushedChoices (node : NodeSpec) : List String :=
  (node.choices.map ChoiceSpec.to).filter (· ≠ terminal)

/-- The `while stack` loop, its stack top first.  A pass pops one id, so it makes no more passes
than ids are ever pushed. -/
def runnerNodeIdsLoop : Nat → List String → List String → List String
  | 0, _, _ => []
  | _ + 1, [], _ => []
  | passes + 1, nodeId :: stack, seen =>
    if nodeId ∈ seen then runnerNodeIdsLoop passes stack seen
    else
      match chunk.node nodeId with
      | none => runnerNodeIdsLoop passes stack (nodeId :: seen)
      | some node =>
        let found := runnerNodeIdsLoop passes ((pushedChoices node).reverse ++ stack)
          (nodeId :: seen)
        if node.executor = .runner then nodeId :: found else found

def runnerNodeIdsPasses : Nat :=
  (chunk.nodes.values.map fun node => node.choices.length).sum + 2

def reachableRunnerNodeIds (start : String) : List String :=
  runnerNodeIdsLoop chunk (runnerNodeIdsPasses chunk) [start] []

def effectiveHarnesses (node : NodeSpec) : List String :=
  if node.sessionHarnesses ≠ [] then node.sessionHarnesses else chunk.defaultHarnesses

def effectiveModel (node : NodeSpec) : List String :=
  if node.sessionModel ≠ [] then node.sessionModel else chunk.defaultModel

def supported (entry : String) (capability : RunnerCapability) : Bool :=
  !"blizzard:".toList.isPrefixOf entry.toList && capability.supportedModels.any (fnmatchcase entry)

def lineageSatisfied (nodeId : String) (capabilities : List RunnerCapability) : Bool :=
  match chunk.node nodeId with
  | none => true
  | some node =>
    let available := capabilities.filter (·.available)
    let harnesses := effectiveHarnesses chunk node
    if harnesses = [] then available.any (·.default)
    else
      let model := effectiveModel chunk node
      let strict := 1 < harnesses.length ∧ model ≠ []
      harnesses.any fun harnessId =>
        match available.find? (·.harnessId = harnessId) with
        | none => false
        | some capability =>
          !strict || model.any fun entry =>
            capability.tiers.contains entry || supported entry capability

def capabilityIneligible (nodeId : String) (capabilities : List RunnerCapability) : Bool :=
  capabilities.isEmpty ||
    !(reachableRunnerNodeIds chunk nodeId).all fun id => lineageSatisfied chunk id capabilities

end BlizzardMock.MockHub.Matching
