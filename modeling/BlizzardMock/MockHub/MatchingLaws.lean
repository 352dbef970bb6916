import BlizzardMock.Data.Walk
import BlizzardMock.MockHub.Matching

namespace BlizzardMock.MockHub.Matching

variable (chunk : ChunkState)

def leads (nodeId : String) : List String := ((chunk.node nodeId).elim [] pushedChoices).reverse

def Edge (nodeId other : String) : Prop :=
  ∃ node, chunk.node nodeId = some node ∧ ∃ choice ∈ node.choices, choice.to = other ∧
    other ≠ terminal

/-- The nodes reached from one along the choices that do not name the reserved terminal. -/
def Reaches : String → String → Prop := Relation.ReflTransGen (Edge chunk)

def runs (nodeId : String) : Bool := (chunk.node nodeId).any (·.executor = .runner)

def ofHarness (capabilities : List RunnerCapability) (harnessId : String) :
    Option RunnerCapability :=
  (capabilities.filter (·.available)).find? (·.harnessId = harnessId)

def Knows (capability : RunnerCapability) (models : List String) : Prop :=
  ∃ entry ∈ models, entry ∈ capability.tiers ∨ supported entry capability = true

/-- A runner's capabilities serve the effective session of a node: one that is the default serves
any harness; else one of the preferred harnesses is there, and where several are preferred knows a
model of those preferred, if any are. -/
def Served (node : NodeSpec) (capabilities : List RunnerCapability) : Prop :=
  let harnesses := effectiveHarnesses chunk node
  let models := effectiveModel chunk node
  if harnesses = [] then ∃ capability ∈ capabilities, capability.available ∧ capability.default
  else ∃ harnessId ∈ harnesses, ∃ capability, ofHarness capabilities harnessId = some capability ∧
    (1 < harnesses.length → models ≠ [] → Knows capability models)

variable {chunk}

theorem step_leads {nodeId other : String} : Walk.Step (leads chunk) nodeId other ↔
      Edge chunk nodeId other := by
  simp only [Walk.Step, leads, Edge, List.mem_reverse]
  cases chunk.node nodeId with
  | none => simp
  | some node =>
    simp only [pushedChoices, Option.elim_some, List.mem_filter, List.mem_map, decide_eq_true_eq,
      Option.some.injEq, exists_eq_left']
    constructor
    · rintro ⟨⟨choice, mem, named⟩, goes⟩
      exact ⟨choice, mem, named, goes⟩
    · rintro ⟨choice, mem, named, goes⟩
      exact ⟨⟨choice, mem, named⟩, goes⟩

theorem lineageSatisfied_iff {nodeId : String} {node : NodeSpec}
    (held : chunk.node nodeId = some node)
    (capabilities : List RunnerCapability) :
    lineageSatisfied chunk nodeId capabilities = true ↔ Served chunk node capabilities := by
  simp only [lineageSatisfied, held, Served]
  split
  case isTrue => simp
  case isFalse =>
    rw [List.any_eq_true]
    apply exists_congr
    intro harnessId
    apply and_congr_right
    intro _
    simp only [ofHarness]
    cases (capabilities.filter (·.available)).find? (·.harnessId = harnessId) with
    | none => simp
    | some capability => simp [Knows, imp_iff_not_or, or_assoc]

theorem Served.append {node : NodeSpec} {capabilities : List RunnerCapability}
    (served : Served chunk node capabilities) (more : List RunnerCapability) :
    Served chunk node (capabilities ++ more) := by
  simp only [Served] at served ⊢
  split at served
  case isTrue none =>
    rw [if_pos none]
    obtain ⟨capability, mem, serves⟩ := served
    exact ⟨capability, List.mem_append_left _ mem, serves⟩
  case isFalse some' =>
    rw [if_neg some']
    obtain ⟨harnessId, preferred, capability, first, knows⟩ := served
    refine ⟨harnessId, preferred, capability, ?_, knows⟩
    simp only [ofHarness] at first ⊢
    rw [List.filter_append, List.find?_append, first, Option.some_or]

def unpushed (seen : List String) : List (String × NodeSpec) → Nat
  | [] => 0
  | (id, node) :: rest => (if id ∈ seen then 0 else node.choices.length) + unpushed seen rest

theorem unpushed_seen (seen : List String) (id : String) (entries : List (String × NodeSpec)) :
    unpushed (id :: seen) entries ≤ unpushed seen entries := by
  induction entries with
  | nil => exact le_refl 0
  | cons entry rest ih =>
    simp only [unpushed, List.mem_cons]
    split <;> split <;> first | omega | simp_all

theorem unpushed_visit {seen : List String} {id : String} {node : NodeSpec}
    {entries : List (String × NodeSpec)}
    (new : id ∉ seen) (held : Dict.findEntry id entries = some node) :
    unpushed (id :: seen) entries + node.choices.length ≤ unpushed seen entries := by
  induction entries with
  | nil => cases held
  | cons entry rest ih =>
    obtain ⟨other, spec⟩ := entry
    simp only [Dict.findEntry] at held
    simp only [unpushed]
    split at held
    case isTrue same =>
      cases held
      have later := unpushed_seen seen id rest
      rw [same, if_pos List.mem_cons_self, if_neg new]
      omega
    case isFalse apart =>
      have later := ih held
      have alike : other ∈ id :: seen ↔ other ∈ seen := by simp [apart]
      simp only [alike]
      omega

theorem unpushed_nil (entries : List (String × NodeSpec)) :
    unpushed [] entries = ((entries.map Prod.snd).map fun node => node.choices.length).sum := by
  induction entries with
  | nil => rfl
  | cons entry rest ih => simp [unpushed, ih]

theorem loop_walks {passes : Nat} {stack seen : List String}
    (enough : stack.length + unpushed seen chunk.nodes.entries < passes) :
    ∃ visited, Walk (leads chunk) stack seen visited ∧
      runnerNodeIdsLoop chunk passes stack seen = visited.filter (runs chunk) := by
  induction passes generalizing stack seen with
  | zero => exact absurd enough (Nat.not_lt_zero _)
  | succ passes ih =>
    cases stack with
    | nil => exact ⟨[], .done, rfl⟩
    | cons nodeId stack =>
      simp only [List.length_cons] at enough
      simp only [runnerNodeIdsLoop]
      by_cases old : nodeId ∈ seen
      · rw [if_pos old]
        have enough : stack.length + unpushed seen chunk.nodes.entries < passes := by omega
        obtain ⟨visited, walk, found⟩ := ih enough
        exact ⟨visited, .skip old walk, found⟩
      · rw [if_neg old]
        cases held : chunk.node nodeId with
        | none =>
          have idle : leads chunk nodeId = [] := by simp [leads, held]
          have fewer := unpushed_seen seen nodeId chunk.nodes.entries
          have enough : stack.length + unpushed (nodeId :: seen) chunk.nodes.entries < passes := by
            omega
          obtain ⟨visited, walk, found⟩ := ih enough
          refine ⟨nodeId :: visited, .visit old ?_, ?_⟩
          · rwa [idle]
          · rw [List.filter_cons_of_neg (by simp [runs, held])]
            exact found
        | some node =>
          have led : leads chunk nodeId = (pushedChoices node).reverse := by simp [leads, held]
          have fewer := unpushed_visit old held
          have pushed : (pushedChoices node).length ≤ node.choices.length := by
            simpa [pushedChoices] using List.length_filter_le (· ≠ terminal)
              (node.choices.map ChoiceSpec.to)
          have enough : ((pushedChoices node).reverse ++ stack).length +
              unpushed (nodeId :: seen) chunk.nodes.entries < passes := by
            simp only [List.length_append, List.length_reverse]
            omega
          obtain ⟨visited, walk, found⟩ := ih enough
          refine ⟨nodeId :: visited, .visit old ?_, ?_⟩
          · rwa [led]
          · simp only [found, List.filter_cons, runs, held, Option.any_some, decide_eq_true_eq]

theorem reachable_walks (start : String) : ∃ visited, Walk (leads chunk) [start] [] visited ∧
    reachableRunnerNodeIds chunk start = visited.filter (runs chunk) := by
  apply loop_walks
  rw [unpushed_nil]
  change 1 + _ < (chunk.nodes.values.map fun node => node.choices.length).sum + 2
  rw [Dict.values]
  omega

theorem mem_reachableRunnerNodeIds {start nodeId : String} :
    nodeId ∈ reachableRunnerNodeIds chunk start ↔
      Reaches chunk start nodeId ∧ ∃ node, chunk.node nodeId = some node ∧
        node.executor = .runner := by
  obtain ⟨visited, walk, found⟩ := reachable_walks start
  have same : Walk.Step (leads chunk) = Edge chunk := by
    funext n m
    exact propext step_leads
  rw [found, List.mem_filter, walk.mem_iff, same]
  simp [Reaches, runs, Option.any_eq_true]

theorem capabilityIneligible_iff {start : String} {capabilities : List RunnerCapability} :
    capabilityIneligible chunk start capabilities = true ↔ capabilities = [] ∨
      ∃ nodeId node, Reaches chunk start nodeId ∧ chunk.node nodeId = some node ∧
        node.executor = .runner ∧ ¬ Served chunk node capabilities := by
  simp only [capabilityIneligible, Bool.or_eq_true, List.isEmpty_iff]
  apply or_congr_right
  rw [Bool.not_eq_true', List.all_eq_false]
  apply exists_congr
  intro nodeId
  rw [mem_reachableRunnerNodeIds]
  constructor
  · rintro ⟨⟨reached, node, held, runner⟩, unserved⟩
    refine ⟨node, reached, held, runner, fun served => unserved ?_⟩
    exact (lineageSatisfied_iff held capabilities).mpr served
  · rintro ⟨node, reached, held, runner, unserved⟩
    refine ⟨⟨reached, node, held, runner⟩, fun satisfied => unserved ?_⟩
    exact (lineageSatisfied_iff held capabilities).mp satisfied

theorem eligible_append {start : String} {capabilities : List RunnerCapability}
    (eligible : capabilityIneligible chunk start capabilities = false)
    (more : List RunnerCapability) :
    capabilityIneligible chunk start (capabilities ++ more) = false := by
  apply Bool.eq_false_iff.mpr
  intro ineligible
  refine Bool.eq_false_iff.mp eligible (capabilityIneligible_iff.mpr ?_)
  cases capabilityIneligible_iff.mp ineligible with
  | inl none => exact .inl (List.append_eq_nil_iff.mp none).1
  | inr unserved =>
    obtain ⟨nodeId, node, reached, held, runner, unserved⟩ := unserved
    exact .inr ⟨nodeId, node, reached, held, runner, fun served => unserved (served.append more)⟩

/-- The loop over the stack comes to its end; a chunk is ineligible exactly where no capabilities
are asserted, or a runner's node that can be reached is served by none of them; and further
capabilities make no eligible chunk ineligible. -/
theorem eligibility_decided (chunk : ChunkState) (start : String)
    (capabilities : List RunnerCapability) :
    (∃ visited, Walk (leads chunk) [start] [] visited ∧
      reachableRunnerNodeIds chunk start = visited.filter (runs chunk)) ∧
    (capabilityIneligible chunk start capabilities = true ↔ capabilities = [] ∨
      ∃ nodeId node, Reaches chunk start nodeId ∧ chunk.node nodeId = some node ∧
        node.executor = .runner ∧ ¬ Served chunk node capabilities) ∧
    ∀ more, capabilityIneligible chunk start capabilities = false →
      capabilityIneligible chunk start (capabilities ++ more) = false :=
  ⟨reachable_walks start, capabilityIneligible_iff, fun more eligible =>
    eligible_append eligible more⟩

end BlizzardMock.MockHub.Matching
