import Mathlib.Logic.Relation
import BlizzardMock.Forge.Operations

/-! The pulls and the branches, and the elementary writes a call is made of. -/

namespace BlizzardMock.Forge

open Method

theorem GitBackend.open?_setBranches (git : GitBackend) (full other : String)
    (f : Dict String String → Dict String String) :
    (git.setBranches full f).open? other =
      if git.backing other = git.backing full then
        (git.open? other).map fun repo => { repo with branches := f repo.branches }
      else git.open? other := by
  cases backed : git.backing full with
  | none => 
    have same : git.setBranches full f = git := by simp only [setBranches, backed]
    rw [same]
    split
    case isTrue h => simp [open?, h]
    case isFalse => rfl
  | some path =>
    cases found : git.repos.get? path with
    | none =>
      have same : git.setBranches full f = git := by
        simp only [setBranches, open?, backed, found, Option.bind_some]
      rw [same]
      split
      case isTrue h => simp [open?, h, found]
      case isFalse => rfl
    | some repo =>
      simp only [setBranches, open?, backed, found, Option.bind_some]
      cases other' : git.backing other with
      | none => simp
      | some path' =>
        simp only [Option.bind_some, Dict.get?_set, Option.some.injEq]
        split
        case isTrue h => simp [h, found]
        case isFalse => rfl

namespace InMemoryForgeState

variable (state : InMemoryForgeState) (full other : String)

theorem repo_putPull (pull : PullRequest) :
    (state.putPull full pull).repo other =
      if other = full then { state.repo full with pulls := (state.repo full).pulls.put pull }
      else state.repo other := by
  simp only [repo, putPull, Dict.getD, Dict.get?_set]
  split <;> rfl

theorem getPull_putPull (pull : PullRequest) (number : Nat) :
    (state.putPull full pull).getPull other number =
      if other = full ∧ number = pull.number then some pull else state.getPull other number := by
  simp only [getPull, repo_putPull]
  by_cases same : other = full
  · simp [same, Table.get?_put]
  · simp [same]

theorem repo_drawNumber :
    (state.drawNumber full).repo other =
      if other = full then { state.repo full with nextNumber := (state.repo full).nextNumber + 1 }
      else state.repo other := by
  simp only [repo, drawNumber, Dict.getD, Dict.get?_set]
  split <;> rfl

@[simp] theorem getPull_drawNumber (number : Nat) :
    (state.drawNumber full).getPull other number = state.getPull other number := by
  simp only [getPull, repo_drawNumber]
  split
  case isTrue same => rw [same]
  case isFalse => rfl

theorem number_of_getPull {state : InMemoryForgeState} {full : String} {number : Nat}
    {pull : PullRequest} (h : state.getPull full number = some pull) : pull.number = number :=
  Table.key_of_get? h

theorem mem_sortedPulls {state : InMemoryForgeState} {full : String} {pull : PullRequest} :
    pull ∈ state.sortedPulls full ↔ state.getPull full pull.number = some pull := by
  rw [sortedPulls, List.mem_insertionSort]
  exact Table.mem_rows

theorem nodup_sortedPulls (state : InMemoryForgeState) (full : String) :
    ((state.sortedPulls full).map (·.number)).Nodup :=
  ((List.perm_insertionSort _ _).map PullRequest.number).nodup_iff.mpr
    (state.repo full).pulls.nodup_rows

theorem mem_openPulls {state : InMemoryForgeState} {full : String} {pull : PullRequest} :
    pull ∈ state.listPulls full (some "open") ↔
      state.getPull full pull.number = some pull ∧ pull.state = .opened := by
  have value : pull.state.value = "open" ↔ pull.state = .opened := by
    cases pull.state <;> decide
  change pull ∈ (state.sortedPulls full).filter (·.state.value = "open") ↔ _
  rw [List.mem_filter, mem_sortedPulls, decide_eq_true_iff, value]

end InMemoryForgeState

/-- The pulls and the branches of a forge: its levers, check runs, windows and clocks aside. -/
structure World where
  git : GitBackend
  state : InMemoryForgeState

namespace World

def getPull (world : World) : String → Nat → Option PullRequest := world.state.getPull

def Stands (world : World) (full branch : String) : Prop :=
  ∃ repo, world.git.open? full = some repo ∧ branch ∈ repo.branches

def Proposes (world : World) (full head base : String) (pull : PullRequest) : Prop :=
  world.getPull full pull.number = some pull ∧ pull.state = .opened ∧
    pull.head = head ∧ pull.base = base

def putPull (world : World) (full : String) (pull : PullRequest) : World :=
  { world with state := world.state.putPull full pull }

theorem getPull_putPull (world : World) (full other : String) (pull : PullRequest) (number : Nat) :
    (world.putPull full pull).getPull other number =
      if other = full ∧ number = pull.number then some pull else world.getPull other number :=
  InMemoryForgeState.getPull_putPull world.state full other pull number

structure Shifts (world later : World) : Prop where
  state : later.state = world.state
  stands : ∀ {full branch}, world.Stands full branch → later.Stands full branch

instance : IsPreorder World Shifts where
  refl _ := ⟨rfl, id⟩
  trans _ _ _ h h' := ⟨h'.state.trans h.state, fun stood => h'.stands (h.stands stood)⟩

theorem shifts_set (world : World) (full branch sha : String) :
    world.Shifts { world with git := world.git.setBranches full (·.set branch sha) } := by
  refine ⟨rfl, ?_⟩
  intro other name stood
  obtain ⟨repo, opened, mem⟩ := stood
  simp only [Stands, GitBackend.open?_setBranches]
  split
  case isFalse => exact ⟨repo, opened, mem⟩
  case isTrue =>
    refine ⟨_, congrArg _ opened, ?_⟩
    rw [Dict.mem_iff, Dict.get?_set] at *
    split
    · exact ⟨sha, rfl⟩
    · exact mem

end World

inductive PullRequest.Edit (pull : PullRequest) : PullRequest → Prop
  | pins (opened : pull.state = .opened) (headSha baseSha : Option String) :
      Edit pull { pull with closedHeadSha := headSha, closedBaseSha := baseSha }
  | closes (opened : pull.state = .opened) (head : pull.closedHeadSha.isSome = true)
      (base : pull.closedBaseSha.isSome = true) (time : Instant) :
      Edit pull { pull with state := .closed, updatedAt := time }
  | touches (closed : pull.state = .closed) (time : Instant) :
      Edit pull { pull with state := .closed, updatedAt := time }
  | merges (unmerged : pull.merged = false) (time : Instant) (mergedBy sha headSha : String) :
      Edit pull { pull with
        merged := true
        mergedAt := some time
        mergedBy := some mergedBy
        mergeCommitSha := some sha
        closedHeadSha := some headSha
        closedBaseSha := some sha
        state := .closed
        updatedAt := time }

namespace World

inductive Writes (world : World) : World → Prop
  | shifted {later : World} (shift : world.Shifts later) : Writes world later
  | edited {full : String} {pull next : PullRequest}
      (found : world.getPull full pull.number = some pull) (edit : pull.Edit next) :
      Writes world (world.putPull full next)
  | created {full : String} {pull : PullRequest}
      (number : pull.number = (world.state.repo full).nextNumber) (opened : pull.state = .opened)
      (unmerged : pull.merged = false) (head : world.Stands full pull.head)
      (base : world.Stands full pull.base)
      (single : ∀ other, ¬ world.Proposes full pull.head pull.base other) :
      Writes world { world with state := (world.state.drawNumber full).putPull full pull }

abbrev Reaches : World → World → Prop := Relation.ReflTransGen Writes

end World

end BlizzardMock.Forge
