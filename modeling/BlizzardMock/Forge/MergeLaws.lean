import BlizzardMock.Forge.CallLaws

namespace BlizzardMock.Forge

open Method

def PullRequest.Landed (pull : PullRequest) : Prop :=
  pull.state = .closed ∧ pull.mergeCommitSha.isSome = true ∧ pull.closedHeadSha.isSome = true

structure PullRequest.StaysLanded (pull later : PullRequest) : Prop where
  merged : later.merged = true
  closed : later.state = .closed
  mergeCommitSha : later.mergeCommitSha = pull.mergeCommitSha
  closedHeadSha : later.closedHeadSha = pull.closedHeadSha

namespace PullRequest.Edit

variable {pull next : PullRequest}

theorem same (edit : pull.Edit next) :
    next.number = pull.number ∧ next.head = pull.head ∧ next.base = pull.base := by
  cases edit <;> exact ⟨rfl, rfl, rfl⟩

theorem opened (edit : pull.Edit next) (h : next.state = .opened) : pull.state = .opened := by
  cases edit with
  | pins opened headSha baseSha => exact opened
  | closes opened head base time => exact opened
  | touches closed time => cases h
  | merges unmerged time mergedBy sha headSha => cases h

theorem landed (edit : pull.Edit next) (before : pull.merged = true → pull.Landed)
    (merged : next.merged = true) : next.Landed := by
  cases edit with
  | pins opened headSha baseSha => cases opened.symm.trans (before merged).1
  | closes opened head base time => cases opened.symm.trans (before merged).1
  | touches closed time => exact ⟨rfl, (before merged).2⟩
  | merges unmerged time mergedBy sha headSha => exact ⟨rfl, rfl, rfl⟩

theorem staysLanded (edit : pull.Edit next) (merged : pull.merged = true) (landed : pull.Landed) :
    pull.StaysLanded next := by
  cases edit with
  | pins opened headSha baseSha => cases opened.symm.trans landed.1
  | closes opened head base time => cases opened.symm.trans landed.1
  | touches closed time => exact ⟨merged, rfl, rfl, rfl⟩
  | merges unmerged time mergedBy sha headSha => cases unmerged.symm.trans merged

end PullRequest.Edit

namespace World

def SingleOpen (world : World) : Prop :=
  ∀ full head base p q, world.Proposes full head base p → world.Proposes full head base q → p = q

def MergedLanded (world : World) : Prop :=
  ∀ full number pull, world.getPull full number = some pull → pull.merged = true → pull.Landed

/-- Every merged pull is still there, and still as it merged. -/
def KeepsMerged (world later : World) : Prop :=
  ∀ full number pull, world.getPull full number = some pull → pull.merged = true →
    ∃ now, later.getPull full number = some now ∧ pull.StaysLanded now

/-- A pull that is opened again is not merged, and no other open pull has its head and base. -/
def Unrivalled (world : World) : Op → Prop
  | .setPullState owner name number .opened =>
    ∀ pull, world.getPull (owner ++ "/" ++ name) number = some pull → pull.merged = false ∧
      (world.Stands (owner ++ "/" ++ name) pull.head →
        ∀ other, world.Proposes (owner ++ "/" ++ name) pull.head pull.base other →
          other.number = number)
  | _ => True

structure Settled (world : World) : Prop where
  single : world.SingleOpen
  landed : world.MergedLanded
  drawn : ∀ full number pull, world.getPull full number = some pull →
    number < (world.state.repo full).nextNumber

variable {world later : World}

theorem Proposes.opened {full head base : String} {pull : PullRequest}
    (h : world.Proposes full head base pull) : pull.state = .opened := h.2.1

theorem KeepsMerged.refl (h : world.MergedLanded) : world.KeepsMerged world :=
  fun full number pull found merged =>
    ⟨pull, found, merged, (h full number pull found merged).1, rfl, rfl⟩

theorem KeepsMerged.trans {last : World} (h : world.KeepsMerged later)
    (h' : later.KeepsMerged last) :
    world.KeepsMerged last := by
  intro full number pull found merged
  obtain ⟨now, held, stays⟩ := h full number pull found merged
  obtain ⟨then', held', stays'⟩ := h' full number now held stays.merged
  exact ⟨then', held', stays'.merged, stays'.closed,
    stays'.mergeCommitSha.trans stays.mergeCommitSha,
      stays'.closedHeadSha.trans stays.closedHeadSha⟩

theorem proposes_putPull {full other head base : String} {next pull : PullRequest}
    (h : (world.putPull full next).Proposes other head base pull) :
    (other = full ∧ pull = next) ∨
      (¬ (other = full ∧ pull.number = next.number) ∧ world.Proposes other head base pull) := by
  have held := h.1
  rw [getPull_putPull] at held
  split at held
  case isTrue same => exact .inl ⟨same.1, (Option.some.inj held).symm⟩
  case isFalse apart => exact .inr ⟨apart, held, h.2⟩

theorem Settled.put {full : String} {next : PullRequest} (h : world.Settled)
    (number : next.number < (world.state.repo full).nextNumber)
    (landed : next.merged = true → next.Landed)
    (single : next.state = .opened → ∀ other, world.Proposes full next.head next.base other →
      other.number = next.number) : (world.putPull full next).Settled where
  single := by
    intro other head base p q proposed proposed'
    have apart {row : PullRequest} (new : (world.putPull full next).Proposes full head base next)
        (old : world.Proposes full head base row) : row.number = next.number := by
      obtain ⟨-, opened, rfl, rfl⟩ := new
      exact single opened row old
    cases proposes_putPull proposed with
    | inl new =>
      obtain ⟨rfl, rfl⟩ := new
      cases proposes_putPull proposed' with
      | inl new' => exact new'.2.symm
      | inr old' => exact absurd ⟨rfl, apart proposed old'.2⟩ old'.1
    | inr old =>
      cases proposes_putPull proposed' with
      | inl new' =>
        obtain ⟨rfl, rfl⟩ := new'
        exact absurd ⟨rfl, apart proposed' old.2⟩ old.1
      | inr old' => exact h.single other head base p q old.2 old'.2
  landed := by
    intro other n row held merged
    rw [getPull_putPull] at held
    split at held
    case isTrue =>
      cases held
      exact landed merged
    case isFalse => exact h.landed other n row held merged
  drawn := by
    intro other n row held
    have kept : ((world.putPull full next).state.repo other).nextNumber =
        (world.state.repo other).nextNumber := by
      change ((world.state.putPull full next).repo other).nextNumber = _
      rw [InMemoryForgeState.repo_putPull]
      split
      case isTrue same => rw [same]
      case isFalse => rfl
    rw [kept]
    rw [getPull_putPull] at held
    split at held
    case isTrue same =>
      rw [same.1, same.2]
      exact number
    case isFalse => exact h.drawn other n row held

theorem Settled.draw (h : world.Settled) (full : String) :
    Settled { world with state := world.state.drawNumber full } := by
  have same : getPull { world with state := world.state.drawNumber full } = world.getPull := by
    funext other n
    exact InMemoryForgeState.getPull_drawNumber world.state full other n
  constructor
  · intro other head base p q proposed proposed'
    rw [Proposes, same] at proposed proposed'
    exact h.single other head base p q proposed proposed'
  · rw [MergedLanded, same]
    exact h.landed
  · intro other n row held
    rw [same] at held
    have below := h.drawn other n row held
    change n < ((world.state.drawNumber full).repo other).nextNumber
    rw [InMemoryForgeState.repo_drawNumber]
    split
    case isTrue here =>
      subst here
      exact Nat.lt_succ_of_lt below
    case isFalse => exact below

theorem Settled.writes (h : world.Settled) (write : world.Writes later) : later.Settled := by
  cases write with
  | shifted shift =>
    have same := shift.getPull
    constructor
    · intro full head base p q proposed proposed'
      rw [Proposes, same] at proposed proposed'
      exact h.single full head base p q proposed proposed'
    · rw [MergedLanded, same]
      exact h.landed
    · rw [same, shift.state]
      exact h.drawn
  | @edited full pull next found edit =>
    obtain ⟨number, head, base⟩ := edit.same
    apply h.put
    · rw [number]
      exact h.drawn full pull.number pull found
    · exact edit.landed (h.landed full pull.number pull found)
    · intro opened other proposed
      rw [head, base] at proposed
      rw [number, h.single full _ _ other pull proposed ⟨found, edit.opened opened, rfl, rfl⟩]
  | @created full pull number opened unmerged head base single =>
    apply (h.draw full).put
    · change pull.number < ((world.state.drawNumber full).repo full).nextNumber
      rw [InMemoryForgeState.repo_drawNumber, if_pos rfl, number]
      exact Nat.lt_succ_self _
    · intro merged
      cases unmerged.symm.trans merged
    · intro _ other proposed
      have held := proposed.1
      change (world.state.drawNumber full).getPull full other.number = some other at held
      rw [InMemoryForgeState.getPull_drawNumber] at held
      exact absurd ⟨held, proposed.2⟩ (single other)

theorem Settled.keeps_put {full : String} {next : PullRequest} (h : world.Settled)
    (onto : ∀ pull, world.getPull full next.number = some pull → pull.merged = true →
      pull.StaysLanded next) : world.KeepsMerged (world.putPull full next) := by
  intro other n row found merged
  rw [getPull_putPull]
  split
  case isTrue same =>
    rw [same.1, same.2] at found
    exact ⟨next, rfl, onto row found merged⟩
  case isFalse => exact KeepsMerged.refl h.landed other n row found merged

theorem Settled.keepsMerged_writes (h : world.Settled) (write : world.Writes later) :
    world.KeepsMerged later := by
  cases write with
  | shifted shift =>
    intro full number pull found merged
    rw [shift.getPull]
    exact KeepsMerged.refl h.landed full number pull found merged
  | @edited full pull next found edit =>
    apply h.keeps_put
    intro row held merged
    rw [edit.same.1, found] at held
    cases held
    exact edit.staysLanded merged (h.landed full pull.number pull found merged)
  | @created full pull number opened unmerged head base single =>
    have drawn : world.KeepsMerged { world with state := world.state.drawNumber full } := by
      intro other n row found merged
      refine ⟨row, ?_, merged, (h.landed other n row found merged).1, rfl, rfl⟩
      exact (InMemoryForgeState.getPull_drawNumber world.state full other n).trans found
    refine drawn.trans ((h.draw full).keeps_put ?_)
    intro row held
    change (world.state.drawNumber full).getPull full pull.number = some row at held
    rw [InMemoryForgeState.getPull_drawNumber] at held
    exact absurd (h.drawn full pull.number row held) (number ▸ Nat.lt_irrefl _)

theorem Settled.reaches (h : world.Settled) (chain : world.Reaches later) :
    later.Settled ∧ world.KeepsMerged later := by
  induction chain with
  | refl => exact ⟨h, .refl h.landed⟩
  | tail _ write ih => exact ⟨ih.1.writes write, ih.2.trans (ih.1.keepsMerged_writes write)⟩

theorem Settled.calls {op : Op} (h : world.Settled) (unrivalled : world.Unrivalled op)
    (call : world.Calls op later) : later.Settled ∧ world.KeepsMerged later := by
  cases call with
  | reaches chain => exact h.reaches chain
  | @reopens owner name number pull found head time =>
    have key := InMemoryForgeState.number_of_getPull found
    obtain ⟨unmerged, single⟩ := unrivalled pull found
    have made : pull.reopened time = { pull with
        closedHeadSha := none, closedBaseSha := none, state := .opened, updatedAt := time } := by
      rw [PullRequest.reopened, unmerged]
      rfl
    rw [made]
    constructor
    · apply h.put
      · exact h.drawn _ _ pull (key ▸ found)
      · intro merged
        cases unmerged.symm.trans merged
      · intro _ other proposed
        exact (single (head unmerged) other proposed).trans key.symm
    · apply h.keeps_put
      intro row held merged
      change world.getPull _ pull.number = some row at held
      rw [key, found] at held
      cases held
      cases unmerged.symm.trans merged
  | erases chain git others clear =>
    obtain ⟨settled, keeps⟩ := h.reaches chain
    exact ⟨⟨settled.single, settled.landed, settled.drawn⟩, keeps⟩

end World

namespace ForgeService

/-- One open pull a head and base, and every merged pull closed, with its sha and its head's. -/
def PullsSettle (forge : ForgeService) : Prop := forge.world.SingleOpen ∧ forge.world.MergedLanded

theorem settled_fresh (git : GitBackend) (clock : Stream' Instant) (stamps : Stream' Nat) :
    (fresh git clock stamps).world.Settled where
  single _ _ _ _ _ proposed := nomatch proposed.1
  landed _ _ _ found := nomatch found
  drawn _ _ _ found := nomatch found

section Runs

variable [GitHost]

theorem settled_after {ops : List Op} {forge : ForgeService} (h : forge.world.Settled)
    (unrivalled : Machine.Meets next (fun op forge => forge.world.Unrivalled op) ops forge) :
    (Machine.after next ops forge).world.Settled ∧
      forge.world.KeepsMerged (Machine.after next ops forge).world := by
  refine Machine.invariant (I := fun later =>
    later.world.Settled ∧ forge.world.KeepsMerged later.world)
    ?_ unrivalled ⟨h, .refl h.landed⟩
  intro op later before unrivalled
  obtain ⟨settled, keeps⟩ := before.1.calls unrivalled (next_calls op later)
  exact ⟨settled, before.2.trans keeps⟩

theorem pulls_settle {git : GitBackend} {clock : Stream' Instant} {stamps : Stream' Nat}
    {ops more : List Op}
    (unrivalled : Machine.Meets next (fun op forge => forge.world.Unrivalled op) (ops ++ more)
      (fresh git clock stamps)) :
    PullsSettle (Machine.after next ops (fresh git clock stamps)) ∧
      (Machine.after next ops (fresh git clock stamps)).world.KeepsMerged
        (Machine.after next (ops ++ more) (fresh git clock stamps)).world := by
  rw [Machine.meets_append] at unrivalled
  obtain ⟨settled, _⟩ := settled_after (settled_fresh git clock stamps) unrivalled.1
  rw [Machine.after_append]
  exact ⟨⟨settled.single, settled.landed⟩, (settled_after settled unrivalled.2).2⟩

end Runs

section

attribute [local instance] GitHost.plain

def twiceOpened : ForgeService :=
  Machine.after next
    [.createPull "octocat" "toy" "change" "" "feature" "main" "ann",
      .setPullState "octocat" "toy" 1 .closed,
      .createPull "octocat" "toy" "again" "" "feature" "main" "ann",
      .setPullState "octocat" "toy" 1 .opened] toy

def openedMerged : ForgeService :=
  Machine.after next
    [.createPull "octocat" "toy" "change" "" "feature" "main" "ann",
      .mergePull "octocat" "toy" 1 .merge none none "ann",
      .setPullState "octocat" "toy" 1 .opened] toy

theorem twice_opened : ¬ PullsSettle twiceOpened ∧ ¬ PullsSettle openedMerged := by
  constructor
  · intro settle
    have first : ∃ pull, twiceOpened.world.getPull "octocat/toy" 1 = some pull ∧
        pull.state = .opened ∧ pull.head = "feature" ∧ pull.base = "main" := ⟨_, rfl, rfl, rfl, rfl⟩
    have second : ∃ pull, twiceOpened.world.getPull "octocat/toy" 2 = some pull ∧
        pull.state = .opened ∧ pull.head = "feature" ∧ pull.base = "main" := ⟨_, rfl, rfl, rfl, rfl⟩
    obtain ⟨p, found, opened⟩ := first
    obtain ⟨q, found', opened'⟩ := second
    have key : p.number = 1 := InMemoryForgeState.number_of_getPull found
    have key' : q.number = 2 := InMemoryForgeState.number_of_getPull found'
    have same := settle.1 "octocat/toy" "feature" "main" p q ⟨key.symm ▸ found, opened⟩
      ⟨key'.symm ▸ found', opened'⟩
    rw [same, key'] at key
    cases key
  · intro settle
    have reopened : ∃ pull, openedMerged.world.getPull "octocat/toy" 1 = some pull ∧
        pull.merged = true ∧ pull.state = .opened := ⟨_, rfl, rfl, rfl⟩
    obtain ⟨pull, found, merged, opened⟩ := reopened
    cases (settle.2 _ _ pull found merged).1.symm.trans opened

theorem pulls_settle_reopened :
    PullsSettle (Machine.after next
      [.createPull "octocat" "toy" "change" "" "feature" "main" "ann",
        .createPull "octocat" "toy" "other" "" "feature" "old" "ann",
        .mergePull "octocat" "toy" 2 .merge none none "ann",
        .setPullState "octocat" "toy" 1 .closed] toy) ∧
      (Machine.after next
        [.createPull "octocat" "toy" "change" "" "feature" "main" "ann",
          .createPull "octocat" "toy" "other" "" "feature" "old" "ann",
          .mergePull "octocat" "toy" 2 .merge none none "ann",
          .setPullState "octocat" "toy" 1 .closed] toy).world.KeepsMerged
        (Machine.after next
          [.createPull "octocat" "toy" "change" "" "feature" "main" "ann",
            .createPull "octocat" "toy" "other" "" "feature" "old" "ann",
            .mergePull "octocat" "toy" 2 .merge none none "ann",
            .setPullState "octocat" "toy" 1 .closed,
            .setPullState "octocat" "toy" 1 .opened,
            .setPullState "octocat" "toy" 2 .closed] toy).world := by
  have unrivalled : Machine.Meets next (fun op forge => forge.world.Unrivalled op)
      ([.createPull "octocat" "toy" "change" "" "feature" "main" "ann",
        .createPull "octocat" "toy" "other" "" "feature" "old" "ann",
        .mergePull "octocat" "toy" 2 .merge none none "ann",
        .setPullState "octocat" "toy" 1 .closed] ++
        [.setPullState "octocat" "toy" 1 .opened, .setPullState "octocat" "toy" 2 .closed])
          toy := by
    refine ⟨trivial, trivial, trivial, trivial, ?_, trivial, trivial⟩
    intro pull found
    cases found
    refine ⟨rfl, ?_⟩
    intro _ other proposed
    have mem := InMemoryForgeState.mem_openPulls.mpr ⟨proposed.1, proposed.2.1⟩
    cases mem
  exact pulls_settle unrivalled

end

end ForgeService

end BlizzardMock.Forge
