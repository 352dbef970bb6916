import BlizzardMock.Forge.CallLaws

namespace BlizzardMock.Forge

open Method

namespace World

def Anchors (world : World) (full : String) (pull : PullRequest) : Prop :=
  match pull.state with
  | .opened => world.Stands full pull.head ∧ world.Stands full pull.base
  | .closed => pull.closedHeadSha.isSome = true ∧ pull.closedBaseSha.isSome = true

def Anchored (world : World) : Prop :=
  ∀ full number pull, world.getPull full number = some pull → world.Anchors full pull

def BranchesStand (world : World) : Prop :=
  ∀ full number pull, world.getPull full number = some pull → pull.state = .opened →
    world.Stands full pull.head ∧ world.Stands full pull.base

/-- A pull is opened again only where its branches stand, and a branch is deleted only where no
other name of its repository has an open pull on it. -/
def Rooted (world : World) : Op → Prop
  | .setPullState owner name number .opened =>
    ∀ pull, world.getPull (owner ++ "/" ++ name) number = some pull →
      (pull.merged = true → world.Stands (owner ++ "/" ++ name) pull.head) ∧
      (world.Stands (owner ++ "/" ++ name) pull.head →
        world.Stands (owner ++ "/" ++ name) pull.base)
  | .deleteRef owner name branch =>
    ∀ other number pull, other ≠ owner ++ "/" ++ name →
      world.git.backing other = world.git.backing (owner ++ "/" ++ name) →
      world.getPull other number = some pull → pull.state = .opened → ¬ pull.On branch
  | _ => True

variable {world : World}

theorem anchors_of_opened {full : String} {pull : PullRequest} (opened : pull.state = .opened) :
    world.Anchors full pull ↔ world.Stands full pull.head ∧ world.Stands full pull.base := by
  rw [Anchors, opened]

theorem anchors_of_closed {full : String} {pull : PullRequest} (closed : pull.state = .closed) :
    world.Anchors full pull ↔
      pull.closedHeadSha.isSome = true ∧ pull.closedBaseSha.isSome = true := by
  rw [Anchors, closed]

theorem Anchors.mono {later : World} {full : String} {pull : PullRequest}
    (h : world.Anchors full pull)
    (stands : pull.state = .opened → ∀ branch, pull.On branch → world.Stands full branch →
      later.Stands full branch) : later.Anchors full pull := by
  cases state : pull.state with
  | opened =>
    rw [anchors_of_opened state] at h ⊢
    exact ⟨stands state _ (.inl rfl) h.1, stands state _ (.inr rfl) h.2⟩
  | closed =>
    rw [anchors_of_closed state] at h ⊢
    exact h

theorem Anchored.put {full : String} {pull : PullRequest} (h : world.Anchored)
    (kept : world.Anchors full pull) : (world.putPull full pull).Anchored := by
  intro other number row found
  rw [getPull_putPull] at found
  split at found
  case isTrue same =>
    cases found
    rw [same.1]
    exact kept
  case isFalse => exact h other number row found

theorem Anchors.edit {full : String} {pull next : PullRequest} (h : world.Anchors full pull)
    (edit : pull.Edit next) : world.Anchors full next := by
  cases edit with
  | pins opened headSha baseSha =>
    have still : { pull with closedHeadSha := headSha, closedBaseSha := baseSha }.state = .opened :=
      opened
    rw [anchors_of_opened opened] at h
    exact (anchors_of_opened still).mpr h
  | closes opened head base time => exact (anchors_of_closed rfl).mpr ⟨head, base⟩
  | touches closed time =>
    rw [anchors_of_closed closed] at h
    exact (anchors_of_closed rfl).mpr h
  | merges unmerged time mergedBy sha headSha => exact (anchors_of_closed rfl).mpr ⟨rfl, rfl⟩

theorem Anchored.writes {later : World} (h : world.Anchored) (write : world.Writes later) :
    later.Anchored := by
  cases write with
  | shifted shift =>
    intro full number pull found
    rw [shift.getPull] at found
    exact (h full number pull found).mono fun _ _ _ => shift.stands
  | edited found edit => exact h.put ((h _ _ _ found).edit edit)
  | @created full pull number opened unmerged head base single =>
    have drawn : Anchored { world with state := world.state.drawNumber full } := by
      intro other n row found
      change (world.state.drawNumber full).getPull other n = some row at found
      rw [InMemoryForgeState.getPull_drawNumber] at found
      exact h other n row found
    exact drawn.put ((anchors_of_opened opened).mpr ⟨head, base⟩)

theorem Anchored.reaches {later : World} (h : world.Anchored) (chain : world.Reaches later) :
    later.Anchored := by
  induction chain with
  | refl => exact h
  | tail _ write ih => exact ih.writes write

theorem stands_erase {full other branch name : String} (stood : world.Stands other name)
    (apart : world.git.backing other = world.git.backing full → branch ≠ name) :
    (world.erase full branch).Stands other name := by
  obtain ⟨repo, opened, mem⟩ := stood
  simp only [Stands, erase, GitBackend.open?_setBranches]
  split
  case isFalse => exact ⟨repo, opened, mem⟩
  case isTrue same =>
    refine ⟨_, congrArg _ opened, ?_⟩
    rw [Dict.mem_iff, Dict.get?_erase, if_neg (Ne.symm (apart same))]
    exact Dict.mem_iff.mp mem

theorem Anchored.calls {op : Op} {later : World} (h : world.Anchored) (rooted : world.Rooted op)
    (call : world.Calls op later) : later.Anchored := by
  cases call with
  | reaches chain => exact h.reaches chain
  | @reopens owner name number pull found head time =>
    obtain ⟨mergedHead, base⟩ := rooted pull found
    have headStands : world.Stands (owner ++ "/" ++ name) pull.head := by
      cases merged : pull.merged with
      | true => exact mergedHead merged
      | false => exact head merged
    apply h.put
    have opened : (pull.reopened time).state = .opened := by
      rw [PullRequest.reopened]
      split <;> rfl
    have branches : (pull.reopened time).head = pull.head ∧ (pull.reopened time).base =
      pull.base := by
      rw [PullRequest.reopened]
      split <;> exact ⟨rfl, rfl⟩
    rw [anchors_of_opened opened, branches.1, branches.2]
    exact ⟨headStands, base headStands⟩
  | @erases owner name branch mid chain git others clear =>
    have anchored := h.reaches chain
    intro full number pull (found : mid.getPull full number = some pull)
    refine (anchored full number pull found).mono ?_
    intro opened name' on stood
    apply stands_erase stood
    intro same
    rintro rfl
    have key := InMemoryForgeState.number_of_getPull found
    by_cases here : full = owner ++ "/" ++ name
    · subst here
      exact clear pull (key ▸ found) opened on
    · rw [others full number here] at found
      rw [git] at same
      exact rooted full number pull here same found opened on

end World

namespace ForgeService

/-- A call raises that a branch does not resolve. -/
def Misses {α : Type} (m : ForgeM α) (forge : ForgeService) (message : String) : Prop :=
  answer m forge = .error (.branchNotFound message)

/-- A call never misses a branch, whatever else it raises. -/
def Finds {α : Type} (m : ForgeM α) (forge : ForgeService) : Prop :=
  ∀ message, ¬ Misses m forge message

variable {forge : ForgeService}

theorem misses_bind {α β : Type} {m : ForgeM α} {g : α → ForgeM β} [hm : Keeps id m]
    {message : String} (h : Misses (m >>= g) forge message) :
    Misses m forge message ∨ ∃ a, answer m forge = .ok a ∧ Misses (g a) forge message := by
  rw [Misses, answer_bind, show Method.after m forge = forge from hm.keeps forge] at h
  cases answered : answer m forge with
  | ok a =>
    rw [answered] at h
    exact .inr ⟨a, rfl, h⟩
  | error e =>
    rw [answered] at h
    cases h
    exact .inl answered

theorem misses_map {α β : Type} {m : ForgeM α} {f : α → β} {message : String}
    (h : Misses (f <$> m) forge message) : Misses m forge message := by
  rw [Misses, answer_map] at h
  cases answered : answer m forge with
  | ok a =>
    rw [answered] at h
    cases h
  | error e =>
    rw [answered] at h
    cases h
    exact answered

theorem finds_of_answer {α : Type} {m : ForgeM α} {a : α} (h : answer m forge = .ok a) :
    Finds m forge := by
  intro message raised
  cases h.symm.trans raised

theorem finds_pure {α : Type} (a : α) : Finds (pure a) forge := finds_of_answer rfl

theorem finds_bind {α β : Type} {m : ForgeM α} {g : α → ForgeM β} [Keeps id m]
    (first : Finds m forge) (next : ∀ a, answer m forge = .ok a → Finds (g a) forge) :
    Finds (m >>= g) forge := by
  intro message raised
  cases misses_bind raised with
  | inl missed => exact first message missed
  | inr later =>
    obtain ⟨a, answered, missed⟩ := later
    exact next a answered message missed

theorem finds_map {α β : Type} {m : ForgeM α} {f : α → β} (h : Finds m forge) :
    Finds (f <$> m) forge :=
  fun message raised => h message (misses_map raised)

theorem finds_refuseIf {c : Prop} [Decidable c] {e : ForgeError}
    (h : ∀ message, e ≠ .branchNotFound message) : Finds (refuseIf c e) forge :=
  fun message raised => h message (error_of_refuseIf raised).symm

theorem finds_orRaise {α : Type} {o : Option α} {e : ForgeError}
    (h : ∀ message, e ≠ .branchNotFound message) : Finds (orRaise e o) forge :=
  fun message raised => h message (error_of_orRaise raised).symm

theorem finds_collect {α β : Type} {f : α → ForgeM (Option β)} [∀ a, Keeps id (f a)] {l : List α}
    (h : ∀ a ∈ l, Finds (f a) forge) : Finds (collect f l) forge := by
  induction l with
  | nil => exact finds_pure []
  | cons a rest ih =>
    apply finds_bind (h a List.mem_cons_self)
    intro _ _
    apply finds_bind (ih fun b mem => h b (List.mem_cons_of_mem _ mem))
    intro _ _
    exact finds_pure _

theorem finds_openRepo (full : String) : Finds (openRepo full) forge :=
  finds_bind (finds_of_answer rfl) fun _ _ => finds_orRaise fun _ => nofun

theorem finds_getRepo (owner name : String) : Finds (getRepo owner name) forge :=
  finds_bind (finds_openRepo _) fun _ _ => finds_pure _

theorem finds_requirePull (repo : Repo) (number : Nat) : Finds (requirePull repo number) forge :=
  finds_bind (finds_of_answer rfl) fun _ _ => finds_orRaise fun _ => nofun

section Reads

variable [GitHost]

theorem resolves_of_stands {repo : Repo} {branch : String}
    (h : forge.world.Stands repo.fullName branch) :
    ∃ sha, answer (resolveRef repo branch) forge = .ok sha := by
  obtain ⟨git, opened, mem⟩ := h
  obtain ⟨sha, tip⟩ := Dict.mem_iff.mp mem
  refine ⟨sha, ?_⟩
  rw [resolveRef, answer_bind_of_ok _ (answer_openRepo.mpr opened)]
  apply orRaise_ok.mpr
  rw [GitRepo.resolve, tip]
  rfl

theorem finds_resolveRef {repo : Repo} {branch : String}
    (h : forge.world.Stands repo.fullName branch) : Finds (resolveRef repo branch) forge := by
  obtain ⟨_, resolved⟩ := resolves_of_stands h
  exact finds_of_answer resolved

theorem finds_mergeability {repo : Repo} {pull : PullRequest}
    (h : forge.world.Anchors repo.fullName pull) : Finds (mergeability repo pull) forge := by
  apply finds_bind (finds_of_answer rfl)
  intro levers _
  dsimp only
  split
  · exact finds_pure _
  case isFalse live =>
    have opened : pull.state = .opened := by
      cases state : pull.state with
      | opened => rfl
      | closed => exact absurd (.inr state) live
    have stands := (World.anchors_of_opened opened).mp h
    have merges : Finds (isMergeable repo pull.base pull.head) forge :=
      finds_bind (finds_resolveRef stands.2) fun _ _ =>
        finds_bind (finds_resolveRef stands.1) fun _ _ => finds_pure _
    split
    · exact finds_pure _
    · split
      · exact finds_pure _
      · repeat
          split
          · exact finds_pure _
        apply finds_bind merges
        intro mergeable _
        split <;> exact finds_pure _

theorem finds_viewedHead {repo : Repo} {pull : PullRequest}
    (h : forge.world.Anchors repo.fullName pull) : Finds (viewedHead repo pull) forge := by
  cases state : pull.state with
  | opened =>
    have live : viewedHead repo pull = resolveRef repo pull.head := by simp [viewedHead, state]
    rw [live]
    exact finds_resolveRef ((World.anchors_of_opened state).mp h).1
  | closed =>
    obtain ⟨sha, frozen⟩ := Option.isSome_iff_exists.mp ((World.anchors_of_closed state).mp h).1
    have pinned : viewedHead repo pull = pure sha := by simp [viewedHead, state, frozen]
    rw [pinned]
    exact finds_pure sha

theorem finds_viewedBase {repo : Repo} {pull : PullRequest}
    (h : forge.world.Anchors repo.fullName pull) : Finds (viewedBase repo pull) forge := by
  intro message raised
  rw [Misses, viewedBase, answer_rescue] at raised
  cases answered : answer (resolveRef repo pull.base) forge with
  | ok sha =>
    rw [answered] at raised
    cases raised
  | error e =>
    rw [answered] at raised
    cases state : pull.state with
    | opened =>
      obtain ⟨sha, resolved⟩ := resolves_of_stands ((World.anchors_of_opened state).mp h).2
      cases answered.symm.trans resolved
    | closed =>
      obtain ⟨sha, frozen⟩ := Option.isSome_iff_exists.mp ((World.anchors_of_closed state).mp h).2
      cases e <;> simp_all

theorem finds_view {repo : Repo} {pull : PullRequest}
    (h : forge.world.Anchors repo.fullName pull) : Finds (view repo pull) forge := by
  apply finds_bind (finds_viewedHead h)
  intro headSha _
  apply finds_bind (finds_viewedBase h)
  intro baseSha _
  apply finds_bind (finds_mergeability h)
  intro _ _
  exact finds_pure _

theorem finds_getPull (h : forge.world.Anchored) (owner name : String) (number : Nat) :
    Finds (getPull owner name number) forge := by
  apply finds_bind (finds_getRepo owner name)
  intro repo _
  apply finds_bind (finds_requirePull repo number)
  intro pull held
  exact finds_view (h _ _ _ (found_of_requirePull held).2)

omit [GitHost] in
theorem mem_matching {query : PullQuery} {repo : Repo} {state : InMemoryForgeState}
    {pull : PullRequest} (mem : pull ∈ query.matching repo state) :
    state.getPull repo.fullName pull.number = some pull := by
  have listed : pull ∈ state.listPulls repo.fullName query.state := by
    simp only [PullQuery.matching] at mem
    split at mem
    all_goals
      rw [List.mem_insertionSort] at mem
      exact (List.mem_filter.mp mem).1
  simp only [InMemoryForgeState.listPulls] at listed
  apply InMemoryForgeState.mem_sortedPulls.mp
  split at listed
  · exact listed
  · split at listed
    · exact listed
    · exact (List.mem_filter.mp listed).1

omit [GitHost] in
theorem mem_chosen {query : PullQuery} {pulls : List PullRequest} {pull : PullRequest}
    (mem : pull ∈ (query.chosen pulls).2.2) : pull ∈ pulls := by
  simp only [PullQuery.chosen] at mem
  split at mem
  · split at mem
    · exact mem
    · cases mem
  · exact List.mem_of_mem_take (List.mem_of_mem_drop mem)

theorem finds_listPulls (h : forge.world.Anchored) (owner name : String) (query : PullQuery) :
    Finds (listPulls owner name query) forge := by
  apply finds_bind (finds_getRepo owner name)
  intro repo _
  refine finds_bind ?_ fun _ _ => finds_bind ?_ fun _ _ => ?_
  · exact finds_refuseIf fun _ => nofun
  · exact finds_refuseIf fun _ => nofun
  apply finds_bind (finds_of_answer rfl)
  intro state held
  cases held
  refine finds_bind (finds_collect fun pull mem => finds_map (finds_view ?_)) fun _ _ =>
    finds_pure _
  exact h _ _ _ (mem_matching (mem_chosen mem))

theorem finds_firstHeadedAt {repo : Repo} {sha : String} {pulls : List PullRequest}
    (h : ∀ pull ∈ pulls, forge.world.Stands repo.fullName pull.head) :
    Finds (firstHeadedAt repo sha pulls) forge := by
  induction pulls with
  | nil => exact finds_pure none
  | cons pull rest ih =>
    apply finds_bind (finds_resolveRef (h pull List.mem_cons_self))
    intro headSha _
    split
    · exact finds_pure _
    · exact ih fun other mem => h other (List.mem_cons_of_mem _ mem)

theorem finds_findPullByHeadSha (h : forge.world.Anchored) (repo : Repo) (sha : String) :
    Finds (findPullByHeadSha repo sha) forge := by
  apply finds_bind (finds_of_answer rfl)
  intro state held
  cases held
  apply finds_firstHeadedAt
  intro pull mem
  obtain ⟨found, opened⟩ := InMemoryForgeState.mem_openPulls.mp mem
  exact ((World.anchors_of_opened opened).mp (h _ _ _ found)).1

theorem missed_baseFailed {repo : Repo} {sha message : String}
    (raised : Misses (baseFailed repo sha) forge message) :
    Misses (resolveRef repo repo.defaultBranch) forge message := by
  cases misses_bind raised with
  | inl missed => cases missed
  | inr later =>
    obtain ⟨lever, _, raised⟩ := later
    split at raised
    · exact misses_map raised
    · cases raised

theorem missed_derivedCheckRun (h : forge.world.Anchored) {repo : Repo} {sha message : String}
    (raised : Misses (derivedCheckRun repo sha) forge message) :
    Misses (resolveRef repo repo.defaultBranch) forge message := by
  cases misses_bind raised with
  | inl missed => exact absurd missed (finds_findPullByHeadSha h repo sha message)
  | inr later =>
    obtain ⟨pull, _, raised⟩ := later
    cases misses_bind raised with
    | inl missed => cases missed
    | inr later =>
      obtain ⟨levers, _, raised⟩ := later
      dsimp only at raised
      split at raised
      · cases raised
      · split at raised
        · cases raised
        · cases misses_bind raised with
          | inl missed => exact missed_baseFailed missed
          | inr later =>
            obtain ⟨red, _, raised⟩ := later
            split at raised
            · cases raised
            · split at raised <;> cases raised

theorem missed_listCheckRuns (h : forge.world.Anchored) {owner name ref message : String}
    (raised : Misses (listCheckRuns owner name ref) forge message) :
    ∃ repo, answer (getRepo owner name) forge = .ok repo ∧
      (Misses (resolveRef repo ref) forge message ∨
        Misses (resolveRef repo repo.defaultBranch) forge message) := by
  cases misses_bind raised with
  | inl missed => exact absurd missed (finds_getRepo owner name message)
  | inr later =>
    obtain ⟨repo, named, raised⟩ := later
    refine ⟨repo, named, ?_⟩
    cases misses_bind raised with
    | inl missed => exact .inl missed
    | inr later =>
      obtain ⟨sha, _, raised⟩ := later
      apply Or.inr
      cases misses_bind raised with
      | inl missed => cases missed
      | inr later =>
        obtain ⟨checks, _, raised⟩ := later
        split at raised
        · cases raised
        · cases misses_bind raised with
          | inl missed => exact missed_derivedCheckRun h missed
          | inr later =>
            obtain ⟨run, _, raised⟩ := later
            cases raised

/-- No read misses a branch of a pull: a listing of check runs misses the branch it was asked for,
or the default one, at most. -/
structure FindsPulls (forge : ForgeService) : Prop where
  listed : ∀ owner name query, Finds (listPulls owner name query) forge
  got : ∀ owner name number, Finds (getPull owner name number) forge
  checked : ∀ owner name ref message, Misses (listCheckRuns owner name ref) forge message →
    ∃ repo, answer (getRepo owner name) forge = .ok repo ∧
      (Misses (resolveRef repo ref) forge message ∨
        Misses (resolveRef repo repo.defaultBranch) forge message)

theorem findsPulls_of_anchored (h : forge.world.Anchored) : forge.FindsPulls where
  listed := finds_listPulls h
  got := finds_getPull h
  checked _ _ _ _ := missed_listCheckRuns h

/-- The branches of every open pull stand, and so no read misses them. -/
def PullsStand (forge : ForgeService) : Prop := forge.world.BranchesStand ∧ forge.FindsPulls

omit [GitHost] in
theorem anchored_fresh (git : GitBackend) (clock : Stream' Instant) (stamps : Stream' Nat) :
    (fresh git clock stamps).world.Anchored :=
  fun _ _ _ found => nomatch found

theorem next_anchored {op : Op} (h : forge.world.Anchored) (rooted : forge.world.Rooted op) :
    (next op forge).world.Anchored :=
  h.calls rooted (next_calls op forge)

theorem pulls_stand {git : GitBackend} {clock : Stream' Instant} {stamps : Stream' Nat}
    {ops : List Op}
    (rooted : Machine.Meets next (fun op forge => forge.world.Rooted op) ops
      (fresh git clock stamps)) :
    PullsStand (Machine.after next ops (fresh git clock stamps)) := by
  have anchored : (Machine.after next ops (fresh git clock stamps)).world.Anchored :=
    Machine.invariant (I := fun forge => forge.world.Anchored) (fun _ _ => next_anchored) rooted
      (anchored_fresh git clock stamps)
  refine ⟨?_, findsPulls_of_anchored anchored⟩
  intro full number pull found opened
  exact (World.anchors_of_opened opened).mp (anchored full number pull found)

end Reads

section

attribute [local instance] GitHost.plain

def reopenedOffBase : ForgeService :=
  Machine.after next
    [.createPull "octocat" "toy" "change" "" "feature" "old" "ann",
      .setPullState "octocat" "toy" 1 .closed,
      .deleteRef "octocat" "toy" "old",
      .setPullState "octocat" "toy" 1 .opened] toy

theorem reopened_off_base :
    Misses (listPulls "octocat" "toy" {}) reopenedOffBase
        "ref does not resolve in octocat/toy: old" ∧
      ¬ PullsStand reopenedOffBase := by
  have missed : Misses (listPulls "octocat" "toy" {}) reopenedOffBase
      "ref does not resolve in octocat/toy: old" := rfl
  exact ⟨missed, fun stand => stand.2.listed "octocat" "toy" {} _ missed⟩

theorem pulls_stand_reopened :
    PullsStand (Machine.after next
      [.createPull "octocat" "toy" "change" "" "feature" "old" "ann",
        .setPullState "octocat" "toy" 1 .closed,
        .setPullState "octocat" "toy" 1 .opened,
        .deleteRef "octocat" "toy" "old"] toy) := by
  apply pulls_stand
  refine ⟨trivial, trivial, ?_, ?_, trivial⟩
  · intro pull found
    cases found
    exact ⟨nofun, fun _ => ⟨_, rfl, rfl⟩⟩
  · intro other number pull apart same
    have unbacked : toyGit.backing other = none := if_neg apart
    have backed : toyGit.backing other = some "octocat/toy.git" := same
    cases unbacked.symm.trans backed

end

end ForgeService

end BlizzardMock.Forge
