import BlizzardMock.Forge.World

namespace BlizzardMock.Forge

open Method

namespace ForgeService

def world (forge : ForgeService) : World := ⟨forge.git, forge.state⟩

abbrev Shifts (forge later : ForgeService) : Prop := forge.world.Shifts later.world

instance : IsPreorder ForgeService Shifts where
  refl forge := refl_of World.Shifts forge.world
  trans _ _ _ := trans_of World.Shifts

section Reads

variable {γ : Type} (f : ForgeService → γ)

set_option synthInstance.maxSize 1000

instance (full : String) : Keeps f (openRepo full) := by unfold openRepo; infer_instance
instance (owner name : String) : Keeps f (getRepo owner name) := by unfold getRepo; infer_instance

instance (repo : Repo) (branch : String) : Keeps f (branchExists repo branch) := by
  simp only [branchExists]
  infer_instance

instance (repo : Repo) (number : Nat) : Keeps f (requirePull repo number) := by
  simp only [requirePull]
  infer_instance

instance (kind : LeverKind) (repo : Repo) (number : Option Nat) :
    Keeps f (findLever kind repo number) := by
  simp only [findLever]
  infer_instance

instance (kind : LeverKind) (repo : Repo) : Keeps f (matchingLevers kind repo) := by
  simp only [matchingLevers]
  infer_instance

instance (repo : Repo) (branch : String) : Keeps f (refuseByRuleset repo branch) := by
  simp only [refuseByRuleset]
  infer_instance

variable [GitHost]

instance (repo : Repo) (ref : String) : Keeps f (resolveRef repo ref) := by
  simp only [resolveRef]
  infer_instance

instance (repo : Repo) (base head : String) : Keeps f (isMergeable repo base head) := by
  simp only [isMergeable]
  infer_instance

instance (repo : Repo) (ancestor descendant : String) :
    Keeps f (isAncestor repo ancestor descendant) := by
  simp only [isAncestor]
  infer_instance

instance (repo : Repo) (ref : String) : Keeps f (getCommit repo ref) := by
  simp only [getCommit]
  infer_instance

instance (repo : Repo) (pull : PullRequest) : Keeps f (mergeability repo pull) where
  keeps s := by
    simp only [mergeability]
    simp only [Method.after_bind, Method.answer_read, Method.after_read]
    split
    · rfl
    · split
      · rfl
      · split
        · rfl
        · exact Keeps.keeps s

instance (repo : Repo) (pull : PullRequest) : Keeps f (viewedHead repo pull) := by
  simp only [viewedHead]
  split <;> infer_instance

instance (repo : Repo) (pull : PullRequest) : Keeps f (viewedBase repo pull) := by
  simp only [viewedBase]
  infer_instance

instance (repo : Repo) (pull : PullRequest) : Keeps f (view repo pull) := by
  simp only [view]
  infer_instance

instance (repo : Repo) (sha : String) (pulls : List PullRequest) :
    Keeps f (firstHeadedAt repo sha pulls) := by
  induction pulls with
  | nil => exact inferInstanceAs (Keeps f (pure none))
  | cons pull rest ih => unfold firstHeadedAt; infer_instance

instance (repo : Repo) (sha : String) : Keeps f (findPullByHeadSha repo sha) := by
  simp only [findPullByHeadSha]
  infer_instance

instance (repo : Repo) (sha : String) : Keeps f (baseFailed repo sha) := by
  simp only [baseFailed]
  infer_instance

instance (repo : Repo) (sha : String) : Keeps f (derivedCheckRun repo sha) := by
  simp only [derivedCheckRun]
  infer_instance

end Reads

theorem pull_of_view [GitHost] {forge : ForgeService} {repo : Repo} {pull : PullRequest}
    {shown : PullView}
    (h : answer (view repo pull) forge = .ok shown) : shown.pull = pull := by
  simp only [view, answer_bind_ok_iff] at h
  obtain ⟨_, _, _, _, _, _, made⟩ := h
  cases made
  rfl

instance : Keeps world now := ⟨fun _ => rfl⟩
instance : Keeps world stamp := ⟨fun _ => rfl⟩

instance (f : InMemoryLeverStore → InMemoryLeverStore) : Keeps world (setLevers f) := ⟨fun _ => rfl⟩

instance (f : InMemoryCheckRunStore → InMemoryCheckRunStore) : Keeps world (setChecks f) :=
  ⟨fun _ => rfl⟩

instance (f : InMemoryRateLedger → InMemoryRateLedger) : Keeps world (setRate f) := ⟨fun _ => rfl⟩

instance (priority := low) {α : Type} (m : ForgeM α) [Keeps world m] : Follows Shifts m :=
  Follows.of_keeps (f := world) fun s t same => by
    rw [Shifts, same]
    exact refl_of World.Shifts s.world

theorem fullName_of_getRepo {owner name : String} {forge : ForgeService} {repo : Repo}
    (h : answer (getRepo owner name) forge = .ok repo) : repo.fullName = owner ++ "/" ++ name := by
  simp only [getRepo] at h
  obtain ⟨_, _, made⟩ := answer_bind_ok h
  cases made
  rfl

theorem found_of_requirePull {repo : Repo} {number : Nat} {forge : ForgeService}
    {pull : PullRequest}
    (h : answer (requirePull repo number) forge = .ok pull) :
    pull.number = number ∧ forge.world.getPull repo.fullName number = some pull := by
  simp only [requirePull] at h
  obtain ⟨_, found, raised⟩ := answer_bind_ok h
  cases found
  have held := orRaise_ok.mp raised
  exact ⟨InMemoryForgeState.number_of_getPull held, held⟩

theorem answer_openRepo {full : String} {forge : ForgeService} {git : GitRepo} :
    answer (openRepo full) forge = .ok git ↔ forge.git.open? full = some git := by
  rw [openRepo, answer_bind_of_ok _ rfl]
  exact orRaise_ok

theorem stands_of_branchExists {repo : Repo} {branch : String} {forge : ForgeService} {there : Bool}
    (h : answer (branchExists repo branch) forge = .ok there) :
    there = true ↔ forge.world.Stands repo.fullName branch := by
  simp only [branchExists] at h
  obtain ⟨git, held, made⟩ := answer_bind_ok h
  cases made
  have opened := answer_openRepo.mp held
  rw [decide_eq_true_iff]
  constructor
  · intro mem
    exact ⟨git, opened, mem⟩
  · rintro ⟨other, opened', mem⟩
    rw [show forge.world.git.open? _ = some git from opened] at opened'
    cases opened'
    exact mem

section Shifting

variable [GitHost]

instance (repo : Repo) (branch sha : String) : Follows Shifts (updateRef repo branch sha) := by
  have moves : Follows Shifts (write fun forge : ForgeService =>
      { forge with git := forge.git.setBranches repo.fullName (·.set branch sha) } : ForgeM Unit) :=
    ⟨fun forge => World.shifts_set forge.world repo.fullName branch sha⟩
  simp only [updateRef]
  infer_instance

instance (repo : Repo) (branch sha : String) : Follows Shifts (createBranch repo branch sha) := by
  simp only [createBranch]
  infer_instance

instance (method : MergeMethod) (repo : Repo) (git : GitRepo) (base head : String)
    (landed : Except GitFailure String) :
    Follows Shifts (moveBase method repo git base head landed) := by
  cases landed with
  | error failure => simp only [moveBase]; infer_instance
  | ok sha => simp only [moveBase]; infer_instance

instance (method : MergeMethod) (repo : Repo) (base head message : String) :
    Follows Shifts (landOn method repo base head message) := by
  simp only [landOn]
  infer_instance

instance (repo : Repo) (pull : PullRequest) (method : MergeMethod) (message : Option String) :
    Follows Shifts (land repo pull method message) := by
  simp only [land]
  infer_instance

end Shifting

end ForgeService

end BlizzardMock.Forge
