import BlizzardMock.Forge.BranchLaws

namespace BlizzardMock.Forge

open Method

/-- A name git reads as nothing but a branch: no revision, so that nothing lands on it where no
branch of that name stands. -/
class GitHost.Unnamed [GitHost] (branch : String) : Prop where
  revision (repo : GitRepo) : GitHost.revision repo branch = none
  lands {method : MergeMethod} {repo : GitRepo} {headSha message sha : String} {time : Nat}
    (landed : GitHost.land method repo branch headSha message time = .ok sha) :
    (repo.resolve branch).isSome = true

abbrev GitHost.grounded : GitHost := { GitHost.spelled with revision := fun _ _ => none }

section Grounded

attribute [local instance] GitHost.grounded

instance GitHost.grounded_unnamed (branch : String) : GitHost.Unnamed branch where
  revision _ := rfl
  lands {_ repo headSha _ sha _} landed := by
    rw [GitRepo.resolve]
    cases found : repo.branches.get? branch with
    | some tip => rfl
    | none =>
      simp only [GitHost.land, found] at landed
      cases landed

end Grounded

namespace ForgeService

def Ruled (forge : ForgeService) (full branch : String) : Prop :=
  ∃ lever ∈ forge.levers.values, (lever.kind = .ruleset ∧ lever.Matches (some full) none) ∧
    ∃ pattern, lever.pattern = some pattern ∧ fnmatchcase branch pattern = true

/-- One does under every name that opens the repository. -/
def RuledThroughout (forge : ForgeService) (full branch : String) : Prop :=
  ∀ other, forge.git.backing full = forge.git.backing other → forge.Ruled other branch

def Bars (full branch : String) (forge later : ForgeService) : Prop :=
  forge.git.tip full branch = none → later.git.tip full branch = none

instance {full branch : String} : IsPreorder ForgeService (Bars full branch) where
  refl _ := id
  trans _ _ _ first second bare := second (first bare)

variable {full branch : String}

theorem bars_of_git {forge later : ForgeService} (same : later.git = forge.git) :
    Bars full branch forge later := fun bare => same ▸ bare

instance (priority := low) {α : Type} (m : ForgeM α) [Keeps ForgeService.git m] :
    Follows (Bars full branch) m :=
  Follows.of_keeps (f := ForgeService.git) fun _ _ same => bars_of_git same

theorem coveringRule_of_ruled {levers : List ArmedLever} {lever : ArmedLever} {pattern : String}
    (mem : lever ∈ levers) (scope : lever.pattern = some pattern)
    (covers : fnmatchcase branch pattern = true) : (coveringRule levers branch).isSome = true := by
  rw [coveringRule, List.findSome?_isSome_iff]
  exact ⟨lever, mem, by simp [scope, covers]⟩

section Host

variable [GitHost]

omit [GitHost] in
theorem bars_bind {α β : Type} {m : ForgeM α} {g : α → ForgeM β} [Keeps id m] {forge : ForgeService}
    (next : ∀ a, answer m forge = .ok a → Bars full branch forge (Method.after (g a) forge)) :
    Bars full branch forge (Method.after (m >>= g) forge) := by
  refine after_bind_of_keeps (f := id) (o := forge) (P := Bars full branch forge) rfl ?_ ?_
  · intro t same
    cases same
    exact refl_of _ _
  · intro a t answered same
    cases same
    exact next a answered

theorem updateRef_bars {repo : Repo} {name sha : String} {forge : ForgeService}
    (stands : forge.git.backing full = forge.git.backing repo.fullName → branch = name →
      (forge.git.tip full branch).isSome = true) :
    Bars full branch forge (Method.after (updateRef repo name sha) forge) := by
  rcases git_updateRef repo name sha forge with ⟨_, moved⟩ | ⟨_, kept⟩
  · intro bare
    rw [moved, GitBackend.tip_set]
    split
    case isTrue same =>
      have stood := stands same.1 same.2
      rw [bare] at stood
      cases stood
    case isFalse => exact bare
  · exact bars_of_git kept

section Unnamed

variable [GitHost.Unnamed branch]

theorem tip_of_resolved {git : GitRepo} {forge : ForgeService} {other : String}
    (opened : forge.git.open? other = some git) (resolved : (git.resolve branch).isSome = true)
    (backed : forge.git.backing full = forge.git.backing other) :
    (forge.git.tip full branch).isSome = true := by
  rw [GitRepo.resolve, GitHost.Unnamed.revision, Option.or_none] at resolved
  rw [GitBackend.tip_of_open? backed, GitBackend.tip, opened]
  exact resolved

theorem moveBase_bars {method : MergeMethod} {repo : Repo} {git : GitRepo}
    {base head headSha message : String} {time : Nat} {forge : ForgeService}
    (opened : forge.git.open? repo.fullName = some git) :
    Bars full branch forge (Method.after (moveBase method repo git base head
      (GitHost.land method git base headSha message time)) forge) := by
  cases landing : GitHost.land method git base headSha message time with
  | error failure => exact refl_of _ _
  | ok sha =>
    simp only [moveBase]
    split
    · rw [after_bind_pure]
      refine updateRef_bars fun backed based => ?_
      subst based
      exact tip_of_resolved opened (GitHost.Unnamed.lands landing) backed
    · exact refl_of _ _

instance (method : MergeMethod) (repo : Repo) (base head message : String) :
    Follows (Bars full branch) (landOn method repo base head message) where
  follows forge := by
    simp only [landOn]
    refine bars_bind fun headSha _ => bars_bind fun git held => ?_
    have opened := answer_openRepo.mp held
    have stamped : Bars full branch forge (Method.after stamp forge) := bars_of_git rfl
    have later : (Method.after stamp forge).git.open? repo.fullName = some git := opened
    rw [after_bind_of_ok _ rfl]
    exact trans_of _ stamped (moveBase_bars later)

set_option synthInstance.maxSize 2000

instance (repo : Repo) (pull : PullRequest) (method : MergeMethod) (message : Option String) :
    Follows (Bars full branch) (land repo pull method message) := by
  simp only [land]
  infer_instance

instance (owner name : String) (number : Nat) (method : MergeMethod) (message sha : Option String)
    (user : String) :
    Follows (Bars full branch) (mergePull owner name number method message sha user) := by
  simp only [mergePull]
  infer_instance

instance (owner name : String) (number : Nat) (expected : Option String) :
    Follows (Bars full branch) (updateBranch owner name number expected) := by
  simp only [updateBranch]
  infer_instance

instance (owner name base head : String) (message : Option String) :
    Follows (Bars full branch) (mergeBranches owner name base head message) := by
  simp only [mergeBranches]
  infer_instance

instance (params : LeverParams) : Follows (Bars full branch) (externalMerge params) := by
  simp only [externalMerge]
  infer_instance

instance (kind : LeverKind) (params : LeverParams) :
    Follows (Bars full branch) (armLever kind params) := by
  simp only [armLever, fireActionLever]
  split
  · refine Follows.andThen ?_ fun _ => inferInstance
    split <;> infer_instance
  · split <;> infer_instance

instance (owner name ref sha : String) (force : Bool) :
    Follows (Bars full branch) (updateRefTo owner name ref sha force) where
  follows forge := by
    have moves (repo : Repo) (current target : String)
      (h : answer (resolveRef repo ref) forge = .ok current) :
        Bars full branch forge (Method.after (updateRef repo ref target) forge) := by
      obtain ⟨git, opened, resolved⟩ := opened_of_resolveRef h
      refine updateRef_bars fun backed based => ?_
      subst based
      exact tip_of_resolved opened (Option.isSome_iff_exists.mpr ⟨_, resolved⟩) backed
    simp only [updateRefTo]
    refine bars_bind fun repo _ => bars_bind fun guards _ => bars_bind fun _ _ => ?_
    refine bars_bind fun current currently => bars_bind fun target _ => ?_
    cases force with
    | true =>
      refine bars_bind fun _ _ => bars_bind fun _ _ => ?_
      rw [after_bind_pure]
      exact moves repo current target currently
    | false =>
      refine bars_bind fun _ _ => bars_bind fun _ _ => ?_
      rw [after_bind_pure]
      exact moves repo current target currently

end Unnamed

instance (repo : Repo) (gone : String) : Follows (Bars full branch) (deleteBranch repo gone) where
  follows forge := by
    intro bare
    change (forge.git.setBranches repo.fullName (·.erase gone)).tip full branch = none
    by_cases same : forge.git.backing full = forge.git.backing repo.fullName ∧ branch = gone
    · rw [GitBackend.tip, GitBackend.open?_setBranches, if_pos same.1]
      cases forge.git.open? full <;> simp [same.2, Dict.get?_erase]
    · rw [GitBackend.tip_erase forge.git full _ branch gone same, bare]

instance (owner name gone : String) : Follows (Bars full branch) (deleteRef owner name gone) := by
  simp only [deleteRef]
  infer_instance

theorem createRef_bars {owner name ref sha : String} {forge : ForgeService}
    (ruled : forge.RuledThroughout full branch) :
    Bars full branch forge (Method.after (createRef owner name ref sha) forge) := by
  simp only [createRef]
  refine bars_bind fun repo named => ?_
  have fullName := fullName_of_getRepo named
  refine bars_bind fun _ _ => bars_bind fun _ allowed => bars_bind fun _ _ => ?_
  refine bars_bind fun _ _ => bars_bind fun target _ => ?_
  rw [after_bind_pure, createBranch]
  refine bars_bind fun git _ => bars_bind fun _ _ => updateRef_bars fun backed covered => ?_
  obtain ⟨lever, mem, covers, pattern, scope, matched⟩ := ruled _ (fullName ▸ backed)
  rw [covered] at matched
  simp only [refuseByRuleset] at allowed
  obtain ⟨rules, found, allowed⟩ := answer_bind_ok_iff.mp allowed
  cases found
  have matching : lever ∈ forge.levers.values.filter fun lever =>
      lever.kind = .ruleset ∧ lever.Matches (some repo.fullName) none := by
    rw [fullName]
    exact List.mem_filter.mpr ⟨mem, decide_eq_true covers⟩
  obtain ⟨rule, held⟩ := Option.isSome_iff_exists.mp (coveringRule_of_ruled matching scope matched)
  rw [held] at allowed
  cases allowed

theorem next_bars [GitHost.Unnamed branch] {op : Op} {forge : ForgeService}
    (ruled : forge.RuledThroughout full branch) : Bars full branch forge (next op forge) := by
  have discarded {α : Type} (m : ForgeM α) :
      Method.after (discard m : ForgeM Unit) forge = Method.after m forge := after_map _ _ _
  rw [next]
  cases op with
  | createRef owner name ref sha =>
    rw [perform, discarded]
    exact createRef_bars ruled
  | updateRef owner name ref sha force =>
    rw [perform, discarded]
    exact Follows.follows forge
  | deleteRef owner name gone => exact Follows.follows (m := deleteRef owner name gone) forge
  | createPull owner name title body head base user =>
    rw [perform, discarded]
    exact Follows.follows forge
  | setPullState owner name number state =>
    rw [perform, discarded]
    exact Follows.follows forge
  | mergePull owner name number method message sha user =>
    rw [perform, discarded]
    exact Follows.follows forge
  | updateBranch owner name number expected =>
    rw [perform, discarded]
    exact Follows.follows forge
  | mergeBranches owner name base head message =>
    rw [perform, discarded]
    exact Follows.follows forge
  | armLever kind params =>
    rw [perform, discarded]
    exact Follows.follows forge
  | clearLever kind repo number name pattern => exact bars_of_git rfl
  | clearAllLevers => exact bars_of_git rfl

/-- While rulesets cover a branch under every name of a repository that has none of it, and its name
is no revision, no call makes the branch: not a reference made or updated, and not a merge landing
on it. -/
theorem ruleset_bars [GitHost.Unnamed branch] {ops : List Op} {forge : ForgeService}
    (absent : forge.git.tip full branch = none)
    (ruled : Machine.Meets next (fun _ forge => forge.RuledThroughout full branch) ops forge) :
    (Machine.after next ops forge).git.tip full branch = none :=
  Machine.invariant (I := fun later => later.git.tip full branch = none)
    (fun _ _ held ruled => next_bars ruled held) ruled absent

end Host

section Toy

attribute [local instance] GitHost.grounded

def flatToy : ForgeService :=
  .fresh { toyGit with backing := fun full =>
    if full = "octocat/toy" ∨ full = "mallory/toy" then some "octocat/toy.git" else none }
      (fun n => n) id

def ruledToy : ForgeService :=
  next (.armLever .ruleset { repo := some "mallory/toy", pattern := some "release/*" })
    (next (.armLever .ruleset { repo := some "octocat/toy", pattern := some "release/*" }) flatToy)

theorem ruled_flatToy {later : ForgeService} (git : later.git.backing = flatToy.git.backing)
    (levers : later.levers = ruledToy.levers) :
    later.RuledThroughout "octocat/toy" "release/1" := by
  have covers : fnmatchcase "release/1" "release/*" = true := by decide
  intro other same
  rw [Ruled, levers]
  rw [git] at same
  by_cases owned : other = "octocat/toy" ∨ other = "mallory/toy"
  · rcases owned with rfl | rfl
    · exact ⟨_, .head _, ⟨rfl, .inr rfl, .inl rfl⟩, _, rfl, covers⟩
    · exact ⟨_, .tail _ (.head _), ⟨rfl, .inr rfl, .inl rfl⟩, _, rfl, covers⟩
  · cases (if_neg owned : flatToy.git.backing other = none).symm.trans same.symm

theorem ruleset_bars_toy :
    (Machine.after next [
      .createRef "mallory" "toy" "refs/heads/release/1" "main",
      .updateRef "octocat" "toy" "release/1" "feature" true,
      .mergeBranches "octocat" "toy" "release/1" "feature" none] ruledToy).git.tip
        "octocat/toy" "release/1" = none :=
  ruleset_bars (by decide)
    ⟨ruled_flatToy rfl rfl, ruled_flatToy rfl rfl, ruled_flatToy rfl rfl, trivial⟩

end Toy

end ForgeService

end BlizzardMock.Forge
