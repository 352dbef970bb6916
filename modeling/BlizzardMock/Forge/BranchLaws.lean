import BlizzardMock.Forge.CallLaws

/-! Branches nobody rewinds: whatever the calls in between, a branch only ever moves on to commits
its old tip is an ancestor of, and what was merged into it stays merged into it. -/

namespace BlizzardMock.Forge

open Method

def GitBackend.tip (git : GitBackend) (full branch : String) : Option String :=
  (git.open? full).bind (·.branches.get? branch)

@[simp] theorem GitBackend.backing_setBranches (git : GitBackend) (full : String)
    (f : Dict String String → Dict String String) :
    (git.setBranches full f).backing = git.backing := by
  simp only [setBranches]
  split <;> rfl

theorem GitBackend.tip_of_open? {git : GitBackend} {full other branch : String}
    (same : git.backing full = git.backing other) : git.tip full branch = git.tip other branch := by
  simp only [tip, open?, same]

theorem GitBackend.tip_set (git : GitBackend) (full other branch name sha : String) :
    (git.setBranches other (·.set name sha)).tip full branch =
      if git.backing full = git.backing other ∧ branch = name then
        (git.open? full).map fun _ => sha
      else git.tip full branch := by
  simp only [tip, open?_setBranches]
  by_cases same : git.backing full = git.backing other
  · by_cases named : branch = name
    · cases git.open? full <;> simp [same, named]
    · cases git.open? full <;> simp [same, named, Dict.get?_set]
  · simp [same]

theorem GitBackend.tip_erase (git : GitBackend) (full other branch name : String)
    (apart : ¬ (git.backing full = git.backing other ∧ branch = name)) :
    (git.setBranches other (·.erase name)).tip full branch = git.tip full branch := by
  simp only [tip, open?_setBranches]
  by_cases same : git.backing full = git.backing other
  · have named : branch ≠ name := fun h => apart ⟨same, h⟩
    cases git.open? full <;> simp [same, named, Dict.get?_erase]
  · simp [same]

/-- What git promises of ancestors: they are ordered, whatever lands on a branch descends from its
tip, and a commit revises to itself. -/
class GitHost.Sound [GitHost] : Prop where
  refl (sha : String) : GitHost.isAncestor sha sha = true
  trans {a b c : String} (first : GitHost.isAncestor a b = true)
    (second : GitHost.isAncestor b c = true) : GitHost.isAncestor a c = true
  lands {method : MergeMethod} {repo : GitRepo} {base headSha message sha tip : String} {time : Nat}
    (landed : GitHost.land method repo base headSha message time = .ok sha)
    (stood : repo.branches.get? base = some tip) : GitHost.isAncestor tip sha = true
  revises {repo : GitRepo} {ref sha : String} (resolved : repo.resolve ref = some sha) :
    GitHost.revision repo sha = some sha

abbrev GitHost.spelled : GitHost where
  isPrintable _ := true
  revision repo ref := if ref ∈ repo.branches.values then some ref else none
  land _ repo base headSha _ _ :=
    match repo.branches.get? base with
    | some tip => .ok (tip ++ "+" ++ headSha)
    | none => .error .refused
  mergesCleanly _ _ := true
  isAncestor older newer := older.toList.isPrefixOf newer.toList
  admits _ _ := true

section Spelled

attribute [local instance] GitHost.spelled

theorem GitHost.spelled_sound : GitHost.Sound where
  refl _ := List.isPrefixOf_iff_prefix.mpr (List.prefix_refl _)
  trans first second :=
    List.isPrefixOf_iff_prefix.mpr
      ((List.isPrefixOf_iff_prefix.mp first).trans (List.isPrefixOf_iff_prefix.mp second))
  lands landed stood := by
    simp only [GitHost.land, stood] at landed
    cases landed
    refine List.isPrefixOf_iff_prefix.mpr ?_
    rw [String.append_assoc, String.toList_append]
    exact List.prefix_append _ _
  revises {repo ref sha} resolved := by
    refine if_pos ?_
    rw [GitRepo.resolve] at resolved
    cases found : repo.branches.get? ref with
    | some tip =>
      rw [found] at resolved
      cases resolved
      exact Dict.mem_values.mpr ⟨ref, found⟩
    | none =>
      rw [found, Option.none_or] at resolved
      by_cases mem : ref ∈ repo.branches.values
      · cases (if_pos mem).symm.trans resolved
        exact mem
      · cases (if_neg mem).symm.trans resolved

end Spelled

namespace ForgeService

def Guarded (forge : ForgeService) (full branch : String) : Prop :=
  ∃ lever ∈ forge.levers.values,
    (lever.kind = .branchProtected ∧ lever.Matches (some full) none) ∧ lever.branch = some branch

section Host

variable [GitHost]

structure Advances (full branch : String) (forge later : ForgeService) : Prop where
  backing : later.git.backing = forge.git.backing
  tip {old : String} (stood : forge.git.tip full branch = some old) :
    ∃ new, later.git.tip full branch = some new ∧ GitHost.isAncestor old new = true

def Shadowed (forge : ForgeService) (full ref : String) : Prop :=
  ∃ repo sha, forge.git.open? full = some repo ∧ repo.resolve ref = some sha ∧ sha ∈ repo.branches

/-- The calls that may take a branch back: its deletion, and an update that is forced, or whose
commits a branch shadows, while no lever guards it. -/
def Rewinds (full branch : String) : Op → ForgeService → Prop
  | .deleteRef owner name gone, forge =>
    forge.git.backing full = forge.git.backing (owner ++ "/" ++ name) ∧ branch = gone
  | .updateRef owner name ref sha force, forge =>
    (forge.git.backing full = forge.git.backing (owner ++ "/" ++ name) ∧ branch = ref) ∧
      ¬ forge.Guarded (owner ++ "/" ++ name) ref ∧
        (force = true ∨ forge.Shadowed full branch ∨ forge.Shadowed full sha)
  | _, _ => False

variable {full branch : String}

section Sound

variable [GitHost.Sound]

instance : IsPreorder ForgeService (Advances full branch) where
  refl _ := ⟨rfl, fun stood => ⟨_, stood, GitHost.Sound.refl _⟩⟩
  trans _ _ _ first second := by
    refine ⟨second.backing.trans first.backing, fun stood => ?_⟩
    obtain ⟨mid, stood', older⟩ := first.tip stood
    obtain ⟨new, stands, newer⟩ := second.tip stood'
    exact ⟨new, stands, GitHost.Sound.trans older newer⟩

theorem advances_of_git {forge later : ForgeService} (same : later.git = forge.git) :
    Advances full branch forge later where
  backing := congrArg GitBackend.backing same
  tip stood := ⟨_, same ▸ stood, GitHost.Sound.refl _⟩

theorem advances_of_set {forge later : ForgeService} {other name sha : String}
    (moved : later.git = forge.git.setBranches other (·.set name sha))
    (further : ∀ old, forge.git.backing full = forge.git.backing other → branch = name →
      forge.git.tip full branch = some old → GitHost.isAncestor old sha = true) :
    Advances full branch forge later where
  backing := by rw [moved, GitBackend.backing_setBranches]
  tip {old} stood := by
    rw [moved, GitBackend.tip_set]
    split
    case isTrue same =>
      have opened : ∃ repo, forge.git.open? full = some repo := by
        obtain ⟨repo, opened, _⟩ := Option.bind_eq_some_iff.mp stood
        exact ⟨repo, opened⟩
      obtain ⟨repo, opened⟩ := opened
      exact ⟨sha, by rw [opened]; rfl, further old same.1 same.2 stood⟩
    case isFalse => exact ⟨old, stood, GitHost.Sound.refl old⟩

instance (priority := low) {α : Type} (m : ForgeM α) [Keeps ForgeService.git m] :
    Follows (Advances full branch) m :=
  Follows.of_keeps (f := ForgeService.git) fun _ _ same => advances_of_git same

end Sound

section Still

instance : Keeps ForgeService.git now := ⟨fun _ => rfl⟩
instance : Keeps ForgeService.git stamp := ⟨fun _ => rfl⟩

instance (f : InMemoryForgeState → InMemoryForgeState) : Keeps ForgeService.git (setState f) :=
  ⟨fun _ => rfl⟩

instance (f : InMemoryLeverStore → InMemoryLeverStore) : Keeps ForgeService.git (setLevers f) :=
  ⟨fun _ => rfl⟩

instance (f : InMemoryCheckRunStore → InMemoryCheckRunStore) :
    Keeps ForgeService.git (setChecks f) :=
  ⟨fun _ => rfl⟩

instance (f : InMemoryRateLedger → InMemoryRateLedger) : Keeps ForgeService.git (setRate f) :=
  ⟨fun _ => rfl⟩

instance (repo : Repo) (pull : PullRequest) : Keeps ForgeService.git (putPull repo pull) :=
  ⟨fun _ => rfl⟩

instance (repo : Repo) (pull : PullRequest) : Keeps ForgeService.git (freeze repo pull) := by
  simp only [freeze]
  infer_instance

instance (repo : Repo) (pull : PullRequest) (state : State) :
    Keeps ForgeService.git (thawed repo pull state) := by
  simp only [thawed]
  infer_instance

instance (owner name : String) (number : Nat) (state : State) :
    Keeps ForgeService.git (setPullState owner name number state) := by
  simp only [setPullState]
  infer_instance

instance (repo : Repo) (pull : PullRequest) : Keeps ForgeService.git (closeWith repo pull) := by
  simp only [closeWith]
  infer_instance

instance (repo : Repo) (name : String) (pulls : List PullRequest) :
    Keeps ForgeService.git (closePulls repo name pulls) := by
  induction pulls with
  | nil => exact inferInstanceAs (Keeps ForgeService.git (pure ()))
  | cons pull rest ih => unfold closePulls; infer_instance

instance (repo : Repo) (pull : PullRequest) (sha mergedBy headSha : String) :
    Keeps ForgeService.git (recordMerge repo pull sha mergedBy headSha) := by
  simp only [recordMerge]
  infer_instance

set_option synthInstance.maxSize 2000

instance (owner name title body head base user : String) :
    Keeps ForgeService.git (createPull owner name title body head base user) := by
  simp only [createPull]
  infer_instance

instance (params : LeverParams) : Keeps ForgeService.git (refChecks params) := by
  simp only [refChecks]
  infer_instance

end Still

theorem git_updateRef (repo : Repo) (name sha : String) (forge : ForgeService) :
    (answer (updateRef repo name sha) forge = .ok () ∧
        (Method.after (updateRef repo name sha) forge).git =
          forge.git.setBranches repo.fullName (·.set name sha)) ∨
      (∃ e, answer (updateRef repo name sha) forge = .error e) ∧
        (Method.after (updateRef repo name sha) forge).git = forge.git := by
  simp only [updateRef]
  refine outcome_bind_of_keeps (f := id) (o := forge) (P := fun r t =>
    (r = .ok () ∧ t.git = forge.git.setBranches repo.fullName (·.set name sha)) ∨
      (∃ e, r = .error e) ∧ t.git = forge.git) rfl ?_ ?_
  · intro e t same
    exact .inr ⟨⟨e, rfl⟩, congrArg ForgeService.git same⟩
  · intro git t _ same
    cases same
    refine outcome_bind_of_keeps (f := id) (o := forge) (P := fun r t =>
      (r = .ok () ∧ t.git = forge.git.setBranches repo.fullName (·.set name sha)) ∨
        (∃ e, r = .error e) ∧ t.git = forge.git) rfl ?_ ?_
    · intro e t same
      exact .inr ⟨⟨e, rfl⟩, congrArg ForgeService.git same⟩
    · intro _ t _ same
      cases same
      exact .inl ⟨rfl, rfl⟩

/-- What landing on a base makes of a branch: it advances, and is at what landed where it is the
base. -/
def Landed (full branch : String) (repo : Repo) (base : String) (forge : ForgeService)
    (r : Except ForgeError String) (later : ForgeService) : Prop :=
  Advances full branch forge later ∧ ∀ sha old, r = .ok sha →
    forge.git.backing full = forge.git.backing repo.fullName → branch = base →
      forge.git.tip full branch = some old → later.git.tip full branch = some sha

section Landing

variable [GitHost.Sound]

theorem landed_of_error {repo : Repo} {base : String} {forge later : ForgeService} {e : ForgeError}
    (same : later.git = forge.git) : Landed full branch repo base forge (.error e) later :=
  ⟨advances_of_git same, fun _ _ raised => by cases raised⟩

theorem moveBase_landed {method : MergeMethod} {repo : Repo} {git : GitRepo}
    {base head headSha message : String}
    {time : Nat} {forge mid : ForgeService} (same : mid.git = forge.git)
    (opened : forge.git.open? repo.fullName = some git) :
    Landed full branch repo base forge
      (answer (moveBase method repo git base head
        (GitHost.land method git base headSha message time)) mid)
      (Method.after (moveBase method repo git base head
        (GitHost.land method git base headSha message time)) mid) := by
  have stood {old : String} (backed : forge.git.backing full = forge.git.backing repo.fullName)
      (based : branch = base) (tip : forge.git.tip full branch = some old) :
      git.branches.get? base = some old := by
    rw [GitBackend.tip_of_open? backed, based, GitBackend.tip, opened] at tip
    exact tip
  cases landing : GitHost.land method git base headSha message time with
  | error failure => exact landed_of_error same
  | ok sha =>
    simp only [moveBase]
    by_cases moves : method = .rebase ∨ base ∈ git.branches
    · rw [if_pos moves]
      rcases git_updateRef repo base sha mid with ⟨answered, moved⟩ | ⟨⟨e, raised⟩, kept⟩
      · rw [answer_bind_of_ok _ answered, after_bind_of_ok _ answered, answer_pure, after_pure]
        rw [same] at moved
        refine ⟨advances_of_set moved fun old backed based tip => ?_, ?_⟩
        · exact GitHost.Sound.lands landing (stood backed based tip)
        · intro sha' old answered backed based tip
          cases answered
          obtain ⟨held, found, _⟩ := Option.bind_eq_some_iff.mp tip
          rw [moved, GitBackend.tip_set, if_pos ⟨backed, based⟩, found]
          rfl
      · rw [answer_bind_of_error _ raised, after_bind_of_error _ raised]
        exact landed_of_error (kept.trans same)
    · rw [if_neg moves]
      refine ⟨advances_of_git same, ?_⟩
      intro sha' old _ backed based tip
      exact absurd (.inr (Dict.mem_iff.mpr ⟨old, stood backed based tip⟩)) moves

theorem landOn_landed (method : MergeMethod) (repo : Repo) (base head message : String)
    (forge : ForgeService) :
    Landed full branch repo base forge (answer (landOn method repo base head message) forge)
      (Method.after (landOn method repo base head message) forge) := by
  simp only [landOn]
  refine outcome_bind_of_keeps (f := ForgeService.git) (P := Landed full branch repo base forge) rfl
    (fun _ _ => landed_of_error) ?_
  intro headSha t _ same
  refine outcome_bind_of_keeps (f := ForgeService.git)
    (P := Landed full branch repo base forge) same
    (fun _ _ => landed_of_error) ?_
  intro git u held same'
  have opened := answer_openRepo.mp held
  rw [same] at opened
  refine outcome_bind_of_keeps (f := ForgeService.git)
    (P := Landed full branch repo base forge) same'
    (fun _ _ => landed_of_error) ?_
  intro time v _ same
  exact moveBase_landed same opened

instance (method : MergeMethod) (repo : Repo) (base head message : String) :
    Follows (Advances full branch) (landOn method repo base head message) :=
  ⟨fun forge => (landOn_landed method repo base head message forge).1⟩

instance (repo : Repo) (pull : PullRequest) (method : MergeMethod) (message : Option String) :
    Follows (Advances full branch) (land repo pull method message) := by
  simp only [land]
  infer_instance

set_option synthInstance.maxSize 2000

instance (owner name : String) (number : Nat) (method : MergeMethod) (message sha : Option String)
    (user : String) :
    Follows (Advances full branch) (mergePull owner name number method message sha user) := by
  simp only [mergePull]
  infer_instance

instance (owner name : String) (number : Nat) (expected : Option String) :
    Follows (Advances full branch) (updateBranch owner name number expected) := by
  simp only [updateBranch]
  infer_instance

instance (owner name base head : String) (message : Option String) :
    Follows (Advances full branch) (mergeBranches owner name base head message) := by
  simp only [mergeBranches]
  infer_instance

instance (params : LeverParams) : Follows (Advances full branch) (externalMerge params) := by
  simp only [externalMerge]
  infer_instance

instance (kind : LeverKind) (params : LeverParams) :
    Follows (Advances full branch) (armLever kind params) := by
  simp only [armLever, fireActionLever]
  split
  · refine Follows.andThen ?_ fun _ => inferInstance
    split <;> infer_instance
  · split <;> infer_instance

end Landing

section Calls

variable [GitHost.Sound]

theorem advances_bind {α β : Type} {m : ForgeM α} {g : α → ForgeM β} [Keeps id m]
    {forge : ForgeService}
    (next : ∀ a, answer m forge = .ok a → Advances full branch forge (Method.after (g a) forge)) :
    Advances full branch forge (Method.after (m >>= g) forge) := by
  refine after_bind_of_keeps (f := id) (o := forge) (P := Advances full branch forge) rfl ?_ ?_
  · intro t same
    cases same
    exact refl_of _ _
  · intro a t answered same
    cases same
    exact next a answered

theorem updateRef_advances {repo : Repo} {name sha : String} {forge : ForgeService}
    (further : ∀ old, forge.git.backing full = forge.git.backing repo.fullName → branch = name →
      forge.git.tip full branch = some old → GitHost.isAncestor old sha = true) :
    Advances full branch forge (Method.after (updateRef repo name sha) forge) := by
  rcases git_updateRef repo name sha forge with ⟨_, moved⟩ | ⟨_, kept⟩
  · exact advances_of_set moved further
  · exact advances_of_git kept

instance (repo : Repo) (name sha : String) :
    Follows (Advances full branch) (createBranch repo name sha) where
  follows forge := by
    simp only [createBranch]
    refine advances_bind fun git held => advances_bind fun _ refused => ?_
    have opened := answer_openRepo.mp held
    refine updateRef_advances fun old backed named tip => ?_
    rw [GitBackend.tip_of_open? backed, named, GitBackend.tip, opened] at tip
    exact absurd (Dict.mem_iff.mpr ⟨old, tip⟩) (refuseIf_ok.mp refused)

set_option synthInstance.maxSize 1000

instance (owner name ref sha : String) :
    Follows (Advances full branch) (createRef owner name ref sha) := by
  simp only [createRef]
  infer_instance

omit [GitHost.Sound] in
theorem opened_of_resolveRef {repo : Repo} {ref sha : String} {forge : ForgeService}
    (h : answer (resolveRef repo ref) forge = .ok sha) :
    ∃ git, forge.git.open? repo.fullName = some git ∧ git.resolve ref = some sha := by
  simp only [resolveRef] at h
  obtain ⟨git, held, raised⟩ := answer_bind_ok_iff.mp h
  exact ⟨git, answer_openRepo.mp held, orRaise_ok.mp raised⟩

theorem resolve_of_resolved {git : GitRepo} {ref sha : String}
    (resolved : git.resolve ref = some sha)
    (bare : sha ∉ git.branches) : git.resolve sha = some sha := by
  rw [GitRepo.resolve, Dict.not_mem_iff.mp bare, Option.none_or]
  exact GitHost.Sound.revises resolved

omit [GitHost.Sound] in
theorem isAncestor_of_answer {repo : Repo} {git : GitRepo} {ancestor descendant anc desc : String}
    {held : Bool} {forge : ForgeService} (opened : forge.git.open? repo.fullName = some git)
    (first : git.resolve ancestor = some anc) (second : git.resolve descendant = some desc)
    (answered : answer (isAncestor repo ancestor descendant) forge = .ok held) :
    GitHost.isAncestor anc desc = held := by
  rw [isAncestor] at answered
  obtain ⟨anc', found, answered⟩ := answer_bind_ok_iff.mp answered
  obtain ⟨desc', found', answered⟩ := answer_bind_ok_iff.mp answered
  obtain ⟨git', opened', resolved⟩ := opened_of_resolveRef found
  obtain ⟨git'', opened'', resolved'⟩ := opened_of_resolveRef found'
  rw [opened] at opened' opened''
  cases opened'
  cases opened''
  rw [first] at resolved
  rw [second] at resolved'
  cases resolved
  cases resolved'
  exact Except.ok.inj answered

theorem updateRefTo_advances {owner name ref sha : String} {force : Bool} {forge : ForgeService}
    (kept : ¬ Rewinds full branch (.updateRef owner name ref sha force) forge) :
    Advances full branch forge (Method.after (updateRefTo owner name ref sha force) forge) := by
  simp only [updateRefTo]
  refine advances_bind fun repo named => ?_
  have fullName := fullName_of_getRepo named
  refine advances_bind fun guards found => advances_bind fun _ refused => ?_
  cases found
  have unguarded : ¬ forge.Guarded (owner ++ "/" ++ name) ref := by
    rintro ⟨lever, mem, covers, protects⟩
    refine refuseIf_ok.mp refused (List.any_eq_true.mpr ⟨lever, List.mem_filter.mpr ⟨mem, ?_⟩, ?_⟩)
    · rw [fullName]
      exact decide_eq_true covers
    · exact decide_eq_true protects
  refine advances_bind fun current currently => advances_bind fun target targeted => ?_
  -- an update of the branch is neither forced nor shadowed, or it would rewind
  have clean (backed : forge.git.backing full = forge.git.backing repo.fullName)
    (based : branch = ref) :=
    fun h => kept ⟨⟨fullName ▸ backed, based⟩, unguarded, h⟩
  cases force with
  | true =>
    refine advances_bind fun forward _ => advances_bind fun _ _ => ?_
    rw [after_bind_pure]
    exact updateRef_advances fun old backed based _ => absurd (.inl rfl) (clean backed based)
  | false =>
    refine advances_bind fun forward forwarded => advances_bind fun _ allowed => ?_
    rw [after_bind_pure]
    refine updateRef_advances fun old backed based tip => ?_
    obtain ⟨git, opened, resolved⟩ := opened_of_resolveRef currently
    obtain ⟨git', opened', resolved'⟩ := opened_of_resolveRef targeted
    rw [opened] at opened'
    cases opened'
    have opens : forge.git.open? full = some git := by
      rw [← opened, GitBackend.open?, GitBackend.open?, backed]
    subst based
    rw [GitBackend.tip, opens] at tip
    have stood : git.resolve branch = some old := by
      rw [GitRepo.resolve, show git.branches.get? branch = some old from tip, Option.some_or]
    rw [stood] at resolved
    obtain rfl := Option.some.inj resolved
    have first := resolve_of_resolved stood fun mem =>
      clean backed rfl (.inr (.inl ⟨git, old, opens, stood, mem⟩))
    have second := resolve_of_resolved resolved' fun mem =>
      clean backed rfl (.inr (.inr ⟨git, target, opens, resolved', mem⟩))
    rw [isAncestor_of_answer opened first second forwarded]
    exact Bool.eq_true_of_not_eq_false (refuseIf_ok.mp allowed)

theorem deleteRef_advances {owner name gone : String} {forge : ForgeService}
    (kept : ¬ Rewinds full branch (.deleteRef owner name gone) forge) :
    Advances full branch forge (Method.after (deleteRef owner name gone) forge) := by
  simp only [deleteRef]
  refine advances_bind fun repo named => ?_
  have fullName := fullName_of_getRepo named
  refine advances_bind fun there _ => advances_bind fun _ _ => advances_bind fun state _ => ?_
  have closing := Keeps.keeps (f := ForgeService.git)
    (m := closePulls repo gone (state.listPulls repo.fullName (some "open"))) forge
  rw [after_bind]
  cases answer (closePulls repo gone _) forge with
  | error e => exact advances_of_git closing
  | ok _ =>
    have erased := GitBackend.tip_erase forge.git full repo.fullName branch gone (fullName ▸ kept)
    refine ⟨?_, fun stood => ⟨_, ?_, GitHost.Sound.refl _⟩⟩
    · exact (GitBackend.backing_setBranches _ _ _).trans (congrArg GitBackend.backing closing)
    · change (GitBackend.setBranches (Method.after _ forge).git _ _).tip full branch = _
      rw [closing, erased, stood]

theorem next_advances {op : Op} {forge : ForgeService} (kept : ¬ Rewinds full branch op forge) :
    Advances full branch forge (next op forge) := by
  have discarded {α : Type} (m : ForgeM α) :
      Method.after (discard m : ForgeM Unit) forge = Method.after m forge := after_map _ _ _
  rw [next]
  cases op with
  | updateRef owner name ref sha force =>
    rw [perform, discarded]
    exact updateRefTo_advances kept
  | deleteRef owner name gone => exact deleteRef_advances kept
  | createPull owner name title body head base user =>
    rw [perform, discarded]
    exact Follows.follows forge
  | setPullState owner name number state =>
    rw [perform, discarded]
    exact Follows.follows forge
  | mergePull owner name number method message sha user =>
    rw [perform, discarded]
    exact Follows.follows forge
  | updateBranch owner name number expected =>
    rw [perform, discarded]
    exact Follows.follows forge
  | mergeBranches owner name base head message =>
    rw [perform, discarded]
    exact Follows.follows forge
  | createRef owner name ref sha =>
    rw [perform, discarded]
    exact Follows.follows forge
  | armLever kind params =>
    rw [perform, discarded]
    exact Follows.follows forge
  | clearLever kind repo number name pattern => exact advances_of_git rfl
  | clearAllLevers => exact advances_of_git rfl

end Calls

section Runs

variable [GitHost.Sound]

theorem advances_run {ops : List Op} {forge : ForgeService}
    (kept : Machine.Meets next (fun op forge => ¬ Rewinds full branch op forge) ops forge) :
    Advances full branch forge (Machine.after next ops forge) :=
  Machine.related (I := fun _ => True) (R := Advances full branch) (refl_of _) (trans_of _)
    (fun _ _ _ => trivial) (fun _ _ _ kept => next_advances kept) trivial kept

def MergesAt (full base : String) (r : Except ForgeError MergeResult) (later : ForgeService) :
    Prop :=
  ∀ result, r = .ok result → later.git.tip full base = some result.sha

omit [GitHost] [GitHost.Sound] in
theorem mergesAt_bind {α : Type} {m : ForgeM α} {g : α → ForgeM MergeResult} [Keeps id m]
    {full base : String} {forge : ForgeService}
    (next : ∀ a, answer m forge = .ok a →
      MergesAt full base (answer (g a) forge) (Method.after (g a) forge)) :
    MergesAt full base (answer (m >>= g) forge) (Method.after (m >>= g) forge) := by
  refine outcome_bind_of_keeps (f := id) (o := forge) (P := MergesAt full base) rfl ?_ ?_
  · intro e t _ result raised
    cases raised
  · intro a t answered same
    cases same
    exact next a answered

theorem mergePull_mergesAt {owner name : String} {number : Nat} {method : MergeMethod}
    {message sha : Option String} {user : String} {forge : ForgeService} {pull : PullRequest}
    {old : String}
    (found : forge.world.getPull (owner ++ "/" ++ name) number = some pull)
    (stood : forge.git.tip (owner ++ "/" ++ name) pull.base = some old) :
    MergesAt (owner ++ "/" ++ name) pull.base
      (answer (mergePull owner name number method message sha user) forge)
      (Method.after (mergePull owner name number method message sha user) forge) := by
  simp only [mergePull]
  refine mergesAt_bind fun repo named => ?_
  have fullName := fullName_of_getRepo named
  refine mergesAt_bind fun held required => ?_
  have kept := (found_of_requirePull required).2
  rw [fullName, found] at kept
  cases kept
  -- the state of the pull and the levers
  iterate 7 refine mergesAt_bind fun _ _ => ?_
  refine mergesAt_bind fun headSha _ => mergesAt_bind fun _ _ => ?_
  refine outcome_bind (P := MergesAt (owner ++ "/" ++ name) pull.base) ?_ ?_
  · intro e _ result raised
    cases raised
  · intro newSha answered result recorded
    obtain ⟨_, _, made⟩ := answer_bind_ok recorded
    cases made
    rw [after_bind_pure, Keeps.keeps (f := ForgeService.git)]
    exact (landOn_landed _ repo pull.base _ _ forge).2 newSha old answered
      (congrArg forge.git.backing fullName.symm) rfl stood

/-- A branch that stands stays, as long as no call rewinds it: its tip goes on to descendants of
itself, and of every merge into it that was answered on the way. -/
theorem history_kept {ops : List Op} {forge : ForgeService} {old : String}
    (stood : forge.git.tip full branch = some old)
    (kept : Machine.Meets next (fun op forge => ¬ Rewinds full branch op forge) ops forge) :
    ∃ new, (Machine.after next ops forge).git.tip full branch = some new ∧
      GitHost.isAncestor old new = true ∧
        ∀ xs owner name number method message sha user ys result pull,
          ops = xs ++ .mergePull owner name number method message sha user :: ys →
          forge.git.backing full = forge.git.backing (owner ++ "/" ++ name) →
          (Machine.after next xs forge).world.getPull (owner ++ "/" ++ name) number = some pull →
          pull.base = branch →
          answer (mergePull owner name number method message sha user)
            (Machine.after next xs forge) =
            .ok result →
          GitHost.isAncestor result.sha new = true := by
  obtain ⟨new, tip, descends⟩ := (advances_run kept).tip stood
  refine ⟨new, tip, descends, ?_⟩
  intro xs owner name number method message sha user ys result pull split backed found based merged
  subst split
  subst based
  let op := Op.mergePull owner name number method message sha user
  let mid := Machine.after next xs forge
  obtain ⟨before, step, rest⟩ := (Machine.meets_append xs (op :: ys) forge).mp kept
  have reached := advances_run before
  have stepped := next_advances step
  obtain ⟨at', stands, _⟩ := reached.tip stood
  have same : mid.git.backing full = mid.git.backing (owner ++ "/" ++ name) := by
    rw [reached.backing, backed]
  have same' : (next op mid).git.backing full = (next op mid).git.backing
    (owner ++ "/" ++ name) := by
    rw [stepped.backing, same]
  have landed : (next op mid).git.tip full pull.base = some result.sha := by
    rw [GitBackend.tip_of_open? same] at stands
    rw [GitBackend.tip_of_open? same', next, perform,
      show Method.after (discard (mergePull owner name number
      method message sha user)) mid = _ from after_map _ _ _]
    exact mergePull_mergesAt found stands result merged
  obtain ⟨last, tip', descends⟩ := (advances_run rest).tip landed
  rw [Machine.after_append, Machine.after_cons, tip'] at tip
  cases tip
  exact descends

end Runs

end Host

section Toy

attribute [local instance] GitHost.spelled GitHost.spelled_sound

theorem history_kept_toy :
    let ops : List Op := [
      .createPull "octocat" "toy" "t" "" "feature" "main" "me",
      .mergePull "octocat" "toy" 1 .merge none none "me",
      .armLever .branchProtected { repo := some "octocat/toy", branch := some "main" },
      .updateRef "octocat" "toy" "main" "o" true]
    ∃ new, (Machine.after next ops toy).git.tip "octocat/toy" "main" = some new ∧
      GitHost.isAncestor "m" new = true ∧ GitHost.isAncestor "m+f" new = true := by
  intro ops
  have stood : toy.git.tip "octocat/toy" "main" = some "m" := by decide
  have kept : Machine.Meets next (fun op forge =>
    ¬ Rewinds "octocat/toy" "main" op forge) ops toy :=
    ⟨id, id, id, fun rewinds => rewinds.2.1 ⟨_, .head _, ⟨rfl, .inr rfl, .inl rfl⟩, rfl⟩, trivial⟩
  obtain ⟨new, tip, older, merges⟩ := history_kept stood kept
  exact ⟨new, tip, older, merges [_] "octocat" "toy" 1 .merge none none "me" _
    ⟨"m+f", _⟩ _ rfl rfl rfl rfl rfl⟩

end Toy

end ForgeService

end BlizzardMock.Forge
