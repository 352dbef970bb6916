import BlizzardMock.Data.Machine
import BlizzardMock.Forge.WriteLaws

/-! When a clean pull has no red check: the two ladders, of mergeability and of check runs, side by
side. -/

namespace BlizzardMock.Forge

open Method

def CheckRun.Red (run : CheckRun) : Prop :=
  run.status = "completed" ∧
    (run.conclusion = some "failure" ∨ run.conclusion = some "startup_failure")

theorem ArmedLever.state_ne_clean (lever : ArmedLever) (kind : lever.kind = .mergeableState) :
    ∃ forced, lever.state = some forced ∧ forced ≠ .clean := by
  have scope := lever.inScope
  rw [kind] at scope
  simp only [requireScope] at scope
  split at scope
  case isTrue => cases scope
  case isFalse h =>
    have forceable : lever.state ∈ forceableMergeableStates.map some :=
      Classical.not_not.mp fun out => h (.inr (.inr out))
    obtain ⟨forced, mem, same⟩ := List.mem_map.mp forceable
    refine ⟨forced, same.symm, ?_⟩
    rintro rfl
    exact absurd mem (by decide)

namespace ForgeService

def repo? (forge : ForgeService) (owner name : String) : Option Repo :=
  (forge.git.open? (owner ++ "/" ++ name)).map fun git =>
    { owner, name, defaultBranch := git.defaultBranch }

/-- A lever of a kind matches a repository and a number. -/
def Armed (forge : ForgeService) (kind : LeverKind) (full : String) (number : Option Nat) : Prop :=
  (forge.levers.find kind (some full) number).isSome = true

def gates : List LeverKind :=
  [.mergeConflict, .mergeableState, .staleBranch, .checksPending, .checksFailed,
    .checksStartupFailure]

theorem forced_of_armed (forge : ForgeService) (full : String) (number : Nat) :
    ((forge.levers.find .mergeableState (some full) (some number)).bind (·.state) = none ↔
      ¬ forge.Armed .mergeableState full (some number)) ∧
    (forge.levers.find .mergeableState (some full) (some number)).bind (·.state) ≠ some .clean := by
  rw [Armed]
  cases found : forge.levers.find .mergeableState (some full) (some number) with
  | none => simp
  | some lever =>
    have kind := (of_decide_eq_true (List.find?_some (p := fun lever : ArmedLever =>
      lever.kind = .mergeableState ∧ lever.Matches (some full) (some number)) found)).1
    obtain ⟨forced, state, unclean⟩ := lever.state_ne_clean kind
    simp [state, unclean]

section Ladders

variable [GitHost]

def tip (forge : ForgeService) (full ref : String) : Option String :=
  (forge.git.open? full).bind (·.resolve ref)

structure Unhindered (forge : ForgeService) (full : String) (pull : PullRequest) : Prop where
  opened : pull.state = .opened
  unmerged : pull.merged = false
  free : ∀ kind ∈ gates, ¬ forge.Armed kind full (some pull.number)
  mergeable : ∃ base head, forge.tip full pull.base = some base ∧
    forge.tip full pull.head = some head ∧ GitHost.mergesCleanly base head = true

def Leads (forge : ForgeService) (full sha : String) (pull : PullRequest) : Prop :=
  ∃ before rest, forge.state.listPulls full (some "open") = before ++ pull :: rest ∧
    forge.tip full pull.head = some sha ∧
      ∀ other ∈ before, ∃ elsewhere, forge.tip full other.head = some elsewhere ∧ elsewhere ≠ sha

/-- A commit reads red: by a run armed against it, or, where none is, by a lever of the first open
pull headed there or by the base's own lever at the tip of the default branch. -/
inductive RedAt (forge : ForgeService) (repo : Repo) (sha : String) : Prop
  | armed {runs : List CheckRun} {run : CheckRun}
      (armed : forge.checks.runs repo.fullName sha = some runs) (mem : run ∈ runs) (red : run.Red)
  | pull {pull : PullRequest} (unarmed : forge.checks.runs repo.fullName sha = none)
      (leads : forge.Leads repo.fullName sha pull)
      (lever : forge.Armed .checksFailed repo.fullName (some pull.number) ∨
        forge.Armed .checksStartupFailure repo.fullName (some pull.number))
  | base {pull : PullRequest} (unarmed : forge.checks.runs repo.fullName sha = none)
      (leads : forge.Leads repo.fullName sha pull)
      (lever : forge.Armed .baseChecksFailed repo.fullName none)
      (tip : forge.tip repo.fullName repo.defaultBranch = some sha)

variable {forge : ForgeService}

theorem answer_resolveRef {repo : Repo} {ref sha : String} :
    answer (resolveRef repo ref) forge = .ok sha ↔ forge.tip repo.fullName ref = some sha := by
  rw [resolveRef, answer_bind_ok_iff]
  simp only [answer_openRepo, orRaise_ok, tip, Option.bind_eq_some_iff]

theorem answer_isMergeable {repo : Repo} {base head : String} {merges : Bool} :
    answer (isMergeable repo base head) forge = .ok merges ↔
      ∃ baseSha headSha, forge.tip repo.fullName base = some baseSha ∧
        forge.tip repo.fullName head = some headSha ∧
          GitHost.mergesCleanly baseSha headSha = merges := by
  simp only [isMergeable, answer_bind_ok_iff, answer_resolveRef, answer_pure, Except.ok.injEq]
  constructor
  · rintro ⟨baseSha, based, headSha, headed, merges⟩
    exact ⟨baseSha, headSha, based, headed, merges⟩
  · rintro ⟨baseSha, headSha, based, headed, merges⟩
    exact ⟨baseSha, based, headSha, headed, merges⟩

theorem clean_iff {repo : Repo} {pull : PullRequest} :
    (∃ mergeable, answer (mergeability repo pull) forge = .ok (mergeable, .clean)) ↔
      forge.Unhindered repo.fullName pull := by
  have forced := forced_of_armed forge repo.fullName pull.number
  constructor
  · rintro ⟨mergeable, answered⟩
    rw [mergeability, answer_bind_of_ok _ rfl] at answered
    simp only [after_read] at answered
    split at answered
    · cases answered
    case isFalse live =>
      split at answered
      · cases answered
      case isFalse apart =>
        split at answered
        case h_1 state found =>
          cases answered
          exact absurd found forced.2
        case h_2 unforced =>
          iterate 4
            split at answered
            · cases answered
          case' isFalse.isFalse.isFalse.isFalse stale pending failed started =>
            obtain ⟨merges, merged, made⟩ := answer_bind_ok_iff.mp answered
            cases merges with
            | false => cases made
            | true =>
              obtain ⟨base, head, based, headed, merges⟩ := answer_isMergeable.mp merged
              refine ⟨?_, ?_, ?_, base, head, based, headed, merges⟩
              · cases state : pull.state with
                | opened => rfl
                | closed => exact absurd (.inr state) live
              · exact Bool.eq_false_of_not_eq_true fun merged => live (.inl merged)
              · simp only [gates, List.forall_mem_cons]
                exact ⟨apart, forced.1.mp unforced, stale, pending, failed, started,
                  List.forall_mem_nil _⟩
  · intro h
    have live : ¬ (pull.merged = true ∨ pull.state = .closed) := by
      simp [h.unmerged, h.opened]
    obtain ⟨base, head, based, headed, merges⟩ := h.mergeable
    have merged := answer_isMergeable.mpr ⟨base, head, based, headed, merges⟩
    have apart (kind : LeverKind) (mem : kind ∈ gates) :
        ¬ (forge.levers.find kind (some repo.fullName) (some pull.number)).isSome = true :=
      h.free kind mem
    refine ⟨some true, ?_⟩
    rw [mergeability, answer_bind_of_ok _ rfl]
    simp only [after_read]
    rw [if_neg live, if_neg (apart .mergeConflict (by decide)),
      forced.1.mpr (h.free .mergeableState (by decide))]
    dsimp only
    rw [if_neg (apart .staleBranch (by decide)), if_neg (apart .checksPending (by decide)),
      if_neg (apart .checksFailed (by decide)), if_neg (apart .checksStartupFailure (by decide)),
      answer_bind_of_ok _ merged]
    rfl

theorem leads_iff {repo : Repo} {sha : String} {pull : PullRequest} :
    answer (findPullByHeadSha repo sha) forge = .ok (some pull) ↔
      forge.Leads repo.fullName sha pull := by
  rw [findPullByHeadSha, answer_bind_of_ok _ rfl, Leads]
  simp only [after_read]
  induction forge.state.listPulls repo.fullName (some "open") with
  | nil => simp [firstHeadedAt]
  | cons first rest ih =>
    rw [firstHeadedAt, answer_bind_ok_iff]
    simp only [answer_resolveRef]
    constructor
    · rintro ⟨headSha, headed, answered⟩
      split at answered
      case isTrue here =>
        cases answered
        exact ⟨[], rest, rfl, here ▸ headed, List.forall_mem_nil _⟩
      case isFalse apart =>
        obtain ⟨before, after, same, headed', elsewhere⟩ := ih.mp answered
        refine ⟨first :: before, after, congrArg (first :: ·) same, headed', ?_⟩
        intro other mem
        cases mem with
        | head => exact ⟨headSha, headed, apart⟩
        | tail _ mem => exact elsewhere other mem
    · rintro ⟨before, after, same, headed, elsewhere⟩
      cases before with
      | nil =>
        cases same
        exact ⟨sha, headed, by rw [if_pos rfl]; rfl⟩
      | cons other before =>
        cases same
        obtain ⟨headSha, headed', apart⟩ := elsewhere first List.mem_cons_self
        refine ⟨headSha, headed', ?_⟩
        rw [if_neg apart]
        exact ih.mpr ⟨before, after, rfl, headed, fun other mem => elsewhere other (.tail _ mem)⟩

theorem headless {repo : Repo} {sha : String}
    (h : answer (findPullByHeadSha repo sha) forge = .ok none) :
    ∀ pull ∈ forge.state.listPulls repo.fullName (some "open"),
      forge.tip repo.fullName pull.head ≠ some sha := by
  rw [findPullByHeadSha, answer_bind_of_ok _ rfl] at h
  simp only [after_read] at h
  generalize forge.state.listPulls repo.fullName (some "open") = pulls at h ⊢
  induction pulls with
  | nil => exact List.forall_mem_nil _
  | cons first rest ih =>
    rw [firstHeadedAt, answer_bind_ok_iff] at h
    obtain ⟨headSha, headed, answered⟩ := h
    split at answered
    case isTrue => cases answered
    case isFalse apart =>
      intro pull mem
      cases mem with
      | head =>
        rw [answer_resolveRef.mp headed]
        exact fun same => apart (Option.some.inj same)
      | tail _ mem => exact ih answered pull mem

theorem answer_baseFailed {repo : Repo} {sha : String} :
    answer (baseFailed repo sha) forge = .ok true ↔
      forge.Armed .baseChecksFailed repo.fullName none ∧
        forge.tip repo.fullName repo.defaultBranch = some sha := by
  rw [baseFailed, findLever, answer_bind_of_ok _ rfl, after_read]
  split
  case isTrue armed =>
    rw [answer_map, ← answer_resolveRef]
    cases answer (resolveRef repo repo.defaultBranch) forge with
    | error e => simp [Except.map]
    | ok tip =>
      have armed : forge.Armed .baseChecksFailed repo.fullName none := armed
      simp [Except.map, armed, eq_comm]
  case isFalse unarmed =>
    simp [show ¬ forge.Armed .baseChecksFailed repo.fullName none from unarmed]

theorem red_iff_of_leads {repo : Repo} {sha : String} {pull : PullRequest}
    (leads : forge.Leads repo.fullName sha pull) :
    (∃ run, answer (derivedCheckRun repo sha) forge = .ok run ∧ run.Red) ↔
      (forge.Armed .checksFailed repo.fullName (some pull.number) ∨
        forge.Armed .checksStartupFailure repo.fullName (some pull.number)) ∨
      (forge.Armed .baseChecksFailed repo.fullName none ∧
        forge.tip repo.fullName repo.defaultBranch = some sha) := by
  have kept : Method.after (findPullByHeadSha repo sha) forge = forge := Keeps.keeps (f := id) forge
  rw [derivedCheckRun, answer_bind_of_ok _ (leads_iff.mpr leads), kept, answer_bind_of_ok _ rfl,
    after_read]
  dsimp only [Option.any_some]
  by_cases failed : (forge.levers.find .checksFailed (some repo.fullName)
    (some pull.number)).isSome = true
  · rw [if_pos failed]
    exact ⟨fun _ => .inl (.inl failed), fun _ => ⟨_, rfl, rfl, .inl rfl⟩⟩
  · rw [if_neg failed]
    by_cases started :
        (forge.levers.find .checksStartupFailure (some repo.fullName) (some pull.number)).isSome =
          true
    · rw [if_pos started]
      exact ⟨fun _ => .inl (.inr started), fun _ => ⟨_, rfl, rfl, .inr rfl⟩⟩
    · rw [if_neg started]
      simp only [answer_bind_ok_iff]
      constructor
      · rintro ⟨run, ⟨base, based, answered⟩, red⟩
        cases base with
        | true => exact .inr (answer_baseFailed.mp based)
        | false =>
          -- what is left is a pending run or a green one
          rw [if_neg Bool.false_ne_true] at answered
          split at answered
          all_goals
            cases answered
            simp [CheckRun.Red, syntheticCheckRun] at red
      · rintro (levers | base)
        · exact absurd levers (not_or.mpr ⟨failed, started⟩)
        · exact ⟨_, ⟨true, answer_baseFailed.mpr base, rfl⟩, rfl, .inl rfl⟩

theorem leads_of_derived {repo : Repo} {sha : String} {run : CheckRun}
    (derived : answer (derivedCheckRun repo sha) forge = .ok run)
    (headed : ∃ pull ∈ forge.state.listPulls repo.fullName (some "open"),
      forge.tip repo.fullName pull.head = some sha) :
    ∃ pull, forge.Leads repo.fullName sha pull := by
  obtain ⟨found, searched, _⟩ := answer_bind_ok derived
  cases found with
  | some pull => exact ⟨pull, leads_iff.mp searched⟩
  | none =>
    obtain ⟨pull, mem, here⟩ := headed
    exact absurd here (headless searched pull mem)

theorem answer_listCheckRuns {repo : Repo} {owner name ref sha : String} {runs : List CheckRun}
    (named : answer (getRepo owner name) forge = .ok repo)
    (tip : forge.tip repo.fullName ref = some sha) :
    answer (listCheckRuns owner name ref) forge = .ok runs ↔
      forge.checks.runs repo.fullName sha = some runs ∨
      (forge.checks.runs repo.fullName sha = none ∧
        ∃ run, answer (derivedCheckRun repo sha) forge = .ok run ∧ runs = [run]) := by
  have kept : Method.after (getRepo owner name) forge = forge := Keeps.keeps (f := id) forge
  have kept' : Method.after (resolveRef repo ref) forge = forge := Keeps.keeps (f := id) forge
  rw [listCheckRuns, answer_bind_of_ok _ named, kept,
    answer_bind_of_ok _ (answer_resolveRef.mpr tip), kept', answer_bind_of_ok _ rfl, after_read]
  cases forge.checks.runs repo.fullName sha with
  | some armed => simp
  | none =>
    dsimp only
    simp only [answer_bind_ok_iff, answer_pure, Except.ok.injEq]
    simp [eq_comm]

theorem redAt_iff {repo : Repo} {sha : String}
    (headed : ∃ pull ∈ forge.state.listPulls repo.fullName (some "open"),
      forge.tip repo.fullName pull.head = some sha) {ref : String}
    (tip : forge.tip repo.fullName ref = some sha)
    {owner name : String} (named : answer (getRepo owner name) forge = .ok repo) :
    (∃ runs, answer (listCheckRuns owner name ref) forge = .ok runs ∧ ∃ run ∈ runs, run.Red) ↔
      forge.RedAt repo sha := by
  simp only [answer_listCheckRuns named tip]
  constructor
  · rintro ⟨runs, armed | ⟨unarmed, run, derived, same⟩, other, mem, red⟩
    · exact .armed armed mem red
    · subst same
      rw [List.mem_singleton] at mem
      subst mem
      obtain ⟨pull, leads⟩ := leads_of_derived derived headed
      cases (red_iff_of_leads leads).mp ⟨_, derived, red⟩ with
      | inl lever => exact .pull unarmed leads lever
      | inr base => exact .base unarmed leads base.1 base.2
  · intro h
    have derives (unarmed : forge.checks.runs repo.fullName sha = none)
        (red : ∃ run, answer (derivedCheckRun repo sha) forge = .ok run ∧ run.Red) :
        ∃ runs, (forge.checks.runs repo.fullName sha = some runs ∨
          (forge.checks.runs repo.fullName sha = none ∧
            ∃ run, answer (derivedCheckRun repo sha) forge = .ok run ∧ runs = [run])) ∧
          ∃ run ∈ runs, run.Red := by
      obtain ⟨run, derived, red⟩ := red
      exact ⟨[run], .inr ⟨unarmed, run, derived, rfl⟩, run, List.mem_singleton_self run, red⟩
    cases h with
    | armed armed mem red => exact ⟨_, .inl armed, _, mem, red⟩
    | pull unarmed leads lever => exact derives unarmed ((red_iff_of_leads leads).mpr (.inl lever))
    | base unarmed leads lever tip =>
      exact derives unarmed ((red_iff_of_leads leads).mpr (.inr ⟨lever, tip⟩))

omit [GitHost] in
theorem answer_getRepo {owner name : String} {repo : Repo} :
    answer (getRepo owner name) forge = .ok repo ↔ forge.repo? owner name = some repo := by
  simp only [getRepo, answer_bind_ok_iff, answer_openRepo, answer_pure, Except.ok.injEq, repo?,
    Option.map_eq_some_iff]

omit [GitHost] in
theorem answer_requirePull {repo : Repo} {number : Nat} {pull : PullRequest} :
    answer (requirePull repo number) forge = .ok pull ↔
      forge.state.getPull repo.fullName number = some pull := by
  simp only [requirePull, answer_bind_ok_iff, answer_read, Except.ok.injEq,
    exists_eq_left', orRaise_ok]

theorem view_clean_iff {repo : Repo} {pull : PullRequest} :
    (∃ shown, answer (view repo pull) forge = .ok shown ∧ shown.mergeableState = .clean) ↔
      forge.Unhindered repo.fullName pull := by
  rw [← clean_iff]
  constructor
  · rintro ⟨shown, answered, clean⟩
    simp only [view, answer_bind_ok_iff] at answered
    obtain ⟨headSha, _, baseSha, _, ⟨mergeable, state⟩, ladder, made⟩ := answered
    cases made
    exact ⟨mergeable, clean ▸ ladder⟩
  · rintro ⟨mergeable, ladder⟩
    have h := clean_iff.mp ⟨mergeable, ladder⟩
    obtain ⟨base, head, based, headed, _⟩ := h.mergeable
    have viewed : answer (viewedHead repo pull) forge = .ok head := by
      simp only [viewedHead, h.opened]
      exact answer_resolveRef.mpr headed
    have viewed' : answer (viewedBase repo pull) forge = .ok base := by
      rw [viewedBase, answer_rescue, answer_resolveRef.mpr based]
    let shown : PullView :=
      { pull, headSha := head, baseSha := base, mergeable, mergeableState := .clean }
    refine ⟨shown, ?_, rfl⟩
    simp only [view, answer_bind_ok_iff]
    exact ⟨head, viewed, base, viewed', _, ladder, rfl⟩

theorem tip_of_view {repo : Repo} {pull : PullRequest} {shown : PullView}
    (h : answer (view repo pull) forge = .ok shown) (opened : pull.state = .opened) :
    forge.tip repo.fullName pull.head = some shown.headSha := by
  simp only [view, answer_bind_ok_iff] at h
  obtain ⟨headSha, viewed, _, _, _, _, made⟩ := h
  cases made
  simp only [viewedHead, opened] at viewed
  exact answer_resolveRef.mp viewed

/-- A clean pull has no red check at its head. -/
def Coherent (forge : ForgeService) (owner name : String) (number : Nat) : Prop :=
  ∀ view runs, answer (getPull owner name number) forge = .ok view → view.mergeableState = .clean →
    answer (listCheckRuns owner name view.pull.head) forge = .ok runs → ∀ run ∈ runs, ¬ run.Red

def MasksRed (forge : ForgeService) (owner name : String) (number : Nat) : Prop :=
  ∃ repo pull sha, forge.repo? owner name = some repo ∧
    forge.state.getPull repo.fullName number = some pull ∧ forge.Unhindered repo.fullName pull ∧
    forge.tip repo.fullName pull.head = some sha ∧ forge.RedAt repo sha

theorem coherent_iff {owner name : String} {number : Nat} :
    forge.Coherent owner name number ↔ ¬ forge.MasksRed owner name number := by
  -- the pull itself is open and headed at the commit, so the search for one does not come back empty
  have headed {repo : Repo} {pull : PullRequest} {sha : String}
      (found : forge.state.getPull repo.fullName number = some pull)
      (unhindered : forge.Unhindered repo.fullName pull)
      (tip : forge.tip repo.fullName pull.head = some sha) :
      ∃ other ∈ forge.state.listPulls repo.fullName (some "open"),
        forge.tip repo.fullName other.head = some sha := by
    have key := InMemoryForgeState.number_of_getPull found
    exact ⟨pull, InMemoryForgeState.mem_openPulls.mpr ⟨key.symm ▸ found, unhindered.opened⟩, tip⟩
  constructor
  · rintro coherent ⟨repo, pull, sha, named, found, unhindered, tip, red⟩
    have named := answer_getRepo.mpr named
    obtain ⟨runs, listed, run, mem, bad⟩ :=
      (redAt_iff (headed found unhindered tip) tip named).mpr red
    obtain ⟨shown, viewed, clean⟩ := view_clean_iff.mpr unhindered
    have got : answer (getPull owner name number) forge = .ok shown := by
      simp only [getPull, answer_bind_ok_iff]
      exact ⟨repo, named, pull, answer_requirePull.mpr found, viewed⟩
    rw [← pull_of_view viewed] at listed
    exact coherent shown runs got clean listed run mem bad
  · intro unmasked shown runs got clean listed run mem bad
    simp only [getPull, answer_bind_ok_iff] at got
    obtain ⟨repo, named, pull, held, viewed⟩ := got
    have found := answer_requirePull.mp held
    have unhindered := view_clean_iff.mp ⟨shown, viewed, clean⟩
    obtain ⟨_, sha, _, tip, _⟩ := unhindered.mergeable
    rw [pull_of_view viewed] at listed
    have red := (redAt_iff (headed found unhindered tip) tip named).mp ⟨runs, listed, run, mem, bad⟩
    exact unmasked ⟨repo, pull, sha, answer_getRepo.mp named, found, unhindered, tip, red⟩

omit [GitHost] in
theorem pairwise_openPulls (state : InMemoryForgeState) (full : String) :
    (state.listPulls full (some "open")).Pairwise (·.number < ·.number) := by
  have sorted : (state.sortedPulls full).Pairwise (·.number ≤ ·.number) :=
    List.pairwise_insertionSort _ _
  have distinct : (state.sortedPulls full).Pairwise (·.number ≠ ·.number) :=
    List.pairwise_map.mp (InMemoryForgeState.nodup_sortedPulls state full)
  exact ((sorted.and distinct).imp fun h => Nat.lt_of_le_of_ne h.1 h.2).filter _

/-- No open pull before this one is headed at its head's commit. -/
def FirstHeaded (forge : ForgeService) (full : String) (pull : PullRequest) : Prop :=
  ∀ other ∈ forge.state.listPulls full (some "open"), other.number < pull.number →
    forge.tip full other.head ≠ forge.tip full pull.head

theorem eq_of_leads {full sha : String} {pull leader : PullRequest}
    (first : forge.FirstHeaded full pull)
    (mem : pull ∈ forge.state.listPulls full (some "open"))
    (tip : forge.tip full pull.head = some sha) (leads : forge.Leads full sha leader) :
    leader = pull := by
  obtain ⟨before, rest, split, there, elsewhere⟩ := leads
  have ordered := pairwise_openPulls forge.state full
  have listed : leader ∈ forge.state.listPulls full (some "open") := by simp [split]
  rw [split] at mem ordered
  cases List.mem_append.mp mem with
  | inl early =>
    obtain ⟨other, headed, apart⟩ := elsewhere pull early
    exact absurd (Option.some.inj (headed.symm.trans tip)) apart
  | inr late =>
    cases late with
    | head => rfl
    | tail _ late =>
      have below := (List.pairwise_cons.mp (List.pairwise_append.mp ordered).2.1).1 pull late
      exact absurd (there.trans tip.symm) (first leader listed below)

theorem clean_red_iff {owner name : String} {number : Nat} {shown : PullView} {runs : List CheckRun}
    (got : answer (getPull owner name number) forge = .ok shown)
    (clean : shown.mergeableState = .clean)
    (listed : answer (listCheckRuns owner name shown.pull.head) forge = .ok runs)
    (first : forge.FirstHeaded (owner ++ "/" ++ name) shown.pull) :
    (∀ kind ∈ gates, ¬ forge.Armed kind (owner ++ "/" ++ name) (some number)) ∧
    ((∃ run ∈ runs, run.Red) ↔
      (∃ armed, forge.checks.runs (owner ++ "/" ++ name) shown.headSha = some armed ∧
        ∃ run ∈ armed, run.Red) ∨
      (forge.checks.runs (owner ++ "/" ++ name) shown.headSha = none ∧
        forge.Armed .baseChecksFailed (owner ++ "/" ++ name) none ∧
        ∃ repo, forge.repo? owner name = some repo ∧
          forge.tip (owner ++ "/" ++ name) repo.defaultBranch = some shown.headSha)) := by
  simp only [getPull, answer_bind_ok_iff] at got
  obtain ⟨repo, named, pull, held, viewed⟩ := got
  have found := answer_requirePull.mp held
  have key := InMemoryForgeState.number_of_getPull found
  have unhindered := view_clean_iff.mp ⟨shown, viewed, clean⟩
  have tip := tip_of_view viewed unhindered.opened
  rw [pull_of_view viewed] at listed first
  rw [← fullName_of_getRepo named] at first ⊢
  have mem := InMemoryForgeState.mem_openPulls.mpr ⟨key.symm ▸ found, unhindered.opened⟩
  refine ⟨key ▸ unhindered.free, ?_⟩
  constructor
  · intro red
    cases (redAt_iff ⟨pull, mem, tip⟩ tip named).mp ⟨runs, listed, red⟩ with
    | armed armed mem red => exact .inl ⟨_, armed, _, mem, red⟩
    | pull unarmed leads lever =>
      rw [eq_of_leads first mem tip leads] at lever
      cases lever with
      | inl failed => exact absurd failed (unhindered.free .checksFailed (by decide))
      | inr started => exact absurd started (unhindered.free .checksStartupFailure (by decide))
    | base unarmed leads lever tip =>
      exact .inr ⟨unarmed, lever, repo, answer_getRepo.mp named, tip⟩
  · rintro (⟨armed, held, run, mem, red⟩ | ⟨unarmed, lever, repo', named', base⟩)
    · cases (answer_listCheckRuns named tip).mp listed with
      | inl held' =>
        cases held.symm.trans held'
        exact ⟨run, mem, red⟩
      | inr none => cases held.symm.trans none.1
    · cases (answer_getRepo.mp named).symm.trans named'
      cases (answer_listCheckRuns named tip).mp listed with
      | inl held => cases unarmed.symm.trans held
      | inr derived =>
        obtain ⟨_, run, derived, same⟩ := derived
        obtain ⟨_, leads⟩ := leads_of_derived derived ⟨pull, mem, tip⟩
        obtain ⟨other, derived', red⟩ := (red_iff_of_leads leads).mpr (.inr ⟨lever, base⟩)
        cases derived.symm.trans derived'
        exact ⟨run, same ▸ List.mem_singleton_self run, red⟩

end Ladders

section

attribute [local instance] GitHost.plain

def armedHead : ForgeService :=
  Machine.after next
    [.createPull "octocat" "toy" "change" "" "feature" "main" "ann",
      .armLever .refChecks
        { repo := "octocat/toy", ref := "feature", checks := some [⟨"lint", "failed"⟩] }]
    toy

theorem armed_head_masks : ¬ armedHead.Coherent "octocat" "toy" 1 := by
  intro coherent
  have got : ∃ shown, answer (getPull "octocat" "toy" 1) armedHead = .ok shown ∧
      shown.mergeableState = .clean ∧ shown.pull.head = "feature" := ⟨_, rfl, rfl, rfl⟩
  have listed : ∃ runs run, answer (listCheckRuns "octocat" "toy" "feature") armedHead = .ok runs ∧
      run ∈ runs ∧ run.Red := ⟨_, _, rfl, List.mem_cons_self, rfl, .inl rfl⟩
  obtain ⟨shown, got, clean, head⟩ := got
  obtain ⟨runs, run, listed, mem, red⟩ := listed
  exact coherent shown runs got clean (head ▸ listed) run mem red

def redBase : ForgeService :=
  Machine.after next
    [.createPull "octocat" "toy" "change" "" "main" "old" "ann",
      .armLever .baseChecksFailed { repo := "octocat/toy" }] toy

theorem clean_red_of_base :
    (∀ kind ∈ gates, ¬ redBase.Armed kind "octocat/toy" (some 1)) ∧
    ((∃ run ∈ [syntheticCheckRun "m" "completed" (some "failure")], run.Red) ↔
      (∃ armed, redBase.checks.runs "octocat/toy" "m" = some armed ∧ ∃ run ∈ armed, run.Red) ∨
      (redBase.checks.runs "octocat/toy" "m" = none ∧
        redBase.Armed .baseChecksFailed "octocat/toy" none ∧
        ∃ repo, redBase.repo? "octocat" "toy" = some repo ∧
          redBase.tip "octocat/toy" repo.defaultBranch = some "m")) := by
  have got : ∃ shown, answer (getPull "octocat" "toy" 1) redBase = .ok shown ∧
      shown.mergeableState = .clean ∧ shown.pull.head = "main" ∧ shown.pull.number = 1 ∧
      shown.headSha = "m" := ⟨_, rfl, rfl, rfl, rfl, rfl⟩
  obtain ⟨shown, got, clean, head, number, sha⟩ := got
  have listed : answer (listCheckRuns "octocat" "toy" "main") redBase =
      .ok [syntheticCheckRun "m" "completed" (some "failure")] := rfl
  have first : redBase.FirstHeaded "octocat/toy" shown.pull := by
    intro other mem below
    have one : (redBase.state.listPulls "octocat/toy" (some "open")).map (·.number) = [1] := rfl
    have key : other.number ∈ [1] := one ▸ List.mem_map_of_mem mem
    rw [number, List.mem_singleton.mp key] at below
    exact absurd below (Nat.lt_irrefl 1)
  have red := clean_red_iff got clean (head ▸ listed) first
  rw [sha] at red
  exact red

end

end ForgeService

end BlizzardMock.Forge
