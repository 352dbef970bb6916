import BlizzardMock.Forge.CallLaws
import BlizzardMock.Forge.Tracker

namespace BlizzardMock.Forge

open Method

namespace World

def nextNumber (world : World) (full : String) : Nat := (world.state.repo full).nextNumber

structure Draws (world later : World) : Prop where
  next (full : String) : world.nextNumber full ≤ later.nextNumber full
  pulls (full : String) (number : Nat) : (later.getPull full number).isSome = true ↔
    (world.getPull full number).isSome = true ∨
      world.nextNumber full ≤ number ∧ number < later.nextNumber full

theorem Draws.of_state {world later : World} (same : later.state = world.state) :
    world.Draws later where
  next full := by simp [nextNumber, same]
  pulls full number := by
    have kept : later.getPull = world.getPull := congrArg InMemoryForgeState.getPull same
    have numbers : later.nextNumber full = world.nextNumber full := by simp only [nextNumber, same]
    rw [kept, numbers]
    constructor
    · exact .inl
    · rintro (found | below)
      · exact found
      · omega

instance : IsPreorder World Draws where
  refl _ := .of_state rfl
  trans _ mid _ first second := by
    refine ⟨fun full => (first.next full).trans (second.next full), fun full number => ?_⟩
    have lower := first.next full
    have upper := second.next full
    rw [second.pulls, first.pulls]
    constructor
    · rintro ((found | between) | between)
      · exact .inl found
      · exact .inr ⟨between.1, by omega⟩
      · exact .inr ⟨by omega, between.2⟩
    · rintro (found | between)
      · exact .inl (.inl found)
      · by_cases early : number < mid.nextNumber full
        · exact .inl (.inr ⟨between.1, early⟩)
        · exact .inr ⟨by omega, between.2⟩

theorem Draws.putPull {world : World} {full : String} {pull next : PullRequest}
    (found : world.getPull full pull.number = some pull) (same : next.number = pull.number) :
    world.Draws (world.putPull full next) := by
  have numbers (other : String) : (world.putPull full next).nextNumber other =
    world.nextNumber other := by
    simp only [nextNumber, World.putPull, InMemoryForgeState.repo_putPull]
    split
    case isTrue h => rw [h]
    case isFalse => rfl
  refine ⟨fun other => (numbers other).ge, fun other number => ?_⟩
  rw [numbers, getPull_putPull]
  split
  case isTrue h =>
    rw [h.1, h.2, same, found]
    simp
  case isFalse =>
    constructor
    · exact .inl
    · rintro (held | between)
      · exact held
      · omega

theorem Writes.draws {world later : World} (h : world.Writes later) : world.Draws later := by
  cases h with
  | shifted shift => exact .of_state shift.state
  | edited found edit =>
    refine .putPull found ?_
    cases edit <;> rfl
  | created number opened unmerged head base single =>
    rename_i full pull
    have numbers (other : String) :
        (World.mk world.git ((world.state.drawNumber full).putPull full pull)).nextNumber other =
          if other = full then world.nextNumber full + 1 else world.nextNumber other := by
      simp only [nextNumber, InMemoryForgeState.repo_putPull, InMemoryForgeState.repo_drawNumber]
      split <;> rfl
    refine ⟨fun other => ?_, fun other n => ?_⟩
    · rw [numbers]
      split
      case isTrue h => rw [h]; omega
      case isFalse => exact le_rfl
    · change (((world.state.drawNumber full).putPull full pull).getPull other n).isSome = true ↔ _
      rw [numbers, InMemoryForgeState.getPull_putPull,
        InMemoryForgeState.getPull_drawNumber, number]
      by_cases same : other = full
      · subst same
        by_cases drawn : n = world.nextNumber other
        · have here : n = (world.state.repo other).nextNumber := drawn
          simp [drawn, nextNumber]
        · have apart : ¬ (n = (world.state.repo other).nextNumber) := drawn
          simp only [apart, and_false, if_false, if_true]
          constructor
          · exact .inl
          · rintro (held | between)
            · exact held
            · omega
      · simp only [same, false_and, if_false]
        constructor
        · exact .inl
        · rintro (held | between)
          · exact held
          · omega

theorem Reaches.draws {world later : World} (h : world.Reaches later) : world.Draws later := by
  induction h with
  | refl => exact refl_of Draws world
  | tail _ write ih => exact trans_of Draws ih write.draws

theorem Calls.draws {world later : World} {op : Op} (h : world.Calls op later) :
    world.Draws later := by
  cases h with
  | reaches chain => exact Reaches.draws chain
  | reopens found head time =>
    have key := InMemoryForgeState.number_of_getPull found
    subst key
    refine .putPull found ?_
    simp only [PullRequest.reopened]
    split <;> rfl
  | erases chain git others clear =>
    rename_i owner name branch mid
    have erased : mid.Draws (mid.erase (owner ++ "/" ++ name) branch) := .of_state rfl
    exact trans_of Draws (Reaches.draws chain) erased

end World

namespace Tracker

def thread (tracker : Tracker) (full : String) (number : Nat) : List Comment :=
  match tracker.getIssue full number with
  | some issue => issue.comments
  | none => (tracker.threads full).pullComments.getD number []

def nextCommentId (tracker : Tracker) (full : String) : Nat := (tracker.threads full).nextCommentId

end Tracker

/-- What no call changes of an issue but its comments. -/
structure Issue.Stays (issue later : Issue) : Prop where
  number : later.number = issue.number
  title : later.title = issue.title
  body : later.body = issue.body
  user : later.user = issue.user
  createdAt : later.createdAt = issue.createdAt

def RepoThreads.drawId (threads : RepoThreads) : RepoThreads :=
  { threads with nextCommentId := threads.nextCommentId + 1 }

namespace Tracker

inductive Steps (tracker : Tracker) : Tracker → Prop
  | stays {later : Tracker} (draws : tracker.forge.world.Draws later.forge.world)
      (repos : later.repos = tracker.repos) : Steps tracker later
  | created {later : Tracker} {full : String} {issue : Issue}
      (number : issue.number = tracker.nextNumber full) (silent : issue.comments = [])
      (state : later.forge.state = tracker.forge.state.drawNumber full)
      (repos : later.repos = tracker.repos.set full ((tracker.threads full).putIssue issue)) :
      Steps tracker later
  | edited {later : Tracker} {full : String} {issue edit : Issue}
      (found : tracker.getIssue full issue.number = some issue) (stays : issue.Stays edit)
      (comments : edit.comments = issue.comments) (state : later.forge.state = tracker.forge.state)
      (repos : later.repos = tracker.repos.set full ((tracker.threads full).putIssue edit)) :
      Steps tracker later
  | answered {later : Tracker} {full : String} {issue : Issue} {comment : Comment}
      (found : tracker.getIssue full issue.number = some issue)
      (id : comment.id = tracker.nextCommentId full)
        (state : later.forge.state = tracker.forge.state)
      (repos : later.repos =
        tracker.repos.set full ((tracker.threads full).drawId.addIssueComment issue comment)) :
      Steps tracker later
  | reviewed {later : Tracker} {full : String} {number : Nat} {comment : Comment}
      (bare : tracker.getIssue full number = none)
        (pulled : (tracker.getPull full number).isSome = true)
      (id : comment.id = tracker.nextCommentId full)
        (state : later.forge.state = tracker.forge.state)
      (repos : later.repos =
        tracker.repos.set full ((tracker.threads full).drawId.addPullComment number comment)) :
      Steps tracker later
  | labelled {later : Tracker} {full : String} {label : Label}
      (state : later.forge.state = tracker.forge.state)
      (repos : later.repos = tracker.repos.set full ((tracker.threads full).putLabel label)) :
      Steps tracker later

theorem Steps.refl (tracker : Tracker) : tracker.Steps tracker := .stays (refl_of World.Draws _) rfl

section Calls

theorem after_onForge {α : Type} (m : ForgeM α) (tracker : Tracker) :
    Method.after (onForge m) tracker = { tracker with forge := Method.after m tracker.forge } := by
  simp only [Method.after, onForge, EStateM.run]
  cases m tracker.forge <;> rfl

instance {α : Type} (m : ForgeM α) [Keeps id m] : Keeps id (onForge m) where
  keeps tracker := by
    have kept : Method.after m tracker.forge = tracker.forge := Keeps.keeps (f := id) tracker.forge
    rw [after_onForge, kept]

instance (owner name : String) : Keeps id (getRepo owner name) := by
  unfold getRepo
  infer_instance

instance (repo : Repo) (number : Nat) : Keeps id (requireIssue repo number) := by
  simp only [requireIssue]
  infer_instance

theorem steps_bind {α β : Type} {m : TrackerM α} {g : α → TrackerM β} [Keeps id m]
    {tracker : Tracker}
    (next : ∀ a, answer m tracker = .ok a → tracker.Steps (Method.after (g a) tracker)) :
    tracker.Steps (Method.after (m >>= g) tracker) := by
  refine after_bind_of_keeps (f := id) (o := tracker) (P := tracker.Steps) rfl ?_ ?_
  · intro t same
    cases same
    exact .refl tracker
  · intro a t answered same
    cases same
    exact next a answered

theorem found_of_requireIssue {repo : Repo} {number : Nat} {tracker : Tracker} {issue : Issue}
    (h : answer (requireIssue repo number) tracker = .ok issue) :
    tracker.getIssue repo.fullName issue.number = some issue := by
  simp only [requireIssue] at h
  obtain ⟨held, read, raised⟩ := answer_bind_ok_iff.mp h
  cases read
  have found := orRaise_ok.mp raised
  rw [Table.key_of_get? found]
  exact found

theorem createIssue_steps (owner name title body user : String) (labels : List String)
    (tracker : Tracker) :
    tracker.Steps (Method.after (createIssue owner name title body user labels) tracker) := by
  simp only [createIssue]
  refine steps_bind fun repo _ => steps_bind fun _ _ => ?_
  rw [after_bind_of_ok (a := tracker.forge.clock.head) _ rfl, after_bind_of_ok _ rfl,
    after_bind_of_ok (a := ⟨⟩) _ rfl, after_bind_pure]
  exact .created rfl rfl rfl rfl

theorem run_newComment (full body user : String) (tracker : Tracker) :
    (newComment full body user).run tracker =
      .ok ⟨tracker.nextCommentId full, body, user, tracker.forge.clock.head,
        tracker.forge.clock.head⟩
        { forge := { tracker.forge with clock := tracker.forge.clock.tail },
          repos := tracker.repos.set full (tracker.threads full).drawId } := rfl

theorem repos_setThreads {full : String} {f : RepoThreads → RepoThreads} {threads : RepoThreads}
    {tracker later : Tracker} (repos : later.repos = tracker.repos.set full threads) :
    (Method.after (setThreads full f) later).repos = tracker.repos.set full (f threads) := by
  have held : later.threads full = threads := by rw [Tracker.threads, repos, Dict.getD_set_self]
  simp only [setThreads, Method.after_write, held, repos, Dict.set_set]

theorem createIssueComment_steps (owner name : String) (number : Nat) (body user : String)
    (tracker : Tracker) :
    tracker.Steps (Method.after (createIssueComment owner name number body user) tracker) := by
  simp only [createIssueComment]
  refine steps_bind fun repo _ => steps_bind fun issue held => steps_bind fun pull held' => ?_
  have found : tracker.getIssue repo.fullName number = issue := Except.ok.inj held
  have found' : tracker.getPull repo.fullName number = pull := Except.ok.inj held'
  refine steps_bind fun _ refused => ?_
  rw [after_bind_of_ok _ (answer_of_run_ok (run_newComment repo.fullName body user tracker)),
    after_of_run_ok (run_newComment repo.fullName body user tracker)]
  cases issue with
  | some issue =>
    rw [after_bind_pure]
    have key := Table.key_of_get? found
    exact .answered (key ▸ found) rfl rfl (repos_setThreads rfl)
  | none =>
    rw [after_bind_pure]
    have pulled : (tracker.getPull repo.fullName number).isSome = true := by
      rw [found', Option.isSome_iff_ne_none]
      simpa using refuseIf_ok.mp refused
    exact .reviewed found pulled rfl rfl (repos_setThreads rfl)

theorem addLabels_stays (issue : Issue) (labels : List String) :
    issue.Stays (addLabels issue labels) ∧ (addLabels issue labels).comments = issue.comments := by
  rw [addLabels]
  induction labels generalizing issue with
  | nil => exact ⟨⟨rfl, rfl, rfl, rfl, rfl⟩, rfl⟩
  | cons label rest ih =>
    rw [List.foldl_cons]
    split
    · exact ih issue
    · have later := ih { issue with labels := issue.labels ++ [label] }
      exact ⟨⟨later.1.number, later.1.title, later.1.body, later.1.user, later.1.createdAt⟩,
        later.2⟩

theorem addIssueLabels_steps (owner name : String) (number : Nat) (labels : List String)
    (tracker : Tracker) :
    tracker.Steps (Method.after (addIssueLabels owner name number labels) tracker) := by
  simp only [addIssueLabels]
  refine steps_bind fun repo _ => steps_bind fun issue held => ?_
  rw [after_bind_pure]
  have stays := addLabels_stays issue labels
  exact .edited (found_of_requireIssue held) stays.1 stays.2 rfl rfl

theorem setIssueState_steps (owner name : String) (number : Nat) (state : String)
    (stateReason : Option String) (tracker : Tracker) :
    tracker.Steps (Method.after (setIssueState owner name number state stateReason) tracker) := by
  simp only [setIssueState]
  refine steps_bind fun state _ => steps_bind fun repo _ => steps_bind fun issue held => ?_
  rw [after_bind_of_ok (a := tracker.forge.clock.head) _ rfl, after_bind_pure]
  let edit := { issue with state, stateReason, updatedAt := tracker.forge.clock.head }
  have stays : issue.Stays edit := ⟨rfl, rfl, rfl, rfl, rfl⟩
  exact .edited (found_of_requireIssue held) stays rfl rfl rfl

theorem createLabel_steps [Unicode] (owner name labelName : String) (tracker : Tracker) :
    tracker.Steps (Method.after (createLabel owner name labelName) tracker) := by
  simp only [createLabel]
  refine steps_bind fun repo _ => steps_bind fun _ _ => steps_bind fun _ _ => ?_
  rw [after_bind_pure]
  exact .labelled rfl rfl

theorem removeIssueLabel_steps [Unicode] (owner name : String) (number : Nat) (labelName : String)
    (tracker : Tracker) :
    tracker.Steps (Method.after (removeIssueLabel owner name number labelName) tracker) := by
  simp only [removeIssueLabel]
  refine steps_bind fun repo _ => steps_bind fun issue held => steps_bind fun _ _ => ?_
  rw [after_bind_pure]
  let edit := { issue with labels := issue.labels.erase labelName }
  have stays : issue.Stays edit := ⟨rfl, rfl, rfl, rfl, rfl⟩
  exact .edited (found_of_requireIssue held) stays rfl rfl rfl

theorem commentMidflight_steps [Unicode] (repo : Option String) (number : Option Nat)
    (body : Option String)
    (user : String) (tracker : Tracker) :
    tracker.Steps (Method.after (commentMidflight repo number body user) tracker) := by
  simp only [commentMidflight]
  refine steps_bind fun full _ => steps_bind fun number _ => steps_bind fun body _ => ?_
  refine steps_bind fun named _ => ?_
  rw [show ∀ m : TrackerM Comment, Method.after (discard m : TrackerM Unit) tracker =
    Method.after m tracker
    from fun m => after_map _ _ _]
  exact createIssueComment_steps _ _ _ _ _ _

variable [GitHost]

theorem armLever_steps (kind : LeverKind) (params : LeverParams) (body : Option String)
    (user : String)
    (tracker : Tracker) :
    tracker.Steps (Method.after (armLever kind params body user) tracker) := by
  rw [armLever]
  split
  · exact commentMidflight_steps params.repo params.number body user tracker
  · refine .stays ?_ ?_
    · rw [show ∀ m : TrackerM (Option Lever), Method.after (discard m : TrackerM Unit) tracker =
        Method.after m tracker from fun m => after_map _ _ _, after_onForge]
      exact World.Reaches.draws (ForgeService.armLever_reaches kind params tracker.forge)
    · rw [show ∀ m : TrackerM (Option Lever), Method.after (discard m : TrackerM Unit) tracker =
        Method.after m tracker from fun m => after_map _ _ _, after_onForge]

theorem next_steps (op : TrackerOp) (tracker : Tracker) : tracker.Steps (next op tracker) := by
  have discarded {α : Type} (m : TrackerM α) :
      Method.after (discard m : TrackerM Unit) tracker = Method.after m tracker := after_map _ _ _
  have called (op : Op) :
    tracker.Steps (Method.after (onForge (ForgeService.perform op)) tracker) := by
    rw [after_onForge]
    exact .stays (ForgeService.next_calls op tracker.forge).draws rfl
  rw [next]
  cases op with
  | call op =>
    cases op with
    | armLever kind params => exact armLever_steps kind params none "octocat" tracker
    | clearLever kind repo number branch pattern =>
      exact called (.clearLever kind repo number branch pattern)
    | clearAllLevers => exact called .clearAllLevers
    | _ => exact called _
  | armLever kind params body user => exact armLever_steps kind params body user tracker
  | createIssue owner name title body user labels =>
    rw [perform, discarded]
    exact createIssue_steps owner name title body user labels tracker
  | createIssueComment owner name number body user =>
    rw [perform, discarded]
    exact createIssueComment_steps owner name number body user tracker
  | createLabel owner name labelName =>
    rw [perform, discarded]
    exact createLabel_steps owner name labelName tracker
  | addIssueLabels owner name number labels =>
    rw [perform, discarded]
    exact addIssueLabels_steps owner name number labels tracker
  | removeIssueLabel owner name number labelName =>
    rw [perform, discarded]
    exact removeIssueLabel_steps owner name number labelName tracker
  | setIssueState owner name number state stateReason =>
    rw [perform, discarded]
    exact setIssueState_steps owner name number state stateReason tracker

end Calls

theorem threads_set (tracker later : Tracker) (full other : String) (threads : RepoThreads)
    (repos : later.repos = tracker.repos.set full threads) :
    later.threads other = if other = full then threads else tracker.threads other := by
  simp only [Tracker.threads, repos, Dict.getD, Dict.get?_set]
  split <;> rfl

structure Numbered (tracker : Tracker) : Prop where
  names (full : String) (number : Nat) :
    (1 ≤ number ∧ number < tracker.nextNumber full) ↔
      (tracker.getIssue full number).isSome = true ∨ (tracker.getPull full number).isSome = true
  apart (full : String) (number : Nat) (issue : (tracker.getIssue full number).isSome = true) :
    tracker.getPull full number = none
  next (full : String) : 1 ≤ tracker.nextNumber full

theorem numbered_fresh (git : GitBackend) (clock : Stream' Instant) (stamps : Stream' Nat) :
    (fresh git clock stamps).Numbered where
  names full number := by
    have one : (fresh git clock stamps).nextNumber full = 1 := rfl
    have issue : (fresh git clock stamps).getIssue full number = none := rfl
    have pull : (fresh git clock stamps).getPull full number = none := rfl
    simp [one, issue, pull]
    omega
  apart full number issue := rfl
  next full := le_rfl

theorem Numbered.of_same {tracker later : Tracker} (numbered : tracker.Numbered)
    (next : ∀ full, later.nextNumber full = tracker.nextNumber full)
    (issues : ∀ full number, (later.getIssue full number).isSome =
      (tracker.getIssue full number).isSome)
    (pulls : ∀ full number, later.getPull full number = tracker.getPull full number) :
    later.Numbered where
  names full number := by
    rw [next, issues, pulls]
    exact numbered.names full number
  apart full number issue := by
    rw [issues] at issue
    rw [pulls]
    exact numbered.apart full number issue
  next full := (next full).symm ▸ numbered.next full

section Steps

variable {tracker later : Tracker}

theorem getIssue_of_repos (repos : later.repos = tracker.repos) (full : String) (number : Nat) :
    later.getIssue full number = tracker.getIssue full number := by
  simp only [Tracker.getIssue, Tracker.threads, repos]

theorem getIssue_of_issues {full : String} {threads : RepoThreads}
    (repos : later.repos = tracker.repos.set full threads)
    (same : threads.issues = (tracker.threads full).issues) (other : String) (number : Nat) :
    later.getIssue other number = tracker.getIssue other number := by
  simp only [Tracker.getIssue, threads_set tracker later full other threads repos]
  split
  case isTrue h => rw [same, h]
  case isFalse => rfl

theorem getIssue_of_put {full : String} {threads : RepoThreads} {issue : Issue}
    (repos : later.repos = tracker.repos.set full threads)
    (put : threads.issues = (tracker.threads full).issues.put issue) (other : String)
    (number : Nat) :
    later.getIssue other number =
      if other = full ∧ number = issue.number then some issue
        else tracker.getIssue other number := by
  simp only [Tracker.getIssue, threads_set tracker later full other threads repos]
  by_cases same : other = full
  · simp [same, put, Table.get?_put]
  · simp [same]

theorem getPull_of_state (state : later.forge.state = tracker.forge.state) (full : String)
    (number : Nat) :
    later.getPull full number = tracker.getPull full number := by
  simp only [Tracker.getPull, state]

theorem nextNumber_of_state (state : later.forge.state = tracker.forge.state) (full : String) :
    later.nextNumber full = tracker.nextNumber full := by
  simp only [Tracker.nextNumber, state]

theorem isSome_getIssue_of_put {full : String} {threads : RepoThreads} {issue edit : Issue}
    (repos : later.repos = tracker.repos.set full threads)
    (put : threads.issues = (tracker.threads full).issues.put edit)
    (found : tracker.getIssue full issue.number = some issue) (same : edit.number = issue.number)
    (other : String) (number : Nat) :
    (later.getIssue other number).isSome = (tracker.getIssue other number).isSome := by
  rw [getIssue_of_put repos put]
  split
  case isTrue h => simp [h.1, h.2, same, found]
  case isFalse => rfl

theorem Numbered.drawn (numbered : tracker.Numbered)
    (draws : tracker.forge.world.Draws later.forge.world)
    (repos : later.repos = tracker.repos) : later.Numbered := by
  have next (full : String) : tracker.nextNumber full ≤ later.nextNumber full := draws.next full
  have pulls (full : String) (number : Nat) : (later.getPull full number).isSome = true ↔
      (tracker.getPull full number).isSome = true ∨
        tracker.nextNumber full ≤ number ∧ number < later.nextNumber full := draws.pulls full number
  refine ⟨fun full number => ?_, fun full number issue => ?_, fun full =>
    (numbered.next full).trans (next full)⟩
  · rw [getIssue_of_repos repos, pulls]
    have names := numbered.names full number
    have further := next full
    have first := numbered.next full
    constructor
    · intro below
      by_cases old : number < tracker.nextNumber full
      · exact (names.mp ⟨below.1, old⟩).imp_right .inl
      · exact .inr (.inr ⟨by omega, below.2⟩)
    · rintro (issue | pull | between)
      · have := names.mpr (.inl issue)
        omega
      · have := names.mpr (.inr pull)
        omega
      · omega
  · rw [getIssue_of_repos repos] at issue
    have bare := numbered.apart full number issue
    have old := (numbered.names full number).mpr (.inl issue)
    have none' : ¬ (later.getPull full number).isSome = true := by
      rw [pulls, bare]
      simp
      omega
    simpa using none'

theorem Steps.numbered (step : tracker.Steps later) (numbered : tracker.Numbered) :
    later.Numbered := by
  cases step with
  | stays draws repos => exact numbered.drawn draws repos
  | edited found stays comments state repos =>
    exact numbered.of_same (nextNumber_of_state state)
      (isSome_getIssue_of_put repos rfl found stays.number) (getPull_of_state state)
  | answered found id state repos =>
    exact numbered.of_same (nextNumber_of_state state) (isSome_getIssue_of_put repos rfl found rfl)
      (getPull_of_state state)
  | reviewed bare pulled id state repos =>
    exact numbered.of_same (nextNumber_of_state state)
      (fun other number => by rw [getIssue_of_issues repos rfl]) (getPull_of_state state)
  | labelled state repos =>
    exact numbered.of_same (nextNumber_of_state state)
      (fun other number => by rw [getIssue_of_issues repos rfl]) (getPull_of_state state)
  | created number silent state repos =>
    rename_i full issue
    have next (other : String) : later.nextNumber other =
        if other = full then tracker.nextNumber full + 1 else tracker.nextNumber other := by
      simp only [Tracker.nextNumber, state, InMemoryForgeState.repo_drawNumber]
      split <;> rfl
    have pulls (other : String) (n : Nat) : later.getPull other n = tracker.getPull other n := by
      simp only [Tracker.getPull, state, InMemoryForgeState.getPull_drawNumber]
    have issues (other : String) (n : Nat) : later.getIssue other n =
        if other = full ∧ n = issue.number then some issue else tracker.getIssue other n :=
      getIssue_of_put repos rfl other n
    have unnamed := (numbered.names full issue.number).not.mp (by omega)
    have first := numbered.next full
    refine ⟨fun other n => ?_, fun other n found => ?_, fun other => ?_⟩
    · have names := numbered.names other n
      rw [next, issues, pulls]
      by_cases same : other = full
      · subst same
        by_cases here : n = issue.number
        · simp [here]
          omega
        · simp only [here, and_false, if_false, if_true]
          rw [← names]
          omega
      · simp only [same, false_and, if_false]
        exact names
    · rw [issues] at found
      rw [pulls]
      split at found
      case isTrue h =>
        rw [h.1, h.2]
        simpa using (not_or.mp unnamed).2
      case isFalse => exact numbered.apart other n found
    · rw [next]
      split
      · omega
      · exact numbered.next other

end Steps

structure Lasts (tracker later : Tracker) : Prop where
  issues {full : String} {number : Nat} {issue : Issue}
    (found : tracker.getIssue full number = some issue) :
    ∃ now, later.getIssue full number = some now ∧ issue.Stays now
  pulls {full : String} {number : Nat} (found : (tracker.getPull full number).isSome = true) :
    (later.getPull full number).isSome = true

instance : IsPreorder Tracker Lasts where
  refl _ := ⟨fun found => ⟨_, found, ⟨rfl, rfl, rfl, rfl, rfl⟩⟩, id⟩
  trans _ _ _ first second := by
    refine ⟨fun found => ?_, fun found => second.pulls (first.pulls found)⟩
    obtain ⟨mid, held, stays⟩ := first.issues found
    obtain ⟨last, found', stays'⟩ := second.issues held
    exact ⟨last, found', ⟨stays'.number.trans stays.number, stays'.title.trans stays.title,
      stays'.body.trans stays.body, stays'.user.trans stays.user,
        stays'.createdAt.trans stays.createdAt⟩⟩

theorem lasts_of_put {tracker later : Tracker} {full : String} {threads : RepoThreads}
    {issue edit : Issue}
    (repos : later.repos = tracker.repos.set full threads)
    (put : threads.issues = (tracker.threads full).issues.put edit)
    (found : tracker.getIssue full issue.number = some issue) (stays : issue.Stays edit)
    (state : later.forge.state = tracker.forge.state) : tracker.Lasts later where
  issues {other number held} read := by
    rw [getIssue_of_put repos put]
    split
    case isTrue h =>
      rw [h.1, h.2, stays.number, found] at read
      cases read
      exact ⟨edit, rfl, stays⟩
    case isFalse => exact ⟨held, read, ⟨rfl, rfl, rfl, rfl, rfl⟩⟩
  pulls found := by rwa [getPull_of_state state]

theorem lasts_of_issues {tracker later : Tracker} {full : String} {threads : RepoThreads}
    (repos : later.repos = tracker.repos.set full threads)
    (same : threads.issues = (tracker.threads full).issues)
    (state : later.forge.state = tracker.forge.state) : tracker.Lasts later where
  issues {other number held} read := by
    rw [getIssue_of_issues repos same]
    exact ⟨held, read, ⟨rfl, rfl, rfl, rfl, rfl⟩⟩
  pulls found := by rwa [getPull_of_state state]

theorem Steps.lasts {tracker later : Tracker} (step : tracker.Steps later)
    (numbered : tracker.Numbered) :
    tracker.Lasts later := by
  cases step with
  | stays draws repos =>
    refine ⟨fun {full number issue} found =>
      ⟨issue, ?_, ⟨rfl, rfl, rfl, rfl, rfl⟩⟩, fun {full number} found => ?_⟩
    · rw [getIssue_of_repos repos, found]
    · exact (draws.pulls full number).mpr (.inl found)
  | edited found stays comments state repos => exact lasts_of_put repos rfl found stays state
  | answered found id state repos =>
    exact lasts_of_put repos rfl found ⟨rfl, rfl, rfl, rfl, rfl⟩ state
  | reviewed bare pulled id state repos => exact lasts_of_issues repos rfl state
  | labelled state repos => exact lasts_of_issues repos rfl state
  | created number silent state repos =>
    rename_i full issue
    have unnamed := (numbered.names full issue.number).not.mp (by omega)
    refine ⟨fun {other n held} found =>
      ⟨held, ?_, ⟨rfl, rfl, rfl, rfl, rfl⟩⟩, fun {other n} found => ?_⟩
    · rw [getIssue_of_put repos rfl, if_neg, found]
      rintro ⟨rfl, rfl⟩
      rw [found] at unnamed
      simp at unnamed
    · simp only [Tracker.getPull, state, InMemoryForgeState.getPull_drawNumber]
      exact found

theorem numbered_run {ops : List TrackerOp} {tracker : Tracker} [GitHost]
    (numbered : tracker.Numbered) :
    (Machine.after next ops tracker).Numbered :=
  Machine.invariant_always (fun op tracker numbered =>
    (next_steps op tracker).numbered numbered) ops numbered

theorem lasts_run [GitHost] {ops : List TrackerOp} {tracker : Tracker}
    (numbered : tracker.Numbered) :
    tracker.Lasts (Machine.after next ops tracker) :=
  Machine.related (C := fun _ _ => True) (I := Numbered) (R := Lasts) (refl_of _) (trans_of _)
    (fun op tracker numbered => (next_steps op tracker).numbered numbered)
    (fun op tracker numbered _ => (next_steps op tracker).lasts numbered) numbered
    (Machine.meets_of_mem (fun _ _ _ => trivial) _)

/-- Issues and pulls take their numbers from one count: after any run, those a repository lists are
together numbered from one up to the number it draws next, each number once, and what a number names
it names for good. -/
theorem numbers_hold [GitHost] (git : GitBackend) (clock : Stream' Instant) (stamps : Stream' Nat)
    (xs ys : List TrackerOp) (full : String) :
    let before := Machine.after next xs (fresh git clock stamps)
    let later := Machine.after next ys before
    (((later.threads full).listIssues (some "all") none).map (·.number) ++
        (later.forge.state.listPulls full (some "all")).map (·.number)).Perm
          (List.range' 1 (later.nextNumber full - 1)) ∧
      (∀ number issue, before.getIssue full number = some issue →
        ∃ now, later.getIssue full number = some now ∧ issue.Stays now) ∧
      ∀ number, (before.getPull full number).isSome = true →
        (later.getPull full number).isSome = true := by
  intro before later
  have numbered : before.Numbered := numbered_run (numbered_fresh git clock stamps)
  have numbered' : later.Numbered := numbered_run numbered
  have lasts : before.Lasts later := lasts_run numbered
  refine ⟨?_, fun number issue => lasts.issues, fun number => lasts.pulls⟩
  have issues : ((later.threads full).listIssues (some "all") none).map (·.number) =
      ((later.threads full).issues.rows.insertionSort fun i j => i.number ≤ j.number).map
        (·.number) := by
    simp [RepoThreads.listIssues]
  have pulls : later.forge.state.listPulls full (some "all") =
    later.forge.state.sortedPulls full := by
    simp [InMemoryForgeState.listPulls]
  rw [issues, pulls]
  have issueOf (number : Nat) :
      number ∈ ((later.threads full).issues.rows.insertionSort fun i j =>
        i.number ≤ j.number).map (·.number) ↔
        (later.getIssue full number).isSome = true := by
    simp only [List.mem_map, List.mem_insertionSort, Option.isSome_iff_exists]
    constructor
    · rintro ⟨issue, mem, rfl⟩
      exact ⟨issue, Table.mem_rows.mp mem⟩
    · rintro ⟨issue, found⟩
      have key := Table.key_of_get? found
      exact ⟨issue, Table.mem_rows.mpr (key ▸ found), key⟩
  have pullOf (number : Nat) : number ∈ (later.forge.state.sortedPulls full).map (·.number) ↔
      (later.getPull full number).isSome = true := by
    simp only [List.mem_map, InMemoryForgeState.mem_sortedPulls, Option.isSome_iff_exists]
    constructor
    · rintro ⟨pull, found, rfl⟩
      exact ⟨pull, found⟩
    · rintro ⟨pull, found⟩
      have key := InMemoryForgeState.number_of_getPull found
      exact ⟨pull, key ▸ found, key⟩
  have once : (((later.threads full).issues.rows.insertionSort fun i j => i.number ≤ j.number).map
      (·.number)).Nodup :=
    ((List.perm_insertionSort _ _).map Issue.number).nodup_iff.mpr
      (later.threads full).issues.nodup_rows
  refine (List.perm_ext_iff_of_nodup ?_ List.nodup_range').mpr fun number => ?_
  · refine List.nodup_append'.mpr ⟨once, later.forge.state.nodup_sortedPulls full, ?_⟩
    intro number issue pull
    have bare := numbered'.apart full number ((issueOf number).mp issue)
    have found := (pullOf number).mp pull
    rw [bare] at found
    cases found
  · rw [List.mem_append, issueOf, pullOf, ← numbered'.names, List.mem_range'_1]
    have first := numbered'.next full
    omega

end Tracker

end BlizzardMock.Forge
