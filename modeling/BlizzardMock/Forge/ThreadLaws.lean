import BlizzardMock.Forge.TrackerLaws

namespace BlizzardMock.Forge.Tracker

open Method

def Silent (tracker : Tracker) : Prop :=
  ∀ full number, tracker.getPull full number = none →
    (tracker.threads full).pullComments.getD number [] = []

/-- A write leaves every thread as it is, or ends one with a comment of the id drawn next. -/
inductive Tells (tracker later : Tracker) : Prop
  | same (next : ∀ full, later.nextCommentId full = tracker.nextCommentId full)
      (threads : ∀ full number, later.thread full number = tracker.thread full number)
  | ends (full : String) (number : Nat) (comment : Comment)
      (id : comment.id = tracker.nextCommentId full)
      (next : ∀ other, later.nextCommentId other =
        if other = full then tracker.nextCommentId full + 1 else tracker.nextCommentId other)
      (threads : ∀ other n, later.thread other n =
        if other = full ∧ n = number then tracker.thread full number ++ [comment]
        else tracker.thread other n)

section Steps

variable {tracker later : Tracker}

theorem nextCommentId_set {full : String} {threads : RepoThreads}
    (repos : later.repos = tracker.repos.set full threads) (other : String) :
    later.nextCommentId other =
      if other = full then threads.nextCommentId else tracker.nextCommentId other := by
  simp only [Tracker.nextCommentId, threads_set tracker later full other threads repos]
  split <;> rfl

theorem pullComments_set {full : String} {threads : RepoThreads}
    (repos : later.repos = tracker.repos.set full threads) (other : String) :
    (later.threads other).pullComments =
      if other = full then threads.pullComments else (tracker.threads other).pullComments := by
  rw [threads_set tracker later full other threads repos]
  split <;> rfl

theorem thread_of_put {full : String} {threads : RepoThreads} {issue : Issue}
    (repos : later.repos = tracker.repos.set full threads)
    (put : threads.issues = (tracker.threads full).issues.put issue)
    (reviews : threads.pullComments = (tracker.threads full).pullComments) (other : String)
    (number : Nat) :
    later.thread other number =
      if other = full ∧ number = issue.number then issue.comments
        else tracker.thread other number := by
  simp only [Tracker.thread, getIssue_of_put repos put, pullComments_set repos]
  by_cases same : other = full
  · by_cases here : number = issue.number
    · simp [same, here]
    · simp [same, here, reviews]
  · simp [same]

theorem Silent.of_kept (silent : tracker.Silent)
    (pulls : ∀ full number, later.getPull full number = none → tracker.getPull full number = none)
    (reviews : ∀ full number, tracker.getPull full number = none →
      (later.threads full).pullComments.getD number [] =
        (tracker.threads full).pullComments.getD number []) :
    later.Silent := by
  intro full number bare
  have before := pulls full number bare
  rw [reviews full number before]
  exact silent full number before

theorem pullComments_of_kept {full : String} {threads : RepoThreads}
    (repos : later.repos = tracker.repos.set full threads)
    (reviews : threads.pullComments = (tracker.threads full).pullComments) (other : String) :
    (later.threads other).pullComments = (tracker.threads other).pullComments := by
  rw [pullComments_set repos]
  split
  case isTrue h => rw [h, reviews]
  case isFalse => rfl

theorem Steps.silent (step : tracker.Steps later) (silent : tracker.Silent) : later.Silent := by
  have stateKeeps (state : later.forge.state = tracker.forge.state) (full : String) (number : Nat)
      (bare : later.getPull full number = none) : tracker.getPull full number = none := by
    rwa [getPull_of_state state] at bare
  cases step with
  | stays draws repos =>
    refine silent.of_kept (fun full number bare => ?_) fun full number _ => ?_
    · have gone : ¬ (later.forge.world.getPull full number).isSome = true := by
        rw [show later.forge.world.getPull full number = none from bare]
        simp
      exact Option.not_isSome_iff_eq_none.mp (not_or.mp ((draws.pulls full number).not.mp gone)).1
    · rw [Tracker.threads, repos]
      rfl
  | created number quiet state repos =>
    refine silent.of_kept (fun full n bare => ?_)
      fun full n _ => by rw [pullComments_of_kept repos rfl]
    simp only [Tracker.getPull, state, InMemoryForgeState.getPull_drawNumber] at bare
    exact bare
  | edited found stays comments state repos =>
    exact silent.of_kept (stateKeeps state) fun full n _ => by rw [pullComments_of_kept repos rfl]
  | answered found id state repos =>
    exact silent.of_kept (stateKeeps state) fun full n _ => by rw [pullComments_of_kept repos rfl]
  | labelled state repos =>
    exact silent.of_kept (stateKeeps state) fun full n _ => by rw [pullComments_of_kept repos rfl]
  | reviewed bare pulled id state repos =>
    rename_i full number comment
    refine silent.of_kept (stateKeeps state) fun other n unpulled => ?_
    rw [pullComments_set repos]
    split
    case isTrue same =>
      subst same
      have apart : n ≠ number := by
        rintro rfl
        rw [unpulled] at pulled
        cases pulled
      exact Dict.getD_set_of_ne apart _ _ _
    case isFalse => rfl

theorem Steps.tells (step : tracker.Steps later) (numbered : tracker.Numbered)
    (silent : tracker.Silent) :
    tracker.Tells later := by
  cases step with
  | stays draws repos =>
    refine .same (fun full => ?_) fun full number => ?_
    · simp only [Tracker.nextCommentId, Tracker.threads, repos]
    · simp only [Tracker.thread, getIssue_of_repos repos, Tracker.threads, repos]
  | created number quiet state repos =>
    rename_i full issue
    refine .same (fun other => ?_) fun other n => ?_
    · rw [nextCommentId_set repos]
      split
      case isTrue h => rw [h]; rfl
      case isFalse => rfl
    · rw [thread_of_put repos rfl rfl]
      split
      case isTrue h =>
        -- nothing was filed under the number that is drawn
        have unnamed := not_or.mp ((numbered.names full issue.number).not.mp (by omega))
        have bare : tracker.getIssue full issue.number = none := by simpa using unnamed.1
        have unpulled : tracker.getPull full issue.number = none := by simpa using unnamed.2
        rw [h.1, h.2, quiet, Tracker.thread, bare]
        exact (silent full _ unpulled).symm
      case isFalse => rfl
  | edited found stays comments state repos =>
    rename_i full issue edit
    refine .same (fun other => ?_) fun other n => ?_
    · rw [nextCommentId_set repos]
      split
      case isTrue h => rw [h]; rfl
      case isFalse => rfl
    · rw [thread_of_put repos rfl rfl]
      split
      case isTrue h =>
        rw [h.1, h.2, stays.number, Tracker.thread, found]
        exact comments
      case isFalse => rfl
  | answered found id state repos =>
    rename_i full issue comment
    refine .ends full issue.number comment id (fun other => ?_) fun other n => ?_
    · rw [nextCommentId_set repos]
      rfl
    · rw [thread_of_put repos rfl rfl]
      split
      · rw [Tracker.thread, found]
      · rfl
  | reviewed bare pulled id state repos =>
    rename_i full number comment
    refine .ends full number comment id (fun other => ?_) fun other n => ?_
    · rw [nextCommentId_set repos]
      rfl
    · simp only [Tracker.thread, getIssue_of_issues repos rfl, pullComments_set repos]
      by_cases same : other = full
      · subst same
        by_cases here : n = number
        · subst here
          simp [bare, RepoThreads.addPullComment, RepoThreads.drawId]
        · simp [here, RepoThreads.addPullComment, RepoThreads.drawId, Dict.getD_set_of_ne here]
      · simp [same]
  | labelled state repos =>
    refine .same (fun other => ?_) fun other n => ?_
    · rw [nextCommentId_set repos]
      split
      case isTrue h => rw [h]; rfl
      case isFalse => rfl
    · simp only [Tracker.thread, getIssue_of_issues repos rfl, pullComments_of_kept repos rfl]

def ids (tracker : Tracker) (full : String) (number : Nat) : List Nat :=
  (tracker.thread full number).map (·.id)

structure Threaded (tracker : Tracker) : Prop where
  next (full : String) : 1 ≤ tracker.nextCommentId full
  filed (full : String) (id : Nat) :
    (1 ≤ id ∧ id < tracker.nextCommentId full) ↔ ∃ number, id ∈ tracker.ids full number
  single {full : String} {id number other : Nat} (here : id ∈ tracker.ids full number)
    (there : id ∈ tracker.ids full other) : number = other
  ordered (full : String) (number : Nat) : (tracker.ids full number).Pairwise (· < ·)

theorem threaded_fresh (git : GitBackend) (clock : Stream' Instant) (stamps : Stream' Nat) :
    (fresh git clock stamps).Threaded where
  next full := le_rfl
  filed full id := by
    have one : (fresh git clock stamps).nextCommentId full = 1 := rfl
    have none' (number : Nat) : (fresh git clock stamps).ids full number = [] := rfl
    simp [one, none']
    omega
  single here := by cases here
  ordered full number := .nil

theorem Threaded.filed_lt (threaded : tracker.Threaded) {full : String} {id number : Nat}
    (mem : id ∈ tracker.ids full number) : id < tracker.nextCommentId full :=
  ((threaded.filed full id).mpr ⟨number, mem⟩).2

theorem Threaded.congr (threaded : tracker.Threaded)
    (next : ∀ full, later.nextCommentId full = tracker.nextCommentId full)
    (threads : ∀ full number, later.thread full number = tracker.thread full number) :
    later.Threaded := by
  have same (full : String) (number : Nat) : later.ids full number = tracker.ids full number := by
    rw [ids, threads, ids]
  refine ⟨fun full => ?_, fun full id => ?_, fun {full id n m} here there =>
    ?_, fun full number => ?_⟩
  · rw [next]
    exact threaded.next full
  · simp only [next, same]
    exact threaded.filed full id
  · rw [same] at here there
    exact threaded.single here there
  · rw [same]
    exact threaded.ordered full number

section Grown

/-! A thread grew by the id drawn next. -/

variable {full : String} {number : Nat}
  (grown : ∀ other n, later.ids other n =
    if other = full ∧ n = number then tracker.ids full number ++ [tracker.nextCommentId full]
    else tracker.ids other n)

include grown

theorem mem_ids_grown {other : String} {n i : Nat} : i ∈ later.ids other n ↔
    i ∈ tracker.ids other n ∨ (other = full ∧ n = number ∧ i = tracker.nextCommentId full) := by
  rw [grown]
  split
  case isTrue h =>
    obtain ⟨rfl, rfl⟩ := h
    simp
  case isFalse h =>
    refine (or_iff_left fun new => ?_).symm
    exact h ⟨new.1, new.2.1⟩

variable (next : ∀ other, later.nextCommentId other =
    if other = full then tracker.nextCommentId full + 1 else tracker.nextCommentId other)
  (threaded : tracker.Threaded)

include threaded

theorem Threaded.single_grown {other : String} {i n m : Nat} (here : i ∈ later.ids other n)
    (there : i ∈ later.ids other m) : n = m := by
  rcases (mem_ids_grown grown).mp here with old | ⟨same, at', last⟩
  · rcases (mem_ids_grown grown).mp there with old' | ⟨same, at', last⟩
    · exact threaded.single old old'
    · have := threaded.filed_lt old
      rw [same] at this
      omega
  · rcases (mem_ids_grown grown).mp there with old' | ⟨_, at'', _⟩
    · have := threaded.filed_lt old'
      rw [same] at this
      omega
    · rw [at', at'']

theorem Threaded.ordered_grown (other : String) (n : Nat) :
    (later.ids other n).Pairwise (· < ·) := by
  rw [grown]
  split
  · refine List.pairwise_append.mpr ⟨threaded.ordered full number, List.pairwise_singleton _ _, ?_⟩
    intro i mem j last
    rw [List.mem_singleton.mp last]
    exact threaded.filed_lt mem
  · exact threaded.ordered other n

include next

theorem Threaded.filed_grown (other : String) (i : Nat) :
    (1 ≤ i ∧ i < later.nextCommentId other) ↔ ∃ n, i ∈ later.ids other n := by
  simp only [mem_ids_grown grown, exists_or, ← threaded.filed other i, next]
  have first := threaded.next full
  by_cases same : other = full
  · subst same
    simp only [if_true, true_and, exists_eq_left]
    omega
  · simp only [same, if_false, false_and, exists_const, or_false]

end Grown

theorem Tells.threaded (tells : tracker.Tells later) (threaded : tracker.Threaded) :
    later.Threaded := by
  cases tells with
  | same next threads => exact threaded.congr next threads
  | ends full number comment id next threads =>
    have grown (other : String) (n : Nat) : later.ids other n =
        if other = full ∧ n = number then tracker.ids full number ++ [tracker.nextCommentId full]
        else tracker.ids other n := by
      rw [ids, threads]
      split
      · rw [List.map_append, List.map_singleton, id, ids]
      · rfl
    refine ⟨fun other => ?_, threaded.filed_grown grown next, threaded.single_grown grown,
      threaded.ordered_grown grown⟩
    rw [next]
    split
    · omega
    · exact threaded.next other

/-- Every thread of one tracker begins that of another. -/
def Grows (tracker later : Tracker) : Prop :=
  ∀ full number, tracker.thread full number <+: later.thread full number

instance : IsPreorder Tracker Grows where
  refl _ _ _ := List.prefix_refl _
  trans _ _ _ first second full number := (first full number).trans (second full number)

theorem Tells.grows (tells : tracker.Tells later) : tracker.Grows later := by
  intro full number
  cases tells with
  | same next threads => simp [threads]
  | ends other n comment id next threads =>
    rw [threads]
    split
    case isTrue h =>
      rw [h.1, h.2]
      exact List.prefix_append _ _
    case isFalse => exact List.prefix_refl _

end Steps

section Runs

/-- What the calls keep of a tracker: its numbers, its ids, and that nothing is filed under no name.
-/
structure Sound (tracker : Tracker) : Prop where
  numbered : tracker.Numbered
  silent : tracker.Silent
  threaded : tracker.Threaded

theorem sound_fresh (git : GitBackend) (clock : Stream' Instant) (stamps : Stream' Nat) :
    (fresh git clock stamps).Sound :=
  ⟨numbered_fresh git clock stamps, fun _ _ _ => rfl, threaded_fresh git clock stamps⟩

variable [GitHost]

theorem next_sound (op : TrackerOp) {tracker : Tracker} (sound : tracker.Sound) :
    (next op tracker).Sound :=
  have step := next_steps op tracker
  ⟨step.numbered sound.numbered, step.silent sound.silent,
    (step.tells sound.numbered sound.silent).threaded sound.threaded⟩

/-- Comments are neither lost nor moved nor changed: each thread begins every later one of its
number, and the ids a repository drew, from one on, are each that of one comment of one thread, in
rising order. -/
theorem comments_hold (git : GitBackend) (clock : Stream' Instant) (stamps : Stream' Nat)
    (xs ys : List TrackerOp) (full : String) :
    let before := Machine.after next xs (fresh git clock stamps)
    let later := Machine.after next ys before
    (∀ number, before.thread full number <+: later.thread full number) ∧
      (∀ id, (1 ≤ id ∧ id < later.nextCommentId full) ↔ ∃! number, id ∈ later.ids full number) ∧
      ∀ number, (later.ids full number).Pairwise (· < ·) := by
  intro before later
  have sound : before.Sound :=
    Machine.invariant_always (fun op _ sound => next_sound op sound) xs
      (sound_fresh git clock stamps)
  have sound' : later.Sound :=
    Machine.invariant_always (fun op _ sound => next_sound op sound) ys sound
  have grows : before.Grows later :=
    Machine.related (C := fun _ _ => True) (I := Sound) (R := Grows) (refl_of _) (trans_of _)
      (fun op _ sound => next_sound op sound)
      (fun op tracker sound _ =>
        ((next_steps op tracker).tells sound.numbered sound.silent).grows) sound
      (Machine.meets_of_mem (fun _ _ _ => trivial) _)
  refine ⟨grows full, fun id => ?_, sound'.threaded.ordered full⟩
  rw [sound'.threaded.filed]
  constructor
  · rintro ⟨number, mem⟩
    exact ⟨number, mem, fun other mem' => sound'.threaded.single mem' mem⟩
  · rintro ⟨number, mem, _⟩
    exact ⟨number, mem⟩

end Runs

end BlizzardMock.Forge.Tracker
