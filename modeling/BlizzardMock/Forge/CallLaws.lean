import BlizzardMock.Forge.WriteLaws

namespace BlizzardMock.Forge

open Method

def PullRequest.reopened (pull : PullRequest) (time : Instant) : PullRequest :=
  if pull.merged then { pull with state := .opened, updatedAt := time }
  else { pull with closedHeadSha := none, closedBaseSha := none, state := .opened, updatedAt := time }

namespace World

def erase (world : World) (full branch : String) : World :=
  { world with git := world.git.setBranches full (·.erase branch) }

inductive Calls (world : World) : Op → World → Prop
  | reaches {op : Op} {later : World} (chain : world.Reaches later) : Calls world op later
  | reopens {owner name : String} {number : Nat} {pull : PullRequest}
      (found : world.getPull (owner ++ "/" ++ name) number = some pull)
      (head : pull.merged = false → world.Stands (owner ++ "/" ++ name) pull.head)
        (time : Instant) :
      Calls world (.setPullState owner name number .opened)
        (world.putPull (owner ++ "/" ++ name) (pull.reopened time))
  | erases {owner name branch : String} {mid : World} (chain : world.Reaches mid)
      (git : mid.git = world.git)
      (others : ∀ other number, other ≠ owner ++ "/" ++ name →
        mid.getPull other number = world.getPull other number)
      (clear : ∀ pull, mid.getPull (owner ++ "/" ++ name) pull.number = some pull →
        pull.state = .opened → ¬ pull.On branch) :
      Calls world (.deleteRef owner name branch) (mid.erase (owner ++ "/" ++ name) branch)

end World

theorem World.Shifts.getPull {world later : World} (h : world.Shifts later) :
    later.getPull = world.getPull :=
  congrArg InMemoryForgeState.getPull h.state

namespace ForgeService

open World

theorem reaches_bind {α β : Type} {m : ForgeM α} {g : α → ForgeM β} [Keeps world m]
    {forge origin : ForgeService} (same : forge.world = origin.world)
    (next : ∀ a (t : ForgeService), answer m forge = .ok a → t.world = origin.world →
      origin.world.Reaches (Method.after (g a) t).world) :
    origin.world.Reaches (Method.after (m >>= g) forge).world :=
  after_bind_of_keeps (f := world) (P := fun t => origin.world.Reaches t.world) same
    (fun _ kept => kept ▸ .refl) next

theorem reaches_of_follows {α : Type} (m : ForgeM α) [h : Follows Shifts m] (forge : ForgeService) :
    forge.world.Reaches (Method.after m forge).world :=
  .single (.shifted (h.follows forge))

theorem reaches_shifted {α β : Type} {m : ForgeM α} {g : α → ForgeM β} [h : Follows Shifts m]
    {forge : ForgeService}
    (next : ∀ a (t : ForgeService), forge.world.Shifts t.world →
      t.world.Reaches (Method.after (g a) t).world) :
    forge.world.Reaches (Method.after (m >>= g) forge).world := by
  rw [after_bind]
  have shift : forge.world.Shifts (Method.after m forge).world := h.follows forge
  cases answer m forge with
  | error e => exact .single (.shifted shift)
  | ok a => exact .head (.shifted shift) (next a _ shift)

theorem world_putPull (repo : Repo) (pull : PullRequest) (forge : ForgeService) :
    (Method.after (putPull repo pull) forge).world = forge.world.putPull repo.fullName pull := rfl

theorem world_created (repo : Repo) (pull : PullRequest) (forge : ForgeService) :
    (Method.after (putPull repo pull)
      (Method.after (setState (·.drawNumber repo.fullName)) forge)).world =
        { forge.world with
          state := (forge.world.state.drawNumber repo.fullName).putPull repo.fullName pull } := rfl

theorem reaches_edit {repo : Repo} {pull next : PullRequest} {forge origin : ForgeService}
    (same : forge.world = origin.world)
    (found : origin.world.getPull repo.fullName pull.number = some pull) (edit : pull.Edit next) :
    origin.world.Reaches (Method.after (putPull repo next) forge).world := by
  rw [world_putPull, same]
  exact .single (.edited found edit)

theorem recordMerge_reaches {repo : Repo} {pull : PullRequest} {forge : ForgeService}
    (found : forge.world.getPull repo.fullName pull.number = some pull)
    (unmerged : pull.merged = false) (sha mergedBy headSha : String) :
    forge.world.Reaches
      (Method.after (recordMerge repo pull sha mergedBy headSha) forge).world := by
  simp only [recordMerge]
  apply reaches_bind rfl
  intro time t _ same
  exact reaches_edit same found (.merges unmerged time mergedBy sha headSha)

section Calls

variable [GitHost]

theorem mergePull_reaches (owner name : String) (number : Nat) (method : MergeMethod)
    (message sha : Option String) (user : String) (forge : ForgeService) :
    forge.world.Reaches
      (Method.after (mergePull owner name number method message sha user) forge).world := by
  simp only [mergePull]
  apply reaches_bind rfl
  intro repo t _ same
  apply reaches_bind same
  intro pull t held same'
  obtain ⟨key, found⟩ := found_of_requirePull held
  rw [same, ← key] at found
  apply reaches_bind same'
  intro _ t refused same
  have unmerged : pull.merged = false :=
    Bool.eq_false_of_not_eq_true (not_or.mp (refuseIf_ok.mp refused)).1
  -- the levers, the head and the guard on its sha
  iterate 8
    apply reaches_bind same
    intro _ t _ same
  rw [← same] at found ⊢
  apply reaches_shifted
  intro newSha u shift
  rw [after_bind_pure]
  exact recordMerge_reaches (shift.getPull ▸ found) unmerged newSha user _

theorem externalMerge_reaches (params : LeverParams) (forge : ForgeService) :
    forge.world.Reaches (Method.after (externalMerge params) forge).world := by
  rw [externalMerge]
  apply reaches_bind rfl
  intro full t _ same
  apply reaches_bind same
  intro number t _ same
  apply reaches_bind same
  intro named t _ same
  apply reaches_bind same
  intro repo t _ same
  apply reaches_bind same
  intro pull t held same'
  obtain ⟨key, found⟩ := found_of_requirePull held
  rw [same, ← key] at found
  dsimp only
  split
  case isTrue => exact same' ▸ .refl
  case isFalse unmerged =>
    apply reaches_bind same'
    intro headSha t _ same
    rw [← same] at found ⊢
    apply reaches_shifted
    intro newSha u shift
    exact recordMerge_reaches (shift.getPull ▸ found) (Bool.eq_false_of_not_eq_true unmerged)
      newSha "external" headSha

theorem createPull_reaches (owner name title body head base user : String) (forge : ForgeService) :
    forge.world.Reaches
      (Method.after (createPull owner name title body head base user) forge).world := by
  simp only [createPull]
  apply reaches_bind rfl
  intro repo t _ same
  apply reaches_bind same
  intro _ t _ same
  apply reaches_bind same
  intro headThere u answered kept
  have headStands := stands_of_branchExists answered
  rw [same] at headStands
  apply reaches_bind kept
  intro _ t refused same
  have headStood := headStands.mp (Bool.eq_true_of_not_eq_false (refuseIf_ok.mp refused))
  apply reaches_bind same
  intro baseThere u answered kept
  have baseStands := stands_of_branchExists answered
  rw [same] at baseStands
  apply reaches_bind kept
  intro _ t refused same
  have baseStood := baseStands.mp (Bool.eq_true_of_not_eq_false (refuseIf_ok.mp refused))
  apply reaches_bind same
  intro state u held kept
  have stored : state = forge.world.state := by
    cases held
    exact congrArg World.state same
  subst stored
  apply reaches_bind kept
  intro _ v refused kept
  have single := refuseIf_ok.mp refused
  apply reaches_bind kept
  intro time v _ kept
  rw [after_bind_of_ok _ rfl, after_bind_of_ok _ rfl, Keeps.keeps (f := world)]
  rw [world_created, kept]
  refine .single (.created rfl rfl rfl headStood baseStood ?_)
  intro other proposed
  exact single ⟨other, InMemoryForgeState.mem_openPulls.mpr ⟨proposed.1, proposed.2.1⟩,
    proposed.2.2⟩

set_option synthInstance.maxSize 2000

instance (owner name : String) (number : Nat) (expected : Option String) :
    Follows Shifts (updateBranch owner name number expected) := by
  simp only [updateBranch]
  infer_instance

instance (owner name base head : String) (message : Option String) :
    Follows Shifts (mergeBranches owner name base head message) := by
  simp only [mergeBranches]
  infer_instance

instance (owner name ref sha : String) (force : Bool) :
    Follows Shifts (updateRefTo owner name ref sha force) := by
  simp only [updateRefTo]
  infer_instance

instance (owner name ref sha : String) : Follows Shifts (createRef owner name ref sha) := by
  simp only [createRef]
  infer_instance

instance (params : LeverParams) : Follows Shifts (refChecks params) := by
  simp only [refChecks]
  infer_instance

def pinnedAt (pull : PullRequest) (shas : String × String) : PullRequest :=
  { pull with closedHeadSha := some shas.1, closedBaseSha := some shas.2 }

def Pins (origin : World) (repo : Repo) (pull : PullRequest)
    (r : Except ForgeError (String × String)) (t : ForgeService) : Prop :=
  origin.Reaches t.world ∧ ∀ shas, r = .ok shas →
    t.world.getPull repo.fullName pull.number = some (pinnedAt pull shas)

omit [GitHost] in
theorem pins_of_error {origin : World} {repo : Repo} {pull : PullRequest} {e : ForgeError}
    {t : ForgeService} (h : origin.Reaches t.world) : Pins origin repo pull (.error e) t :=
  ⟨h, fun _ raised => nomatch raised⟩

theorem freeze_pins {repo : Repo} {pull : PullRequest} {forge : ForgeService}
    (found : forge.world.getPull repo.fullName pull.number = some pull)
    (opened : pull.state = .opened) :
    Pins forge.world repo pull (answer (freeze repo pull) forge)
      (Method.after (freeze repo pull) forge) := by
  simp only [freeze]
  refine outcome_bind_of_keeps (f := world) (P := Pins forge.world repo pull) rfl
    (fun _ _ same => pins_of_error (same ▸ .refl)) ?_
  intro headSha t _ same
  rw [answer_bind_of_ok _ rfl, after_bind_of_ok _ rfl]
  let headed := { pull with closedHeadSha := some headSha }
  let mid := Method.after (putPull repo headed) t
  have first : forge.world.Reaches mid.world :=
    reaches_edit same found (.pins opened (some headSha) pull.closedBaseSha)
  have held : mid.world.getPull repo.fullName headed.number = some headed := by
    rw [world_putPull, World.getPull_putPull, if_pos ⟨rfl, rfl⟩]
  refine outcome_bind_of_keeps (f := world) (o := mid) (P := Pins forge.world repo pull) rfl
    (fun _ _ same => pins_of_error (same ▸ first)) ?_
  intro baseSha u _ same
  rw [answer_bind_of_ok _ rfl, after_bind_of_ok _ rfl]
  have still : headed.state = .opened := opened
  constructor
  · exact first.trans (reaches_edit same held (.pins still (some headSha) (some baseSha)))
  · intro shas answered
    cases answered
    change (Method.after (putPull repo _) u).world.getPull _ _ = _
    rw [world_putPull, World.getPull_putPull, if_pos ⟨rfl, rfl⟩]
    rfl

omit [GitHost] in
theorem reaches_closed {repo : Repo} {pull : PullRequest} {forge origin : ForgeService}
    {shas : String × String} (same : forge.world = origin.world)
    (found : origin.world.getPull repo.fullName pull.number = some (pinnedAt pull shas))
    (opened : pull.state = .opened) (time : Instant) :
    origin.world.Reaches
      (Method.after (putPull repo { pinnedAt pull shas with state := .closed, updatedAt := time })
        forge).world :=
  have still : (pinnedAt pull shas).state = .opened := opened
  reaches_edit same found (.closes still rfl rfl time)

omit [GitHost] in
theorem calls_bind {α β : Type} {op : Op} {m : ForgeM α} {g : α → ForgeM β} [Keeps world m]
    {forge origin : ForgeService} (same : forge.world = origin.world)
    (next : ∀ a (t : ForgeService), answer m forge = .ok a → t.world = origin.world →
      origin.world.Calls op (Method.after (g a) t).world) :
    origin.world.Calls op (Method.after (m >>= g) forge).world :=
  after_bind_of_keeps (f := world) (P := fun t => origin.world.Calls op t.world) same
    (fun _ kept => .reaches (kept ▸ .refl)) next

theorem world_stored (repo : Repo) (pull : PullRequest) (state : State) (forge : ForgeService) :
    (Method.after (do
      let now ← now
      let pull := { pull with state, updatedAt := now }
      putPull repo pull
      view repo pull) forge).world =
        forge.world.putPull repo.fullName
          { pull with state, updatedAt := forge.clock.head } := by
  rw [after_bind_of_ok (a := forge.clock.head) _ rfl]
  dsimp only
  rw [after_bind_of_ok _ rfl, Keeps.keeps (f := world)]
  rfl

theorem setPullState_calls (owner name : String) (number : Nat) (state : State)
    (forge : ForgeService) :
    forge.world.Calls (.setPullState owner name number state)
      (Method.after (setPullState owner name number state) forge).world := by
  simp only [setPullState]
  apply calls_bind rfl
  intro repo t named same
  have full := fullName_of_getRepo named
  apply calls_bind same
  intro pull t' held same'
  obtain ⟨key, found⟩ := found_of_requirePull held
  rw [same] at found
  cases state with
  | closed =>
    by_cases closed : pull.state = .closed
    · have kept : thawed repo pull .closed = pure pull := by simp [thawed, closed]
      rw [kept, after_bind_of_ok _ rfl, world_stored, after_pure, same']
      exact .reaches (.single (.edited (key ▸ found) (.touches closed _)))
    · have opened : pull.state = .opened := by
        cases h : pull.state with
        | opened => rfl
        | closed => exact absurd h closed
      have frozen : thawed repo pull .closed =
          freeze repo pull >>= fun shas => pure (pinnedAt pull shas) := by
        rw [thawed, if_pos ⟨rfl, closed⟩]
        rfl
      have pins := freeze_pins (key.symm ▸ same'.symm ▸ found) opened
      rw [frozen, after_bind, answer_bind, after_bind_pure]
      cases raised : answer (freeze repo pull) t' with
      | error e => exact .reaches (same' ▸ pins.1)
      | ok shas =>
        simp only [answer_pure]
        rw [world_stored, ← same']
        have still : (pinnedAt pull shas).state = .opened := opened
        exact .reaches (pins.1.trans
          (.single (.edited (pins.2 shas raised) (.closes still rfl rfl _))))
  | opened =>
    rw [full] at found
    cases merged : pull.merged with
    | true =>
      have kept : thawed repo pull .opened = pure pull := by simp [thawed, merged]
      have made (time : Instant) : { pull with state := .opened, updatedAt := time } =
          pull.reopened time := by simp only [PullRequest.reopened, merged, if_true]
      rw [kept, after_bind_of_ok _ rfl, world_stored, after_pure, same', made, full]
      exact .reopens found (fun unmerged => nomatch merged.symm.trans unmerged) _
    | false =>
      have made (time : Instant) : { pull with
          closedHeadSha := none, closedBaseSha := none, state := .opened, updatedAt := time } =
            pull.reopened time := by simp only [PullRequest.reopened, merged]; rfl
      have read : thawed repo pull .opened = (do
          let headThere ← branchExists repo pull.head
          refuseIf (headThere = false)
            (.validationError ("head ref does not exist: " ++ pull.head))
          return { pull with closedHeadSha := none, closedBaseSha := none }) := by
        simp [thawed, merged]
      rw [read, bind_assoc]
      apply calls_bind same'
      intro headThere u answered kept
      have stands := stands_of_branchExists answered
      rw [same', full] at stands
      rw [bind_assoc]
      apply calls_bind kept
      intro _ u refused kept
      have stood := stands.mp (Bool.eq_true_of_not_eq_false (refuseIf_ok.mp refused))
      rw [after_bind_of_ok _ rfl, world_stored, after_pure, kept, made, full]
      exact .reopens found (fun _ => stood) _

def around (full : String) (number : Nat) (forge : ForgeService) :
    GitBackend × (String → Nat → Option PullRequest) :=
  (forge.git, fun other n =>
    if other = full ∧ n = number then none else forge.state.getPull other n)

omit [GitHost] in
theorem getPull_of_around {full other : String} {number n : Nat} {s t : ForgeService}
    (same : around full number s = around full number t) (apart : ¬ (other = full ∧ n = number)) :
    s.world.getPull other n = t.world.getPull other n := by
  have rows := congrFun (congrFun (congrArg Prod.snd same) other) n
  simp only [around, if_neg apart] at rows
  exact rows

omit [GitHost] in
theorem keeps_around {repo : Repo} {pull : PullRequest} {number : Nat} (h : pull.number = number) :
    Keeps (around repo.fullName number) (putPull repo pull) where
  keeps forge := by
    refine congrArg (Prod.mk forge.git) ?_
    funext other n
    split
    case isTrue => rfl
    case isFalse apart =>
      rw [← h] at apart
      exact (InMemoryForgeState.getPull_putPull forge.state _ _ pull n).trans (if_neg apart)

instance (full : String) (number : Nat) : Keeps (around full number) now := ⟨fun _ => rfl⟩

instance (repo : Repo) (pull : PullRequest) :
    Keeps (around repo.fullName pull.number) (closeWith repo pull) := by
  have writes (headSha baseSha : Option String) (state : State) (time : Instant) :
      Keeps (around repo.fullName pull.number) (putPull repo { pull with
        closedHeadSha := headSha, closedBaseSha := baseSha, state, updatedAt := time }) :=
    keeps_around rfl
  simp only [closeWith, freeze]
  infer_instance

def Closes (origin : World) (repo : Repo) (pull : PullRequest) (r : Except ForgeError Unit)
    (t : ForgeService) : Prop :=
  origin.Reaches t.world ∧ ∀ u, r = .ok u → ∃ closed,
    t.world.getPull repo.fullName pull.number = some closed ∧ closed.state = .closed

theorem closeWith_closes {repo : Repo} {pull : PullRequest} {forge : ForgeService}
    (found : forge.world.getPull repo.fullName pull.number = some pull)
    (opened : pull.state = .opened) :
    Closes forge.world repo pull (answer (closeWith repo pull) forge)
      (Method.after (closeWith repo pull) forge) := by
  simp only [closeWith]
  have pins := freeze_pins found opened
  refine outcome_bind (P := Closes forge.world repo pull)
    (fun _ _ => ⟨pins.1, fun _ raised => nomatch raised⟩) ?_
  intro shas frozen
  obtain ⟨headSha, baseSha⟩ := shas
  let mid := Method.after (freeze repo pull) forge
  have held : mid.world.getPull repo.fullName pull.number = some
    (pinnedAt pull (headSha, baseSha)) :=
    pins.2 _ frozen
  dsimp only
  refine outcome_bind_of_keeps (f := world) (o := mid) (P := Closes forge.world repo pull) rfl
    (fun _ _ same => ⟨same ▸ pins.1, fun _ raised => nomatch raised⟩) ?_
  intro time t _ same
  let closed := { pinnedAt pull (headSha, baseSha) with state := .closed, updatedAt := time }
  refine ⟨pins.1.trans (reaches_closed same held opened time), fun _ _ => ⟨closed, ?_, rfl⟩⟩
  change (Method.after (putPull repo closed) t).world.getPull repo.fullName closed.number = _
  rw [world_putPull, World.getPull_putPull, if_pos ⟨rfl, rfl⟩]

structure Pending (world : World) (full branch : String) (rest : List PullRequest) : Prop where
  opened : ∀ pull ∈ rest, world.getPull full pull.number = some pull ∧ pull.state = .opened
  nodup : (rest.map (·.number)).Nodup
  covers : ∀ pull, world.getPull full pull.number = some pull → pull.state = .opened →
    pull.On branch → pull ∈ rest

structure Clears (forge : ForgeService) (full branch : String) (r : Except ForgeError Unit)
    (t : ForgeService) : Prop where
  chain : forge.world.Reaches t.world
  git : t.git = forge.git
  others : ∀ other number, other ≠ full →
    t.world.getPull other number = forge.world.getPull other number
  clear : ∀ u, r = .ok u → ∀ pull, t.world.getPull full pull.number = some pull →
    pull.state = .opened → ¬ pull.On branch

omit [GitHost] in
theorem Pending.skip {world : World} {full branch : String} {pull : PullRequest}
    {rest : List PullRequest} (h : Pending world full branch (pull :: rest))
    (off : ¬ pull.On branch) : Pending world full branch rest where
  opened other mem := h.opened other (List.mem_cons_of_mem _ mem)
  nodup := (List.nodup_cons.mp h.nodup).2
  covers other held opened on := by
    cases List.mem_cons.mp (h.covers other held opened on) with
    | inl same => exact absurd (same ▸ on) off
    | inr mem => exact mem

omit [GitHost] in
theorem Pending.close {forge t : ForgeService} {full branch : String} {pull closed : PullRequest}
    {rest : List PullRequest} (h : Pending forge.world full branch (pull :: rest))
    (same : around full pull.number t = around full pull.number forge)
    (held : t.world.getPull full pull.number = some closed) (shut : closed.state = .closed) :
    Pending t.world full branch rest where
  opened other mem := by
    have apart : other.number ≠ pull.number := by
      intro same
      exact (List.nodup_cons.mp h.nodup).1 (List.mem_map.mpr ⟨other, mem, same⟩)
    rw [getPull_of_around same fun both => apart both.2]
    exact h.opened other (List.mem_cons_of_mem _ mem)
  nodup := (List.nodup_cons.mp h.nodup).2
  covers other found opened on := by
    by_cases number : other.number = pull.number
    · rw [number, held] at found
      cases found
      cases shut.symm.trans opened
    · rw [getPull_of_around same fun both => number both.2] at found
      cases List.mem_cons.mp (h.covers other found opened on) with
      | inl same => exact absurd (congrArg PullRequest.number same) number
      | inr mem => exact mem

theorem closePulls_clears {repo : Repo} {branch : String} {rest : List PullRequest}
    {forge : ForgeService} (h : Pending forge.world repo.fullName branch rest) :
    Clears forge repo.fullName branch (answer (closePulls repo branch rest) forge)
      (Method.after (closePulls repo branch rest) forge) := by
  induction rest generalizing forge with
  | nil =>
    refine ⟨.refl, rfl, fun _ _ _ => rfl, ?_⟩
    intro _ _ pull found opened on
    cases h.covers pull found opened on
  | cons pull rest ih =>
    by_cases on : pull.On branch
    · have first : closePulls repo branch (pull :: rest) =
          closeWith repo pull >>= fun _ => closePulls repo branch rest := by
        rw [closePulls, if_pos on]
      obtain ⟨found, opened⟩ := h.opened pull List.mem_cons_self
      have closes := closeWith_closes found opened
      have same := Keeps.keeps (f := around repo.fullName pull.number)
        (m := closeWith repo pull) forge
      have git : (Method.after (closeWith repo pull) forge).git = forge.git :=
        congrArg Prod.fst same
      have others (other : String) (number : Nat) (apart : other ≠ repo.fullName) :=
        getPull_of_around same (n := number) fun both => apart both.1
      rw [first]
      refine outcome_bind (P := Clears forge repo.fullName branch) ?_ ?_
      · intro e _
        exact ⟨closes.1, git, others, fun _ raised => nomatch raised⟩
      · intro u answered
        obtain ⟨closed, held, shut⟩ := closes.2 u answered
        have after := ih (h.close same held shut)
        exact ⟨closes.1.trans after.chain, after.git.trans git,
          fun other number apart =>
            (after.others other number apart).trans (others other number apart),
          after.clear⟩
    · have skipped : closePulls repo branch (pull :: rest) = closePulls repo branch rest := by
        rw [closePulls, if_neg on]
      rw [skipped]
      exact ih (h.skip on)

omit [GitHost] in
theorem erases_of_clears {repo : Repo} {owner name branch : String} {forge mid : ForgeService}
    (full : repo.fullName = owner ++ "/" ++ name)
    (clears : Clears forge repo.fullName branch (.ok ()) mid) :
    forge.world.Calls (.deleteRef owner name branch)
      (Method.after (deleteBranch repo branch) mid).world := by
  have erased : (Method.after (deleteBranch repo branch) mid).world =
      mid.world.erase (owner ++ "/" ++ name) branch := by
    rw [← full]
    rfl
  rw [full] at clears
  rw [erased]
  exact .erases clears.chain clears.git clears.others (clears.clear () rfl)

theorem deleteRef_calls (owner name branch : String) (forge : ForgeService) :
    forge.world.Calls (.deleteRef owner name branch)
      (Method.after (deleteRef owner name branch) forge).world := by
  simp only [deleteRef]
  apply calls_bind rfl
  intro repo t named same
  have full := fullName_of_getRepo named
  apply calls_bind same
  intro there t _ same
  apply calls_bind same
  intro _ t _ same
  apply calls_bind same
  intro state u held kept
  have stored : state = u.state := by
    cases held
    exact congrArg World.state (same.trans kept.symm)
  subst stored
  have pending : Pending u.world repo.fullName branch
      (u.state.listPulls repo.fullName (some "open")) :=
    ⟨fun pull mem => InMemoryForgeState.mem_openPulls.mp mem, (u.state.nodup_sortedPulls _).sublist
      (List.filter_sublist.map _),
      fun pull found opened _ => InMemoryForgeState.mem_openPulls.mpr ⟨found, opened⟩⟩
  have clears := closePulls_clears pending
  rw [after_bind, ← kept]
  cases closed : answer (closePulls repo branch _) u with
  | error e => exact .reaches clears.chain
  | ok done =>
    rw [closed] at clears
    exact erases_of_clears full clears

theorem armLever_reaches (kind : LeverKind) (params : LeverParams) (forge : ForgeService) :
    forge.world.Reaches (Method.after (armLever kind params) forge).world := by
  simp only [armLever]
  split
  case isTrue =>
    rw [after_bind_pure]
    simp only [fireActionLever]
    split
    · exact externalMerge_reaches params forge
    · exact reaches_of_follows (refChecks params) forge
    · exact reaches_of_follows _ forge
    · exact .refl
  case isFalse =>
    split
    · exact .refl
    · exact reaches_of_follows _ forge

theorem next_calls (op : Op) (forge : ForgeService) :
    forge.world.Calls op (next op forge).world := by
  have discarded {α : Type} (m : ForgeM α) :
      Method.after (discard m : ForgeM Unit) forge = Method.after m forge := after_map _ _ _
  rw [next]
  cases op with
  | createPull owner name title body head base user =>
    rw [perform, discarded]
    exact .reaches (createPull_reaches owner name title body head base user forge)
  | setPullState owner name number state =>
    rw [perform, discarded]
    exact setPullState_calls owner name number state forge
  | mergePull owner name number method message sha user =>
    rw [perform, discarded]
    exact .reaches (mergePull_reaches owner name number method message sha user forge)
  | updateBranch owner name number expected =>
    rw [perform, discarded]
    exact .reaches (reaches_of_follows (updateBranch owner name number expected) forge)
  | mergeBranches owner name base head message =>
    rw [perform, discarded]
    exact .reaches (reaches_of_follows (mergeBranches owner name base head message) forge)
  | createRef owner name ref sha =>
    rw [perform, discarded]
    exact .reaches (reaches_of_follows (createRef owner name ref sha) forge)
  | updateRef owner name ref sha force =>
    rw [perform, discarded]
    exact .reaches (reaches_of_follows (updateRefTo owner name ref sha force) forge)
  | deleteRef owner name branch => exact deleteRef_calls owner name branch forge
  | armLever kind params =>
    rw [perform, discarded]
    exact .reaches (armLever_reaches kind params forge)
  | clearLever kind repo number branch pattern => exact .reaches .refl
  | clearAllLevers => exact .reaches .refl

end Calls

end ForgeService

end BlizzardMock.Forge
