import BlizzardMock.Harness.Runs
import BlizzardMock.Harness.SessionLaws

namespace BlizzardMock.Harness

open JsonText Method

/-- A turn, with what of its script's records is kept. -/
structure Turn where
  launch : Launch
  kept : List Effect

def Turn.play (turn : Turn) (state : SessionState) : SessionState :=
  turn.kept.foldl Effect.apply (turn.launch.opened state)

def play (told : List Turn) : Option SessionState :=
  told.foldl (fun state turn =>
    some (turn.play (state.getD { sessionId := turn.launch.sessionId }))) none

def Effect.ask? : Effect → Option Ask
  | .ask asked => some asked
  | .verdict _ => none

def Effect.verdict? : Effect → Option String
  | .ask _ => none
  | .verdict choice => some choice

/-- A session whose document tells these turns. -/
structure SessionState.Tells (state : SessionState) (told : List Turn) : Prop where
  turns : state.turns = told.length
  invocations : state.invocations = told.map (·.launch.invocation)
  resumes : state.resumes = (told.filter (·.launch.isResume)).map fun turn =>
    String.ofList turn.launch.message
  asks : state.asks = told.flatMap fun turn => turn.kept.filterMap Effect.ask?
  verdicts : state.verdicts = told.flatMap fun turn => turn.kept.filterMap Effect.verdict?
  sessionId : ∀ first, told.head? = some first → state.sessionId = first.launch.sessionId
  selftest : state.selftest = (told.filter (!·.launch.isResume)).getLast?.any
    fun turn => turn.launch.env.get? leaseIdEnvVar = some selftestLeaseId
  spawnCredential : state.spawnCredential =
    (told.filter fun turn =>
      !turn.launch.isResume || (turn.launch.env.get? leaseTokenEnvVar).isSome).getLast?.map
      (·.launch.spawnCredential)

section Turns

variable {told : List Turn} {turn : Turn} {state : SessionState} {launch : Launch}
    {effects : List Effect}

theorem play_append : play (told ++ [turn]) =
    some (turn.play ((play told).getD { sessionId := turn.launch.sessionId })) := by
  simp [play]

@[simp] theorem sessionId_opened : (launch.opened state).sessionId = state.sessionId := by
  cases resumes : launch.isResume <;> simp [Launch.opened, resumes]

theorem foldl_apply : effects.foldl Effect.apply state = { state with
    asks := state.asks ++ effects.filterMap Effect.ask?
    verdicts := state.verdicts ++ effects.filterMap Effect.verdict? } := by
  induction effects generalizing state with
  | nil => simp
  | cons effect effects ih =>
    cases effect <;> simp [ih, Effect.apply, Effect.ask?, Effect.verdict?, List.filterMap_cons]

@[simp] theorem Turn.sessionId_play : (turn.play state).sessionId = state.sessionId := by
  simp [Turn.play, foldl_apply]

theorem SessionState.Tells.play (tells : state.Tells told)
    (new : told = [] → state.sessionId = turn.launch.sessionId) : (turn.play state).Tells
      (told ++ [turn]) := by
  obtain ⟨turns, invocations, resumes, asks, verdicts, sessionId, selftest, credential⟩ := tells
  have first : ∀ first, (told ++ [turn]).head? = some first →
    state.sessionId = first.launch.sessionId := by
    cases told with
    | nil => simpa using new rfl
    | cons one rest => simpa using sessionId
  cases resumed : turn.launch.isResume <;> cases token :
    (turn.launch.env.get? leaseTokenEnvVar).isSome <;>
    constructor <;> simp [Turn.play, foldl_apply, Launch.opened, -List.head?_append,
      *] <;> exact first

theorem tells_getD (told : List Turn) (sessionId : String) :
    ((BlizzardMock.Harness.play told).getD { sessionId }).Tells told := by
  induction told using List.reverseRecOn generalizing sessionId with
  | nil => constructor <;> simp [BlizzardMock.Harness.play]
  | append_singleton told turn ih =>
    rw [play_append]
    refine (ih _).play fun empty => ?_
    subst empty
    rfl

theorem tells_append (told : List Turn) (turn : Turn) :
    (turn.play ((BlizzardMock.Harness.play told).getD { sessionId := turn.launch.sessionId })).Tells
      (told ++ [turn]) := by
  have tells := tells_getD (told ++ [turn]) ""
  rwa [play_append] at tells

theorem play_eq_none : BlizzardMock.Harness.play told = none ↔ told = [] := by
  induction told using List.reverseRecOn with
  | nil => simp [BlizzardMock.Harness.play]
  | append_singleton told turn => simp [play_append]

theorem sessionId_play {name : String}
    (named : ∀ turn ∈ told, SessionStore.path turn.launch.sessionId = name)
    (h : BlizzardMock.Harness.play told = some state) :
    SessionStore.path state.sessionId = name := by
  induction told using List.reverseRecOn generalizing state with
  | nil => cases h
  | append_singleton told turn ih =>
    rw [play_append] at h
    cases h
    rw [Turn.sessionId_play]
    cases before : BlizzardMock.Harness.play told with
    | some state => exact ih (fun turn mem => named turn (List.mem_append_left _ mem)) before
    | none => exact named turn (by simp)

end Turns

namespace World

def kept (process : Process) : List Effect :=
  match process.phase with
  | .ended => process.effects
  | _ => []

def turnOf (w : World) (pid : Nat) : Turn := ⟨(w.process pid).launch, kept (w.process pid)⟩

def told (w : World) (name : String) : List Turn := (w.begun.filter (w.name · = name)).map w.turnOf

/-- A process is inside its turn, from when it reads the session to when it last writes it. -/
def Busy (w : World) (pid : Nat) : Prop :=
  match (w.process pid).phase with
  | .loaded _ | .running _ => True
  | _ => False

/-- A turn is begun when no other turn of its session is under way. -/
def Apart (act : Act) (w : World) : Prop :=
  match act with
  | .load pid => ∀ other, w.Busy other → w.name other ≠ w.name pid
  | _ => True

variable [Codecs]

/-- The time of an ask is a double that is read back. -/
def Stamped (effect : Effect) : Prop := ∀ asked ∈ effect.ask?, ReadableDouble asked.askedAt

/-- What a process has at its point of the turn: a session read is the one told so far, and opened;
a session whose script runs is the one told so far, this turn the last of it, with what the script
recorded. -/
def Stands (w : World) (pid : Nat) (process : Process) : Prop :=
  match process.phase with
  | .ready => pid ∉ w.begun ∧ process.effects = []
  | .loaded state => pid ∉ w.begun ∧ process.effects = [] ∧
    state = process.launch.opened
      ((play (w.told (w.name pid))).getD { sessionId := process.launch.sessionId })
  | .running state => ∃ before, w.begun.filter (w.name · = w.name pid) = before ++ [pid] ∧
    ∃ held, play (w.told (w.name pid)) = some held ∧ state = process.effects.foldl Effect.apply held
  | _ => True

structure Kept (w : World) : Prop where
  nodup : w.begun.Nodup
  files : ∀ name, w.files name = (play (w.told name)).map (·.toJson)
  alone : ∀ pid other, w.Busy pid → w.Busy other → w.name pid = w.name other → pid = other
  stamped : ∀ pid, ∀ effect ∈ (w.process pid).effects, Stamped effect
  stands : ∀ pid, w.Stands pid (w.process pid)

variable {w w' : World} {act : Act} {pid other : Nat} {process : Process} {state : SessionState}

omit [Codecs] in
@[simp] theorem process_set_self : (w.set pid process).process pid = process :=
  Function.update_self ..

omit [Codecs] in
theorem process_set_of_ne (h : other ≠ pid) : (w.set pid process).process other = w.process other :=
  Function.update_of_ne h ..

omit [Codecs] in
theorem name_eq (same : w'.process other = w.process other) : w'.name other = w.name other := by
  rw [name, name, same]

omit [Codecs] in
theorem busy_iff (same : w'.process other = w.process other) : w'.Busy other ↔ w.Busy other := by
  rw [Busy, Busy, same]

theorem Kept.step (kept : w.Kept) (others : ∀ other ≠ pid, w'.process other = w.process other)
    (launch : (w'.process pid).launch = (w.process pid).launch) (nodup : w'.begun.Nodup)
    (begun : ∀ other ≠ pid, other ∈ w'.begun ↔ other ∈ w.begun)
    (elsewhere : ∀ other ≠ pid, w.Busy other → w'.told (w.name other) = w.told (w.name other) ∧
      w'.begun.filter (w'.name · = w.name other) = w.begun.filter (w.name · = w.name other))
    (files : ∀ name, w'.files name = (play (w'.told name)).map (·.toJson))
    (alone : w'.Busy pid → ∀ other ≠ pid, w.Busy other → w.name other ≠ w.name pid)
    (stamped : ∀ effect ∈ (w'.process pid).effects, Stamped effect)
      (stands : w'.Stands pid (w'.process pid)) : w'.Kept := by
  have own : w'.name pid = w.name pid := by rw [name, name, launch]
  refine ⟨nodup, files, fun one two first second same => ?_, fun one => ?_, fun one => ?_⟩
  · by_cases here : one = pid <;> by_cases there : two = pid
    · rw [here, there]
    · subst here
      rw [own, name_eq (others two there)] at same
      exact absurd same.symm (alone first two there ((busy_iff (others two there)).mp second))
    · subst there
      rw [own, name_eq (others one here)] at same
      exact absurd same (alone second one here ((busy_iff (others one here)).mp first))
    · rw [name_eq (others one here), name_eq (others two there)] at same
      exact kept.alone one two ((busy_iff (others one here)).mp first)
        ((busy_iff (others two there)).mp second) same
  · by_cases here : one = pid
    · exact here ▸ stamped
    · exact others one here ▸ kept.stamped one
  · by_cases here : one = pid
    · exact here ▸ stands
    · have before := kept.stands one
      have apart := elsewhere one here
      unfold Stands at before ⊢
      rw [name_eq (others one here), others one here, begun one here]
      split
      case h_1 ready => simpa [ready] using before
      case h_2 read =>
        rw [(apart (by simp [Busy, read])).1]
        simpa [read] using before
      case h_3 runs =>
        rw [(apart (by simp [Busy, runs])).1, (apart (by simp [Busy, runs])).2]
        simpa [runs] using before
      case h_4 => trivial

omit [Codecs] in
theorem name_set (launch : process.launch = (w.process pid).launch) :
    (w.set pid process).name = w.name := by
  funext other
  by_cases same : other = pid
  · simp [name, same, launch]
  · exact name_eq (process_set_of_ne same)

omit [Codecs] in
theorem turnOf_set (launch : process.launch = (w.process pid).launch)
    (alike : World.kept process = World.kept (w.process pid)) : (w.set pid process).turnOf =
      w.turnOf := by
  funext other
  by_cases same : other = pid
  · simp [turnOf, same, launch, alike]
  · simp [turnOf, process_set_of_ne same]

omit [Codecs] in
theorem told_set (launch : process.launch = (w.process pid).launch)
    (alike : World.kept process = World.kept (w.process pid)) :
    (w.set pid process).told = w.told := by
  funext file
  rw [told, told, turnOf_set launch alike, name_set launch]
  rfl

theorem Kept.set (kept : w.Kept) (launch : process.launch = (w.process pid).launch)
    (alike : World.kept process = World.kept (w.process pid))
    (alone : (w.set pid process).Busy pid → ∀ other ≠ pid, w.Busy other → w.name other ≠ w.name pid)
    (stamped : ∀ effect ∈ process.effects, Stamped effect) (stands : w.Stands pid process) :
    (w.set pid process).Kept := by
  refine kept.step (fun other => process_set_of_ne)
    (by rw [process_set_self, launch]) kept.nodup (fun _ _ => .rfl)
    (fun other _ _ => ?_) (fun file => ?_) alone (by rwa [process_set_self]) ?_
  · rw [told_set launch alike, name_set launch]
    exact ⟨rfl, rfl⟩
  · rw [told_set launch alike]
    exact kept.files file
  · rw [process_set_self]
    unfold Stands at stands ⊢
    rwa [told_set launch alike, name_set launch]

theorem Kept.writable (kept : w.Kept) (short : w.begun.length < 10 ^ intMaxStrDigits)
    {file : String}
    (h : play (w.told file) = some state) : state.Writable := by
  have tells := tells_getD (w.told file) ""
  rw [h, Option.getD_some] at tells
  constructor
  · rw [tells.turns, told, List.length_map]
    exact Nat.lt_of_le_of_lt (List.length_filter_le ..) short
  · intro asked mem
    simp only [tells.asks, told, List.mem_flatMap, List.mem_map, List.mem_filterMap] at mem
    obtain ⟨_, ⟨pid, _, rfl⟩, effect, mem, asks⟩ := mem
    refine kept.stamped pid effect ?_ asked asks
    simp only [turnOf, World.kept] at mem
    split at mem
    · exact mem
    · cases mem

theorem Kept.load (kept : w.Kept) (short : w.begun.length < 10 ^ intMaxStrDigits)
    {sessionId : String}
    (h : SessionStore.loadOrCreate w.files sessionId = .ok state) :
    state = (play (w.told (SessionStore.path sessionId))).getD { sessionId } := by
  unfold SessionStore.loadOrCreate SessionStore.load at h
  rw [kept.files] at h
  cases held : play (w.told (SessionStore.path sessionId)) with
  | none =>
    rw [held] at h
    cases h
    rfl
  | some state =>
    rw [held] at h
    simp only [Option.map_some, SessionState.fromJson_toJson (kept.writable short held)] at h
    cases h
    rfl

theorem Kept.dies (kept : w.Kept) (inside : (w.process pid).phase ≠ .ended) :
    (w.set pid { w.process pid with phase := .dead }).Kept := by
  refine kept.set rfl ?_ (by simp [Busy]) (kept.stamped pid) trivial
  simp only [World.kept]

theorem Kept.opens (kept : w.Kept) (phase : (w.process pid).phase = .ready)
    (apart : ∀ other, w.Busy other → w.name other ≠ w.name pid)
    (read : state = (play (w.told (w.name pid))).getD
      { sessionId := (w.process pid).launch.sessionId }) :
    (w.set pid
      { w.process pid with phase := .loaded ((w.process pid).launch.opened state) }).Kept := by
  have stands := kept.stands pid
  simp only [Stands, phase] at stands
  refine kept.set rfl
    (by simp [World.kept, phase]) (fun _ other _ busy => apart other busy) (kept.stamped pid) ?_
  exact ⟨stands.1, stands.2, congrArg _ read⟩

theorem Kept.records (kept : w.Kept) (phase : (w.process pid).phase = .running state)
    {effect : Effect}
    (stamp : Stamped effect) :
    (w.set pid
      { w.process pid with
        phase := .running (effect.apply state),
        effects := (w.process pid).effects ++ [effect] }).Kept := by
  have busy : w.Busy pid := by simp [Busy, phase]
  have stands := kept.stands pid
  simp only [Stands, phase] at stands
  refine kept.set rfl (by simp [World.kept, phase])
    (fun _ other apart there same => apart (kept.alone other pid there busy same)) ?_ ?_
  · simpa [or_imp, forall_and] using ⟨kept.stamped pid, stamp⟩
  · obtain ⟨before, last, held, told, rfl⟩ := stands
    exact ⟨before, last, held, told, by simp⟩

omit [Codecs] in
theorem named_told {file : String} :
    ∀ turn ∈ w.told file, SessionStore.path turn.launch.sessionId = file := by
  intro turn mem
  obtain ⟨one, named, rfl⟩ := List.mem_map.mp mem
  exact of_decide_eq_true (List.mem_filter.mp named).2

omit [Codecs] in
theorem path_getD (pid : Nat) : SessionStore.path
    ((play (w.told (w.name pid))).getD { sessionId := (w.process pid).launch.sessionId }).sessionId
      = w.name pid := by
  cases held : play (w.told (w.name pid)) with
  | none => rfl
  | some state => exact sessionId_play named_told held

theorem Kept.writes (kept : w.Kept) (busy : w.Busy pid) {begun : List Nat}
    (written : { w with files := SessionStore.save w.files state, begun }.set pid process = w')
    (path : SessionStore.path state.sessionId = w.name pid)
      (launch : process.launch = (w.process pid).launch)
    (nodup : begun.Nodup) (counted : ∀ other ≠ pid, other ∈ begun ↔ other ∈ w.begun)
    (elsewhere : ∀ file ≠ w.name pid, begun.filter (w.name · = file) = w.begun.filter
      (w.name · = file))
    (told : play (w'.told (w.name pid)) = some state)
      (stamped : ∀ effect ∈ process.effects, Stamped effect)
    (stands : w'.Stands pid process) : w'.Kept := by
  have names : w'.name = w.name := by
    rw [← written]
    exact name_set launch
  have own : w'.process pid = process := by rw [← written, process_set_self]
  have others (other : Nat) (ne : other ≠ pid) : w'.process other = w.process other := by
    rw [← written]
    exact process_set_of_ne ne
  have files : w'.files = SessionStore.save w.files state := by rw [← written]; rfl
  have count : w'.begun = begun := by rw [← written]; rfl
  have apart (other : Nat) (ne : other ≠ pid) (there : w.Busy other) :
    w.name other ≠ w.name pid := fun same =>
    ne (kept.alone other pid there busy same)
  have away {file : String} (ne : file ≠ w.name pid) : w'.told file = w.told file := by
    rw [World.told, World.told, count, names, elsewhere file ne]
    refine List.map_congr_left fun other mem => ?_
    have named : w.name other = file := of_decide_eq_true (List.mem_filter.mp mem).2
    have apart : other ≠ pid := fun same => ne (named ▸ same ▸ rfl)
    rw [turnOf, turnOf, others other apart]
  refine kept.step others
    (by rw [own, launch]) (by rwa [count]) (by rwa [count]) (fun other ne there => ?_)
    (fun file => ?_) (fun _ => apart) (by rwa [own]) (by rwa [own])
  · rw [count, names]
    exact ⟨away (apart other ne there), elsewhere _ (apart other ne there)⟩
  · rw [files, SessionStore.save, path]
    by_cases same : file = w.name pid
    · rw [same, Function.update_self, told]
      rfl
    · rw [Function.update_of_ne same, kept.files, away same]

theorem Kept.saves (kept : w.Kept) (phase : (w.process pid).phase = .loaded state) :
    ({ w with files := SessionStore.save w.files state, begun := w.begun ++ [pid] }.set pid
      { w.process pid with phase := .running state }).Kept := by
  have stands := kept.stands pid
  simp only [Stands, phase] at stands
  obtain ⟨unbegun, none, read⟩ := stands
  obtain ⟨w', written⟩ : ∃ w', World.set { w with
    files := SessionStore.save w.files state, begun := w.begun ++ [pid] } pid
      { w.process pid with phase := .running state } = w' := ⟨_, rfl⟩
  have names : w'.name = w.name := by
    rw [← written]
    exact name_set rfl
  have last : w'.begun.filter (w.name · = w.name pid) = w.begun.filter
    (w.name · = w.name pid) ++ [pid] := by
    simp [← written, World.set]
  have told : w'.told (w.name pid) = w.told (w.name pid) ++ [⟨(w.process pid).launch, []⟩] := by
    have turns : w'.turnOf = w.turnOf := by
      rw [← written]
      exact turnOf_set rfl (by simp [World.kept, phase])
    have turn : w.turnOf pid = ⟨(w.process pid).launch, []⟩ := by simp [turnOf, World.kept, phase]
    rw [World.told, names, last, List.map_append, turns, List.map_singleton, turn]
    rfl
  have held : play (w'.told (w.name pid)) = some state := by
    rw [told, play_append, read]
    rfl
  rw [written]
  refine kept.writes (by simp [Busy, phase]) written ?_ rfl ?_ ?_ ?_ held (kept.stamped pid) ?_
  · rw [read, sessionId_opened, path_getD]
  · simpa [List.nodup_append] using ⟨kept.nodup, fun one mem same => unbegun (same ▸ mem)⟩
  · intro other ne
    simp [ne]
  · intro file ne
    simp [Ne.symm ne]
  · rw [Stands, names]
    exact ⟨_, last, state, held, by simp [none]⟩

theorem Kept.finishes (kept : w.Kept) (phase : (w.process pid).phase = .running state) :
    ({ w with files := SessionStore.save w.files state }.set pid
      { w.process pid with phase := .ended }).Kept := by
  have stands := kept.stands pid
  simp only [Stands, phase] at stands
  obtain ⟨before, last, held, told, read⟩ := stands
  obtain ⟨w', written⟩ : ∃ w', World.set { w with files := SessionStore.save w.files state } pid
      { w.process pid with phase := .ended } = w' := ⟨_, rfl⟩
  have path := sessionId_play named_told told
  rw [written]
  refine kept.writes (by simp [Busy, phase]) written ?_ rfl kept.nodup (fun _ _ => .rfl)
    (fun _ _ => rfl) ?_ (kept.stamped pid) trivial
  · rw [read, foldl_apply]
    exact path
  · have names : w'.name = w.name := by
      rw [← written]
      exact name_set rfl
    have fresh : pid ∉ before := by
      have nodup := kept.nodup.filter fun other => decide (w.name other = w.name pid)
      rw [last] at nodup
      exact fun mem => (List.nodup_append.mp nodup).2.2 pid mem pid (by simp) rfl
    have rest : before.map w'.turnOf = before.map w.turnOf := by
      refine List.map_congr_left fun other mem => ?_
      have ne : other ≠ pid := fun same => fresh (same ▸ mem)
      rw [← written, turnOf, turnOf, process_set_of_ne ne]
    have turn : w.turnOf pid = ⟨(w.process pid).launch, []⟩ := by simp [turnOf, World.kept, phase]
    have ended : w'.turnOf pid = ⟨(w.process pid).launch, (w.process pid).effects⟩ := by
      simp [← written, turnOf, World.kept]
    have count : w'.begun = w.begun := by rw [← written]; rfl
    rw [World.told, last, List.map_append, List.map_singleton, turn, play_append] at told
    rw [World.told, count, names, last, List.map_append, List.map_singleton, ended, rest,
      play_append, read,
      ← Option.some.inj told]
    rfl

theorem kept_next (kept : w.Kept) (short : w.begun.length < 10 ^ intMaxStrDigits)
    (apart : Apart act w)
    (stamps : ∀ pid effect, act = .record pid effect → Stamped effect) : (next act w).Kept := by
  cases act with
  | load pid =>
    cases phase : (w.process pid).phase with
    | ready =>
      simp only [next, phase]
      split
      · split
        · rename_i read
          exact kept.opens phase apart (kept.load short read)
        · exact kept.dies (by simp [phase])
      · exact kept.dies (by simp [phase])
    | _ => simpa only [next, phase] using kept
  | save pid =>
    cases phase : (w.process pid).phase with
    | loaded state => simpa only [next, phase] using kept.saves phase
    | _ => simpa only [next, phase] using kept
  | record pid effect =>
    cases phase : (w.process pid).phase with
    | running state => simpa only [next, phase] using kept.records phase (stamps pid effect rfl)
    | _ => simpa only [next, phase] using kept
  | finish pid =>
    cases phase : (w.process pid).phase with
    | running state => simpa only [next, phase] using kept.finishes phase
    | _ => simpa only [next, phase] using kept
  | die pid =>
    cases phase : (w.process pid).phase with
    | ended => simpa only [next, phase] using kept
    | _ => simpa only [next, phase] using kept.dies (by simp [phase])

def idle (launch : Nat → Launch) : World where
  files _ := none
  process pid := { launch := launch pid }

theorem kept_idle (launch : Nat → Launch) : (idle launch).Kept where
  nodup := List.nodup_nil
  files _ := rfl
  alone _ _ busy := busy.elim
  stamped _ := nofun
  stands _ := ⟨nofun, rfl⟩

theorem begun_next : (next act w).begun.length ≤ w.begun.length + 1 := by
  cases act <;> simp only [next] <;> repeat' split
  all_goals simp [World.set]

theorem kept_run {acts : List Act} (kept : w.Kept)
    (short : w.begun.length + acts.length < 10 ^ intMaxStrDigits)
    (stamps : ∀ pid effect, .record pid effect ∈ acts → Stamped effect)
    (apart : Machine.Meets next Apart acts w) :
    (Machine.after next acts w).Kept ∧ (Machine.after next acts w).begun.length <
      10 ^ intMaxStrDigits := by
  induction acts generalizing w with
  | nil => exact ⟨kept, short⟩
  | cons act acts ih =>
    have grows : (next act w).begun.length ≤ _ := begun_next
    rw [List.length_cons] at short
    refine ih (kept_next kept
      (by omega) apart.1 fun pid effect same => stamps pid effect (by simp [same])) (by omega)
      (fun pid effect mem => stamps pid effect (List.mem_cons_of_mem _ mem)) apart.2

/-- However the turns of different sessions run beside each other, each session's file tells that
session's turns. -/
theorem sessions_kept {launch : Nat → Launch} {acts : List Act}
    (short : acts.length < 10 ^ intMaxStrDigits)
    (stamps : ∀ pid effect, .record pid effect ∈ acts → Stamped effect)
    (apart : Machine.Meets next Apart acts (idle launch)) :
    let w := Machine.after next acts (idle launch)
    (∀ name, (w.told name = [] ∧ w.files name = none) ∨
      ∃ text state, w.files name = some text ∧ SessionState.fromJson text = .ok state ∧
        state.Tells (w.told name)) ∧
    ∀ pid state, (w.process pid).phase = .running state →
      ∃ before, w.told (w.name pid) = before ++ [⟨(w.process pid).launch, []⟩] ∧
        state.Tells (before ++ [⟨(w.process pid).launch, (w.process pid).effects⟩]) := by
  obtain ⟨kept, few⟩ := kept_run (kept_idle launch) (by simpa [idle] using short) stamps apart
  generalize Machine.after next acts (idle launch) = w at kept few
  refine ⟨fun name => ?_, fun pid state phase => ?_⟩
  · cases held : play (w.told name) with
    | none => exact .inl ⟨play_eq_none.mp held, by rw [kept.files, held]; rfl⟩
    | some state =>
      have tells := tells_getD (w.told name) ""
      rw [held] at tells
      refine .inr ⟨state.toJson, state, by rw [kept.files, held]; rfl, ?_, tells⟩
      exact SessionState.fromJson_toJson (kept.writable few held)
  · have stands := kept.stands pid
    simp only [Stands, phase] at stands
    obtain ⟨before, last, held, told, rfl⟩ := stands
    have turn : w.turnOf pid = ⟨(w.process pid).launch, []⟩ := by simp [turnOf, World.kept, phase]
    have whole : w.told (w.name pid) = before.map w.turnOf ++ [⟨(w.process pid).launch, []⟩] := by
      rw [World.told, last, List.map_append, List.map_singleton, turn]
    rw [whole, play_append] at told
    refine ⟨_, whole, ?_⟩
    rw [← Option.some.inj told]
    exact tells_append (before.map w.turnOf) ⟨(w.process pid).launch, (w.process pid).effects⟩

theorem process_next (apart : act.pid ≠ other) : (next act w).process other = w.process other := by
  cases act <;> simp only [next] <;> repeat' split
  all_goals first | rfl | exact process_set_of_ne (Ne.symm apart)

theorem process_after {acts : List Act} (apart : ∀ act ∈ acts, act.pid ≠ other) :
    (Machine.after next acts w).process other = w.process other := by
  induction acts generalizing w with
  | nil => rfl
  | cons act acts ih =>
    obtain ⟨first, apart⟩ := List.forall_mem_cons.mp apart
    rw [Machine.after_cons, ih apart, process_next first]

end World

section

@[reducible] def plainCodecs : Codecs where
  isPrintable _ := true
  decoded _ := none
  double _ := .nan
  surrogate n := Char.ofNat n

attribute [local instance] plainCodecs

def turnOfTwo (isResume : Bool) (sessionId : String) : Launch where
  prompt := "verdict('pass')".toList
  isResume := isResume
  named := some sessionId
  env := .ofList [(fenceEnvVar, fenceEnvValue)]

def threeTurns : Nat → Launch
  | 0 => turnOfTwo false "a"
  | 1 => turnOfTwo false "b"
  | _ => turnOfTwo true "a"

def besideEachOther : List Act :=
  [.load 0, .save 0, .load 1, .record 0 (.verdict "pass"), .save 1, .finish 0, .die 1,
    .load 2, .save 2]

theorem besideEachOther_apart :
    Machine.Meets World.next World.Apart besideEachOther (World.idle threeTurns) := by
  have ready (acts : List Act) (other : Nat) (apart : ∀ act ∈ acts, act.pid ≠ other) :
      ¬(Machine.after World.next acts (World.idle threeTurns)).Busy other := by
    rw [World.busy_iff (World.process_after apart)]
    exact fun busy => busy.elim
  refine ⟨fun other busy => busy.elim, trivial, fun other busy =>
    ?_, trivial, trivial, trivial, trivial,
    fun other busy => ?_, trivial, trivial⟩
  · by_cases first : other = 0
    · subst first
      decide
    · exact absurd busy (ready [.load 0, .save 0] other (by simp [Act.pid, Ne.symm first]))
  · by_cases first : other = 0
    · subst first
      exact busy.elim
    · by_cases second : other = 1
      · subst second
        exact busy.elim
      · exact absurd busy (ready (besideEachOther.take 7) other
          (by simp [besideEachOther, Act.pid, Ne.symm first, Ne.symm second]))

theorem besideEachOther_kept :
    let w := Machine.after World.next besideEachOther (World.idle threeTurns)
    (∀ name, (w.told name = [] ∧ w.files name = none) ∨
      ∃ text state, w.files name = some text ∧ SessionState.fromJson text = .ok state ∧
        state.Tells (w.told name)) ∧
    ∀ pid state, (w.process pid).phase = .running state →
      ∃ before, w.told (w.name pid) = before ++ [⟨(w.process pid).launch, []⟩] ∧
        state.Tells (before ++ [⟨(w.process pid).launch, (w.process pid).effects⟩]) := by
  have stamps : ∀ pid effect, .record pid effect ∈ besideEachOther → World.Stamped effect := by
    intro pid effect mem
    simp only [besideEachOther, List.mem_cons, reduceCtorEq, Act.record.injEq, false_or, or_false,
      List.not_mem_nil] at mem
    obtain ⟨-, rfl⟩ := mem
    exact nofun
  have short : besideEachOther.length < 10 ^ intMaxStrDigits :=
    Nat.lt_of_lt_of_le (by decide : 9 < 10 ^ 1) (Nat.pow_le_pow_right (by decide) (by decide))
  exact World.sessions_kept short stamps besideEachOther_apart

end

end BlizzardMock.Harness
