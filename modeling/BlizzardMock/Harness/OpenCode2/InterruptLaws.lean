import BlizzardMock.Harness.OpenCode2.StepLaws

namespace BlizzardMock.OpenCode2

namespace Session

variable {session later : Session} {stored : String → Bool} {request : Nat} {step : Section}

/-- A turn runs or is off the queue, and its idle is not recorded yet. -/
def Busy (session : Session) : Prop :=
  match session.worker with
  | .taken _ | .turn _ _ | .compacting _ | .summarizing _ => True
  | _ => False

def waits (session : Session) : Bool :=
  match session.worker with
  | .turn _ (.asking request) => !(session.asks.get? request).any (·.answered)
  | _ => false

/-- What every step keeps of a session: its worker is counted as running, and the request its worker
waits for is filed. -/
structure Sound (session : Session) : Prop where
  live : session.worker ≠ .absent → session.running = true
  asked : ∀ ticket request, session.worker = .turn ticket (.asking request) → request ∈ session.asks

/-- A worker whose flag is set neither writes a user message nor raises a request nor is declined.
-/
def Heeds (session : Session) (step : Section) : Prop :=
  session.cancel = true → match session.worker, step with
    | .taken _, .userMessage => False
    | .turn _ .turning, .requestPermission => False
    | .turn _ .declining, .declined => False
    | _, _ => True

structure Held (session : Session) : Prop where
  busy : session.Busy
  running : session.running = true
  flag : session.cancel = true
  awake : session.waits = false

theorem Sound.start (sound : session.Sound) : session.start.Sound := by
  rw [Session.start]
  split
  case isTrue => exact sound
  case isFalse => exact ⟨fun _ => rfl, by simp⟩

theorem Sound.accept (sound : session.Sound) (item : Item) : (session.accept item).Sound :=
  Sound.start ⟨sound.live, sound.asked⟩

theorem Sound.hear (sound : session.Sound) (entry : Entry) : (session.hear entry).Sound :=
  Sound.start ⟨sound.live, sound.asked⟩

theorem Acts.sound (acts : session.Acts stored request step later) (sound : session.Sound) :
    later.Sound := by
  cases acts with
  | elsewhere => exact sound
  | left => exact ⟨fun here => absurd rfl here, fun _ _ here => nomatch here⟩
  | rested => exact ⟨fun here => absurd rfl here, fun _ _ here => nomatch here⟩
  | asked place =>
    refine ⟨fun _ => sound.live (by simp [place]), ?_⟩
    rintro _ _ ⟨⟩
    simp [Dict.mem_iff]
  | spawned place => exact ⟨sound.live, sound.asked⟩
  | wrote place => exact ⟨sound.live, sound.asked⟩
  | delivered place =>
    refine ⟨fun _ => sound.live (by simp [place]), ?_⟩
    intro ticket request here
    dsimp only at here
    split at here <;> cases here
  | idled place =>
    refine ⟨fun _ => sound.live (by simp [place]), ?_⟩
    intro ticket request here
    dsimp only at here
    split at here <;> cases here
  | _ =>
    refine ⟨fun _ => sound.live (by simp [*]), ?_⟩
    simp

theorem Sound.cancelled (sound : session.Sound) : session.cancelled.Sound := by
  refine ⟨sound.live, ?_⟩
  intro ticket request here
  have asked := sound.asked ticket request here
  simpa [Session.cancelled, Dict.mem_iff, Dict.get?_mapValues] using asked

theorem Sound.replied (sound : session.Sound) (request : Nat) (decision : String)
    (message : Option String) : (session.replied request decision message).Sound := by
  rw [Session.replied]
  split
  case h_1 => exact sound
  case h_2 =>
    refine ⟨sound.live, ?_⟩
    intro ticket other here
    have asked := sound.asked ticket other here
    simp only [Dict.mem_iff, Dict.get?_set] at asked ⊢
    split
    case isTrue => exact ⟨_, rfl⟩
    case isFalse => exact asked

theorem held_cancelled (sound : session.Sound) (busy : session.Busy)
    (running : session.running = true) :
    session.cancelled.Held where
  busy := busy
  running := running
  flag := by simp [cancelled, running]
  awake := by
    simp only [waits, cancelled]
    split
    case h_1 ticket request here =>
      obtain ⟨ask, asked⟩ := Dict.mem_iff.mp (sound.asked ticket request here)
      simp [Dict.get?_mapValues, asked]
    case h_2 => rfl

theorem Held.start (held : session.Held) : session.start.Held := by
  rw [Session.start, if_pos held.running]
  exact held

theorem Held.accept (held : session.Held) (item : Item) : (session.accept item).Held := by
  apply Held.start
  exact ⟨held.busy, held.running, held.flag, held.awake⟩

theorem Held.hear (held : session.Held) (entry : Entry) : (session.hear entry).Held := by
  apply Held.start
  exact ⟨held.busy, held.running, held.flag, held.awake⟩

theorem Held.replied (held : session.Held) (request : Nat) (decision : String)
    (message : Option String) : (session.replied request decision message).Held := by
  rw [Session.replied]
  split
  case h_1 => exact held
  case h_2 =>
    refine ⟨held.busy, held.running, held.flag, ?_⟩
    have awake := held.awake
    simp only [waits] at awake ⊢
    split
    case h_1 here =>
      rw [here] at awake
      rw [Dict.get?_set]
      split
      case isTrue => rfl
      case isFalse => exact awake
    case h_2 => rfl

theorem Acts.held (acts : session.Acts stored request step later) (heeds : session.Heeds step)
    (unended : step ≠ .idle) (held : session.Held) : later.Held := by
  obtain ⟨busy, running, flag, awake⟩ := held
  have heeded := heeds flag
  cases acts with
  | elsewhere => exact ⟨busy, running, flag, awake⟩
  | opened place => simp [place] at heeded
  | asked place => simp [place] at heeded
  | declined place => simp [place] at heeded
  | idled place => exact absurd rfl unended
  | refused place clear => simp [clear] at flag
  | allowed place clear => simp [clear] at flag
  | waited place clear => simp [clear] at flag
  | steered place first => exact ⟨trivial, running, flag, rfl⟩
  | woke place => exact ⟨trivial, running, flag, rfl⟩
  | gaveUp place => exact ⟨trivial, running, flag, rfl⟩
  | noticed place => exact ⟨trivial, running, flag, rfl⟩
  | finished place => exact ⟨trivial, running, flag, rfl⟩
  | stopped place => exact ⟨trivial, running, flag, rfl⟩
  | compacted place => exact ⟨trivial, running, flag, rfl⟩
  | spawned place => exact ⟨busy, running, flag, awake⟩
  | wrote place => exact ⟨busy, running, flag, awake⟩
  | _ => simp [Busy, *] at busy

end Session

namespace Engine

variable {engine : Engine}

/-- What a step does to an interrupted turn of a session. -/
def Heeds (r : Nat) : Op → Engine → Prop
  | .work x step, engine => x = r → (engine.objects r).Heeds step
  | _, _ => True

theorem sound_move {op : Op} {x tickets : Nat} {session : Session}
    (sound : (engine.objects x).Sound) (move : engine.Move x tickets op session) :
    session.Sound := by
  cases move with
  | stays => exact sound
  | created => exact ⟨fun here => absurd rfl here, fun _ _ here => nomatch here⟩
  | accepted => exact sound.accept _
  | told => exact sound.hear _
  | toldItself => exact Session.acts.sound (sound.hear _)
  | worked => exact Session.acts.sound sound
  | cancelled => exact sound.cancelled
  | replied => exact sound.replied _ _ _

theorem sound_after (ops : List Op) (interruptIgnored : Bool) (x : Nat) :
    ((Machine.after next ops (fresh interruptIgnored)).objects x).Sound := by
  refine everywhere (P := fun session _ => session.Sound) ops interruptIgnored ?_ ?_ x
  · exact ⟨fun here => absurd rfl here, fun _ _ here => nomatch here⟩
  · exact fun _ sound move => sound_move sound move

theorem held_next {r : Nat} {op : Op} (filed : engine.Filed) (made : r < engine.made)
    (unended : op ≠ .work r .idle) (heeds : Heeds r op engine) (sound : (engine.objects r).Sound)
    (held : (engine.objects r).Held) : ((next op engine).objects r).Held := by
  have move := moves filed op r
  generalize (next op engine).objects r = session at move ⊢
  cases move with
  | stays => exact held
  | created new => omega
  | accepted => exact held.accept _
  | told => exact held.hear _
  | toldItself => exact Session.acts.held (by simp [Session.Heeds]) (by simp) (held.hear _)
  | worked => exact Session.acts.held (heeds rfl) (fun idle => unended (by rw [idle])) held
  | cancelled => exact Session.held_cancelled sound held.busy held.running
  | replied => exact held.replied _ _ _

theorem interrupt_object {sid : String} {r : Nat} {later : Engine} (filed : engine.Filed)
    (unarmed : engine.interruptIgnored = false) (stored : engine.sessions.get? sid = some r)
    (answered : engine.interrupt sid = some (true, later)) :
    (engine.objects r).running = true ∧ later.objects r = (engine.objects r).cancelled := by
  simp only [interrupt, stored, unarmed] at answered
  split at answered
  case isTrue armed => cases armed
  case isFalse =>
    split at answered
    case isFalse => cases answered
    case isTrue running =>
      obtain ⟨last, cancelled, same⟩ := Option.map_eq_some_iff.mp answered
      cases same
      exact ⟨running, cancel_object filed cancelled⟩

theorem heeds_of_held {r : Nat} {op : Op} (held : ((next op engine).objects r).Held) :
    Heeds r op engine := by
  cases op with
  | work x step =>
    rintro rfl flag
    split
    case h_1 item place =>
      have unset := held.flag
      simp [next, work, modify, Session.work, Session.userMessage, place] at unset
    case h_2 ticket place =>
      have awake := held.awake
      simp [next, work, drawn, modify, Session.work, Session.requestPermission, place,
        Session.waits] at awake
    case h_3 ticket place =>
      have busy := held.busy
      simp [next, work, modify, Session.work, Session.declined, place, Session.Busy] at busy
    case h_4 => trivial
  | _ => trivial

structure Holding (r : Nat) (engine : Engine) : Prop where
  filed : engine.Filed
  made : r < engine.made
  sound : (engine.objects r).Sound
  held : (engine.objects r).Held

theorem Holding.next {r : Nat} {op : Op} (holding : engine.Holding r) (unended : op ≠ .work r .idle)
    (heeds : Heeds r op engine) : (Engine.next op engine).Holding r where
  filed := filed_next op holding.filed
  made := Nat.lt_of_lt_of_le holding.made (grows holding.filed op).made
  sound := sound_move holding.sound (moves holding.filed op r)
  held := held_next holding.filed holding.made unended heeds holding.sound holding.held

theorem holding_interrupt {sid : String} {r : Nat} {later : Engine} (filed : engine.Filed)
    (unarmed : engine.interruptIgnored = false) (sound : (engine.objects r).Sound)
    (stored : engine.sessions.get? sid = some r) (busy : (engine.objects r).Busy)
    (answered : engine.interrupt sid = some (true, later)) : later.Holding r := by
  obtain ⟨running, cancelled⟩ := interrupt_object filed unarmed stored answered
  have withdraws := interrupt_withdraws filed answered
  refine ⟨withdraws.filed filed, ?_, ?_, ?_⟩
  · exact Nat.lt_of_lt_of_le (filed sid r stored).2 withdraws.grows.made
  · rw [cancelled]
    exact sound.cancelled
  · rw [cancelled]
    exact Session.held_cancelled sound busy running

/-- Once an interrupt of a turn is answered, the flag stays set until the turn is idle, and the
session waits for no answer it does not have. -/
theorem interrupts_hold (ops more : List Op) {engine later : Engine} (sid : String) (r : Nat)
    (reached : Machine.after next ops (fresh false) = engine)
    (stored : engine.sessions.get? sid = some r) (busy : (engine.objects r).Busy)
    (answered : engine.interrupt sid = some (true, later))
    (heeds : Machine.Meets next (fun op engine =>
      op ≠ .work r .idle ∧ Heeds r op engine) more later) :
    ((Machine.after next more later).objects r).cancel = true ∧
      ((Machine.after next more later).objects r).waits = false := by
  subst reached
  have start := holding_interrupt (filed_after ops false) (interruptIgnored_after ops false)
    (sound_after ops false r) stored busy answered
  have holding := Machine.invariant (I := Holding r)
    (fun op engine kept condition => kept.next condition.1 condition.2) heeds start
  exact ⟨holding.held.flag, holding.held.awake⟩

theorem interrupts_hold_asking :
    let engine := Machine.after next
      [.create "a" "" "", .prompt "a" "go" none, .work 0 .pop, .work 0 .userMessage,
        .work 0 .requestPermission]
      (fresh false)
    let more : List Op :=
      [.interrupt "a", .prompt "a" "on" none, .replyPermission "a" 1 "once" none,
      .work 0 .wakeUp, .interrupt "a", .work 0 .judge]
    ((Machine.after next more engine).objects 0).cancel = true ∧
      ((Machine.after next more engine).objects 0).waits = false := by
  refine interrupts_hold
    [.create "a" "" "", .prompt "a" "go" none, .work 0 .pop, .work 0 .userMessage,
      .work 0 .requestPermission]
    [.prompt "a" "on" none, .replyPermission "a" 1 "once" none, .work 0 .wakeUp, .interrupt "a",
      .work 0 .judge]
    "a" 0 rfl rfl trivial rfl
    ⟨⟨?_, trivial⟩, ⟨?_, trivial⟩, ⟨?_, fun _ _ => trivial⟩, ⟨?_, trivial⟩, ⟨?_, fun _ _ =>
      trivial⟩, trivial⟩
  all_goals exact fun same => nomatch same

/-- A prompt is off the queue when the interrupt is answered, and its user message clears the flag;
or the turn is under way, and raises a request after the interrupt that nobody answers. -/
theorem interrupts_lost :
    let taken := Machine.after next
      [.create "a" "" "", .prompt "a" "go" none, .work 0 .pop] (fresh false)
    let turning := Machine.after next [.work 0 .userMessage] taken
    ((taken.objects 0).Busy ∧ (taken.interrupt "a").map Prod.fst = some true ∧
      ((Machine.after next [.interrupt "a", .work 0 .userMessage] taken).objects 0).cancel = false)
        ∧
    ((turning.objects 0).Busy ∧ (turning.interrupt "a").map Prod.fst = some true ∧
      ((Machine.after next [.interrupt "a", .work 0 .requestPermission] turning).objects 0).waits =
        true) :=
  ⟨⟨trivial, rfl, rfl⟩, trivial, rfl, rfl⟩

end Engine

end BlizzardMock.OpenCode2
