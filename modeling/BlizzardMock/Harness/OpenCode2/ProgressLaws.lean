import BlizzardMock.Harness.OpenCode2.InterruptLaws

namespace BlizzardMock.OpenCode2

namespace Session

variable {session later : Session} {stored : String → Bool} {request : Nat} {step : Section}

def backlog (session : Session) : Nat := session.pending.length + session.inbox.length

def unseen (session : Session) : Nat :=
  if session.worker = .delivering ∨ session.worker = .handing then session.inbox.length - 1
  else session.inbox.length

def ahead (session : Session) : Nat :=
  (if session.worker = .absent then 0 else 1) + session.pending.length + session.unseen

structure Handling (session : Session) : Prop where
  place : session.worker = .delivering ∨ session.worker = .handing
  some' : session.inbox ≠ []

/-- No wait before a delivery ends on a set flag while something is to be delivered. -/
def Clear (session : Session) (step : Section) : Prop :=
  step = .wait → session.worker = .delivering → session.cancel = true → session.inbox = []

theorem ahead_le : session.ahead ≤ session.backlog + 1 := by
  simp only [ahead, unseen, backlog]
  split <;> split <;> omega

theorem ahead_eq_of_present (here : session.worker ≠ .absent) (busy : session.worker ≠ .delivering)
    (busy' : session.worker ≠ .handing) : session.ahead = session.backlog + 1 := by
  simp only [ahead, unseen, backlog, here, busy, busy', or_self, if_false]
  omega

theorem Acts.ahead_le (acts : session.Acts stored request step later) (clear : session.Clear step) :
    later.ahead ≤ session.ahead := by
  cases acts with
  | turnedAway place flag =>
    have empty := clear rfl place flag
    simp [ahead, unseen, place, empty]
  | steered place first =>
    have shorter : (session.pending.eraseP fun item => item.kind = .steer).length ≤
      session.pending.length :=
      List.length_eraseP_le
    simpa [ahead, unseen, place] using shorter
  | idled place =>
    have whole : session.ahead = session.backlog + 1 :=
      ahead_eq_of_present (by simp [place]) (by simp [place]) (by simp [place])
    rw [whole]
    refine Nat.le_trans ahead_le (Nat.succ_le_succ ?_)
    simp only [backlog]
    split <;> simp
  | _ => simp [ahead, unseen, *]

theorem pop_ahead (top : session.worker = .looping) (there : Bool) :
    (session.pop there).ahead < session.ahead := by
  simp only [pop, top]
  split
  case isTrue => simp [ahead, unseen, top]
  case isFalse =>
    split
    case h_1 item rest first => split <;> simp [ahead, unseen, top, first]
    case h_2 empty =>
      split
      case isTrue some' =>
        have some' := List.length_pos_of_ne_nil some'
        simp only [ahead, unseen, top, empty]
        simp
        omega
      case isFalse none' => simp [ahead, unseen, top, empty, not_not.mp none']

theorem start_ahead (sound : session.Sound) : session.start.ahead ≤ session.ahead + 1 := by
  rw [start]
  split
  case isTrue => omega
  case isFalse idle =>
    have absent : session.worker = .absent := by
      by_contra here
      exact idle (sound.live here)
    simp [ahead, unseen, absent]
    omega

theorem Acts.handling (acts : session.Acts stored request step later) (clear : session.Clear step)
    (handling : session.Handling) : later.backlog < session.backlog ∨ later.Handling := by
  obtain ⟨place, some'⟩ := handling
  cases acts with
  | elsewhere => exact .inr ⟨place, some'⟩
  | turnedAway place flag => exact absurd (clear rfl place flag) some'
  | handing => exact .inr ⟨.inr rfl, some'⟩
  | foundEmpty _ empty => exact absurd empty some'
  | delivered place first => exact .inl (by simp [backlog, first])
  | _ => simp [*] at place

@[simp] theorem start_backlog : session.start.backlog = session.backlog := by
  rw [start]
  split <;> rfl

@[simp] theorem accept_backlog (item : Item) : (session.accept item).backlog =
      session.backlog + 1 := by
  rw [accept, start_backlog]
  simp only [backlog, List.length_append, List.length_singleton]
  omega

@[simp] theorem hear_backlog (entry : Entry) : (session.hear entry).backlog =
      session.backlog + 1 := by
  rw [hear, start_backlog]
  simp only [backlog, List.length_append, List.length_singleton]
  omega

theorem Acts.childSettled_backlog (acts : session.Acts stored request .childSettled later) :
    later.backlog = session.backlog := by
  cases acts <;> rfl

theorem Acts.childSettled_handling (acts : session.Acts stored request .childSettled later)
    (handling : session.Handling) : later.Handling := by
  refine (acts.handling (fun wait => nomatch wait) handling).resolve_left ?_
  rw [acts.childSettled_backlog]
  exact Nat.lt_irrefl _

theorem accept_ahead (sound : session.Sound) (item : Item) : (session.accept item).ahead ≤
      session.ahead + 2 := by
  let filed : Session := { session with pending := session.pending ++ [item] }
  have more : filed.ahead = session.ahead + 1 := by
    simp only [filed, ahead, unseen, List.length_append, List.length_singleton]
    omega
  have started : filed.start.ahead ≤ filed.ahead + 1 := start_ahead ⟨sound.live, sound.asked⟩
  exact Nat.le_trans started (by omega)

theorem hear_ahead (sound : session.Sound) (entry : Entry) : (session.hear entry).ahead ≤
      session.ahead + 2 := by
  let filed : Session := { session with inbox := session.inbox ++ [entry] }
  have unseen_le : filed.unseen ≤ session.unseen + 1 := by
    by_cases going : session.worker = .delivering ∨ session.worker = .handing
    · simp only [filed, unseen, if_pos going, List.length_append, List.length_singleton]
      omega
    · simp [filed, unseen, if_neg going]
  have more : filed.ahead ≤ session.ahead + 1 := by
    have same : filed.ahead = session.ahead - session.unseen + filed.unseen := by
      rw [ahead, ahead, Nat.add_sub_cancel_right]
    rw [same, ahead]
    omega
  have started : filed.start.ahead ≤ filed.ahead + 1 := start_ahead ⟨sound.live, sound.asked⟩
  exact Nat.le_trans started (by omega)

theorem cancelled_ahead : session.cancelled.ahead ≤ session.ahead := by
  have none' : session.cancelled.unseen = 0 := by simp [unseen, cancelled]
  have whole : session.cancelled.ahead = if session.worker = .absent then 0 else 1 := by
    rw [ahead, none']
    rfl
  rw [whole, ahead, Nat.add_assoc]
  exact Nat.le_add_right _ _

theorem replied_ahead (id : Nat) (decision : String) (message : Option String) :
    (session.replied id decision message).ahead = session.ahead := by
  rw [replied]
  split <;> rfl

theorem Handling.start (handling : session.Handling) (sound : session.Sound) :
    session.start.Handling := by
  have running : session.running = true := by
    apply sound.live
    obtain place | place := handling.place <;> simp [place]
  rw [Session.start, if_pos running]
  exact handling

theorem Handling.accept (handling : session.Handling) (sound : session.Sound) (item : Item) :
    (session.accept item).Handling :=
  Handling.start ⟨handling.place, handling.some'⟩ ⟨sound.live, sound.asked⟩

theorem Handling.hear (handling : session.Handling) (sound : session.Sound) (entry : Entry) :
    (session.hear entry).Handling :=
  Handling.start ⟨handling.place, by simp⟩ ⟨sound.live, sound.asked⟩

theorem Handling.replied (handling : session.Handling) (id : Nat) (decision : String)
    (message : Option String) : (session.replied id decision message).Handling := by
  rw [Session.replied]
  split
  case h_1 => exact handling
  case h_2 => exact ⟨handling.place, handling.some'⟩

def Resting (session : Session) : Prop := session.worker = .absent → session.running = false

theorem Resting.start (resting : session.Resting) : session.start.Resting := by
  rw [Session.start]
  split
  case isTrue => exact resting
  case isFalse =>
    intro absent
    cases absent

theorem Acts.resting (acts : session.Acts stored request step later)
    (there : stored session.id = true)
    (resting : session.Resting) : later.Resting := by
  cases acts with
  | elsewhere => exact resting
  | left _ gone => simp [there] at gone
  | rested => exact fun _ => rfl
  | idled =>
    intro absent
    dsimp only at absent
    split at absent <;> cases absent
  | _ => simp [Resting, *]

theorem Resting.replied (resting : session.Resting) (id : Nat) (decision : String)
    (message : Option String) :
    (session.replied id decision message).Resting := by
  rw [Session.replied]
  split
  case h_1 => exact resting
  case h_2 => exact resting

end Session

namespace Engine

variable {engine : Engine} {x : Nat} {op : Op}

/-- A step of a session's worker is one that `Session.Clear` allows. -/
def Clear (x : Nat) : Op → Engine → Prop
  | .work object step, engine => object = x → (engine.objects x).Clear step
  | _, _ => True

def looks (x : Nat) : Op → Engine → Bool
  | .work object .pop, engine => decide (object = x ∧ (engine.objects x).worker = .looping)
  | _, _ => false

def arrives (x : Nat) (op : Op) (engine : Engine) : Bool :=
  decide ((engine.objects x).backlog < ((next op engine).objects x).backlog)

/-- Something leaves the queues of a session: its own worker takes it off, or a request withdraws
it. -/
structure Leaves (x : Nat) (op : Op) (engine : Engine) : Prop where
  by' : (∃ step, op = .work x step) ∨ engine.Covers x op
  fewer : ((next op engine).objects x).backlog < (engine.objects x).backlog

/-- The worker of a session of the store is at the top of its loop, and something waits for it. -/
structure Finds (x : Nat) (engine : Engine) : Prop where
  made : x < engine.made
  stored : (engine.objects x).id ∈ engine.sessions
  top : (engine.objects x).worker = .looping
  some' : 0 < (engine.objects x).backlog

theorem objects_pop : ((next (.work x .pop) engine).objects x) =
    (engine.objects x).pop (decide ((engine.objects x).id ∈ engine.sessions)) := by
  simp [next, work, modify, Session.work]

theorem Move.ahead_le {tickets : Nat} {session : Session} (move : engine.Move x tickets op session)
    (sound : (engine.objects x).Sound) (clear : Clear x op engine) :
    session.ahead ≤ (engine.objects x).ahead +
      2 * (decide ((engine.objects x).backlog < session.backlog)).toNat := by
  cases move with
  | stays => omega
  | created => exact Nat.zero_le _
  | @accepted _ item =>
    have grown := Session.accept_ahead sound item
    simpa using grown
  | @told _ entry =>
    have grown := Session.hear_ahead sound entry
    simpa using grown
  | @toldItself entry =>
    have grown := Session.hear_ahead sound entry
    refine Nat.le_trans (Session.acts.ahead_le fun wait => nomatch wait) ?_
    simpa [Session.acts.childSettled_backlog] using grown
  | worked => exact Nat.le_trans (Session.acts.ahead_le (clear rfl)) (Nat.le_add_right _ _)
  | cancelled => exact Nat.le_trans Session.cancelled_ahead (Nat.le_add_right _ _)
  | replied => rw [Session.replied_ahead]; omega

theorem ahead_next (filed : engine.Filed) (sound : (engine.objects x).Sound) (op : Op)
    (clear : Clear x op engine) :
    (looks x op engine).toNat + ((next op engine).objects x).ahead ≤
      (engine.objects x).ahead + 2 * (arrives x op engine).toNat := by
  have kept := (moves filed op x).ahead_le sound clear
  by_cases looked : looks x op engine = true
  case neg => simpa [looked, arrives] using kept
  case pos =>
    obtain ⟨rfl, top⟩ : op = .work x .pop ∧ (engine.objects x).worker = .looping := by
      cases op with
      | work object step =>
        cases step with
        | pop =>
          obtain ⟨rfl, top⟩ := of_decide_eq_true looked
          exact ⟨rfl, top⟩
        | _ => cases looked
      | _ => cases looked
    have used := Session.pop_ahead top (decide ((engine.objects x).id ∈ engine.sessions))
    rw [looked, objects_pop, Bool.toNat_true]
    omega

theorem handling_next (filed : engine.Filed) (made : x < engine.made)
    (sound : (engine.objects x).Sound)
    (clear : Clear x op engine) (handling : (engine.objects x).Handling) :
    Leaves x op engine ∨ ((next op engine).objects x).Handling := by
  have move := moves filed op x
  have leaves : ((∃ step, op = .work x step) ∨ engine.Covers x op) →
      ((next op engine).objects x).backlog < (engine.objects x).backlog → Leaves x op engine := .mk
  generalize (next op engine).objects x = session at move leaves ⊢
  cases move with
  | stays => exact .inr handling
  | created new => omega
  | accepted => exact .inr (handling.accept sound _)
  | told => exact .inr (handling.hear sound _)
  | toldItself => exact .inr (Session.acts.childSettled_handling (handling.hear sound _))
  | @worked step =>
    refine (Session.acts.handling (clear rfl) handling).imp_left ?_
    exact leaves (.inl ⟨step, rfl⟩)
  | cancelled covers =>
    refine .inl (leaves (.inr covers) ?_)
    have some' := List.length_pos_of_ne_nil handling.some'
    simp only [Session.backlog, Session.cancelled, List.length_nil]
    omega
  | replied => exact .inr (handling.replied _ _ _)

structure Delivering (x : Nat) (engine : Engine) : Prop where
  filed : engine.Filed
  made : x < engine.made
  sound : (engine.objects x).Sound
  handling : (engine.objects x).Handling

theorem Delivering.next (delivering : Delivering x engine) (clear : Clear x op engine) :
    Leaves x op engine ∨ Delivering x (Engine.next op engine) := by
  obtain ⟨filed, made, sound, handling⟩ := delivering
  refine (handling_next filed made sound clear handling).imp_right fun handling' => ?_
  exact ⟨filed_next op filed, Nat.lt_of_lt_of_le made (grows filed op).made,
    sound_move sound (moves filed op x), handling'⟩

theorem iteration_takes (filed : engine.Filed) (sound : (engine.objects x).Sound)
    {iteration : List Op}
    (finds : Finds x engine)
    (clear : Machine.Meets next (Clear x) (.work x .pop :: iteration) engine)
    (back : ((Machine.after next (.work x .pop :: iteration) engine).objects x).worker = .looping) :
    Machine.Occurs next (Leaves x) (.work x .pop :: iteration) engine := by
  obtain ⟨made, stored, top, some'⟩ := finds
  have popped : ((next (.work x .pop) engine).objects x) = (engine.objects x).pop true := by
    rw [objects_pop, decide_eq_true stored]
  cases first : (engine.objects x).pending with
  | cons item rest =>
    refine .inl ⟨.inl ⟨.pop, rfl⟩, ?_⟩
    rw [popped]
    simp [Session.pop, top, first, Session.backlog]
  | nil =>
    have result : (engine.objects x).inbox ≠ [] := by
      simpa [Session.backlog, first, List.length_pos_iff] using some'
    have delivering : Delivering x (next (.work x .pop) engine) := by
      refine ⟨filed_next _ filed, Nat.lt_of_lt_of_le made (grows filed _).made,
        sound_move sound (moves filed _ x), ?_⟩
      rw [popped]
      simp only [Session.pop, top, first, Bool.true_eq_false, if_false, if_pos result]
      exact ⟨.inl rfl, result⟩
    refine .inr ((Machine.occurs_or (fun op engine kept met => kept.next met)
      clear.2 delivering).resolve_right ?_)
    intro going
    obtain place | place := going.handling.place
    · exact absurd (back.symm.trans place) (by simp)
    · exact absurd (back.symm.trans place) (by simp)

def Rests (engine : Engine) : Prop :=
  ∀ sid x, engine.sessions.get? sid = some x → (engine.objects x).Resting

theorem Move.resting {sid : String} {tickets : Nat} {session : Session}
    (move : engine.Move x tickets op session) (filed : engine.Filed)
    (stored : engine.sessions.get? sid = some x) (resting : (engine.objects x).Resting) :
    session.Resting := by
  have there : decide ((engine.objects x).id ∈ engine.sessions) = true := by
    rw [(filed sid x stored).1]
    exact decide_eq_true (Dict.mem_iff.mpr ⟨x, stored⟩)
  cases move with
  | stays => exact resting
  | created new => exact fun _ => rfl
  | accepted => exact Session.Resting.start resting
  | told => exact Session.Resting.start resting
  | toldItself =>
    exact Session.acts.resting (by rw [Session.hear_id]; exact there) (Session.Resting.start resting)
  | worked => exact Session.acts.resting there resting
  | cancelled => exact resting
  | replied => exact resting.replied _ _ _

theorem rests_next (op : Op) (filed : engine.Filed) (rests : engine.Rests) :
    (next op engine).Rests := by
  intro sid x stored
  obtain before | ⟨parent, title, rfl, new, rfl⟩ := stored_next filed op stored
  · exact (moves filed op x).resting filed before (rests sid x before)
  · simp only [next, create, if_neg new, Function.update_self]
    exact fun _ => rfl

theorem rests_after (ops : List Op) (interruptIgnored : Bool) :
    (Machine.after next ops (fresh interruptIgnored)).Rests :=
  always ops (fun _ _ stored => nomatch stored) fun op _ => rests_next op

theorem modify_modify (engine : Engine) (object : Nat) (f g : Session → Session) :
    (engine.modify object f).modify object g = engine.modify object (g ∘ f) := by
  simp [modify]

theorem modify_eq_self {object : Nat} {f : Session → Session}
    (same : f (engine.objects object) = engine.objects object) :
    engine.modify object f = engine := by
  rw [modify, same, Function.update_eq_self]

theorem delivery_spins (stored : (engine.objects x).id ∈ engine.sessions)
    (top : (engine.objects x).worker = .looping) (empty : (engine.objects x).pending = [])
    (some' : (engine.objects x).inbox ≠ []) (flag : (engine.objects x).cancel = true) :
    Machine.after next [.work x .pop, .work x .wait] engine = engine := by
  simp only [Machine.after_cons, Machine.after_nil, next, work, modify_modify]
  apply modify_eq_self
  generalize engine.objects x = session at *
  obtain ⟨id, parentId, title, outcome, messages, running, current, pending, inbox, asks,
    cancel, children,
    finalText, worker⟩ := session
  cases top
  cases empty
  cases flag
  simp [Session.work, Session.pop, Session.wait, stored, some']

theorem after_replicate_flatten {round : List Op}
    (same : Machine.after next round engine = engine) (n : Nat) :
    Machine.after next (List.replicate n round).flatten engine = engine := by
  induction n with
  | zero => rfl
  | succ n ih => rw [List.replicate_succ, List.flatten_cons, Machine.after_append, same, ih]

/-- A worker whose waits before a delivery find the flag clear makes progress.  An iteration of it
that finds something takes something off, or what it found is withdrawn; it looks no more often than
something waits or arrives, and once more; and where nothing arrives, it is gone after as many
looks, and the session is not running. -/
theorem workers_progress (ops more : List Op) (interruptIgnored : Bool) (x : Nat)
    (clear : Machine.Meets next (Clear x) more (Machine.after next ops (fresh interruptIgnored))) :
    let engine := Machine.after next ops (fresh interruptIgnored)
    let later := Machine.after next more engine
    (∀ first iteration rest, more = first ++ (.work x .pop :: iteration) ++ rest →
      Finds x (Machine.after next first engine) →
      ((Machine.after next (first ++ .work x .pop :: iteration) engine).objects x).worker =
        .looping →
        Machine.Occurs next (Leaves x) (.work x .pop :: iteration)
          (Machine.after next first engine)) ∧
    Machine.times next (looks x) more engine ≤
      (engine.objects x).backlog + 1 + 2 * Machine.times next (arrives x) more engine ∧
    (Machine.times next (arrives x) more engine = 0 →
      (engine.objects x).backlog < Machine.times next (looks x) more engine →
        (later.objects x).worker = .absent ∧
          ∀ sid, later.sessions.get? sid = some x → (later.objects x).running = false) := by
  intro engine later
  have bound : Machine.times next (looks x) more engine + (later.objects x).ahead ≤
      (engine.objects x).ahead + 2 * Machine.times next (arrives x) more engine :=
    Machine.times_le (I := fun engine : Engine => engine.Filed ∧ (engine.objects x).Sound)
      (fun engine => (engine.objects x).ahead)
      (fun op engine kept => ⟨filed_next op kept.1, sound_move kept.2 (moves kept.1 op x)⟩)
      (fun op engine kept met => ahead_next kept.1 kept.2 op met) clear
      ⟨filed_after ops interruptIgnored, sound_after ops interruptIgnored x⟩
  have start : (engine.objects x).ahead ≤ (engine.objects x).backlog + 1 := Session.ahead_le
  refine ⟨?_, by omega, ?_⟩
  · rintro first iteration rest rfl finds back
    have met := (Machine.meets_append _ rest _).mp clear
    have parts := (Machine.meets_append first _ _).mp met.1
    have reached : Machine.after next first engine = Machine.after next (ops ++ first)
      (fresh interruptIgnored) :=
      (Machine.after_append ops first _).symm
    rw [Machine.after_append] at back
    rw [reached] at finds parts back ⊢
    exact iteration_takes (filed_after _ _) (sound_after _ _ x) finds parts.2 back
  · intro none' looked
    have spent : (later.objects x).ahead = 0 := by omega
    have absent : (later.objects x).worker = .absent := by
      by_contra here
      simp [Session.ahead, here] at spent
    have reached : later = Machine.after next (ops ++ more) (fresh interruptIgnored) :=
      (Machine.after_append ops more _).symm
    refine ⟨absent, fun sid stored => ?_⟩
    have rests : later.Rests := reached ▸ rests_after (ops ++ more) interruptIgnored
    exact rests sid x stored absent

def background : List Op :=
  [.create "a" "" "", .prompt "a" "go" none, .work 0 .pop, .work 0 .userMessage, .create "b" "a" "",
    .prompt "b" "go" none, .work 0 (.spawned "b" true), .work 1 .pop, .work 1 .userMessage,
    .work 1 (.finish false), .work 1 .idle]

def delivery : List Op :=
  [.work 1 .childSettled, .work 0 (.finish false), .work 0 .idle, .work 0 .pop, .work 0 .wait,
    .work 0 .deliverInbox, .work 0 (.finish false), .work 0 .idle, .work 0 .pop]

theorem workers_progress_delivery :
    let engine := Machine.after next background (fresh false)
    let later := Machine.after next delivery engine
    Machine.Occurs next (Leaves 0)
      [.work 0 .pop, .work 0 .wait, .work 0 .deliverInbox, .work 0 (.finish false), .work 0 .idle]
      (Machine.after next (delivery.take 3) engine) ∧
    Machine.times next (looks 0) delivery engine ≤
      (engine.objects 0).backlog + 1 + 2 * Machine.times next (arrives 0) delivery engine ∧
    (later.objects 0).running = false := by
  intro engine later
  have clear : Machine.Meets next (Clear 0) delivery engine := by
    refine ⟨fun other => absurd other (by decide), ?_, ?_, ?_, ?_, ?_, ?_, ?_, ?_, trivial⟩
    case refine_4 => exact fun _ _ _ flag => absurd flag (by decide)
    all_goals exact fun _ wait => nomatch wait
  have progress := workers_progress background delivery false 0 clear
  refine ⟨?_, progress.2.1, rfl⟩
  refine progress.1 (delivery.take 3) _ [.work 0 .pop] rfl ⟨?_, ?_, rfl, ?_⟩ rfl <;> decide

def crossed : List Op :=
  [.interrupt "a", .work 1 .childSettled, .work 0 .notice, .work 0 .idle]

theorem crossed_interrupt_spins :
    let engine := Machine.after next (background ++ crossed) (fresh false)
    Finds 0 engine ∧ ∀ n,
      Machine.after next (List.replicate n [.work 0 .pop, .work 0 .wait]).flatten engine =
        engine := by
  intro engine
  exact ⟨⟨by decide, by decide, rfl, by decide⟩,
    after_replicate_flatten (delivery_spins (by decide) rfl rfl (by decide) rfl)⟩

end Engine

end BlizzardMock.OpenCode2
