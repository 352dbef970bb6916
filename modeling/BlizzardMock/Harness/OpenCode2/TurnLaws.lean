import BlizzardMock.Harness.OpenCode2.Turns
import BlizzardMock.Python.DateTime

namespace BlizzardMock.OpenCode2

def Point.Over : Point → Prop
  | .declined | .returned | .crashed => True
  | _ => False

def Found.overflows [Unicode] (found : Found) : Bool :=
  match found.line with
  | some (.obj fields) =>
    match Turn.Request.read fields with
    | .usage _ cost => tooLarge cost
    | _ => false
  | _ => false

namespace Turn

/-- What a turn is judged by: how often each of its steps was ended, how often it idled, and whether
one of its requests was rejected for good. -/
structure Book where
  endings : List Nat
  closed : Bool
  idles : Nat
  rejected : Bool
  deriving DecidableEq

def book (turn : Turn) : Book where
  endings := turn.steps.map (·.ended)
  closed := turn.closed
  idles := turn.idles.length
  rejected := turn.rejected

namespace Book

def writing (n : Nat) (rejected : Bool) : Book := ⟨0 :: List.replicate n 1, false, 0, rejected⟩

def settled (n : Nat) (closed : Bool) (idles : Nat) (rejected : Bool) : Book :=
  ⟨List.replicate n 1, closed, idles, rejected⟩

/-- What the book of a turn is at each of its points. -/
def Fits (book : Book) : Point → Prop
  | .fencing | .opening | .restarting _ | .idling _ _ _ =>
    ∃ n closed, book = settled n closed 0 false
  | .boundary | .reopening => ∃ n, book = settled n true 0 false
  | .steered _ => (∃ n, book = settled n true 0 false) ∨ ∃ n, book = writing n false
  | .over .byFailure | .returned => ∃ n closed, book = settled n closed 1 false
  | .woken _ _ _ ask => ∃ n, book = writing n ask.declines
  | .declining => ∃ n, book = writing n true
  | .declined => ∃ n closed, book = settled n closed 0 true
  | .crashed => False
  | _ => ∃ n, book = writing n false

variable (book : Book)

def opened : Book := { book with endings := 0 :: book.endings, closed := false }

def ended : Book := { book with endings := book.endings.modifyHead (· + 1) }

def shut : Book := if book.closed then book else { book.ended with closed := true }

theorem ended_writing (n : Nat) (rejected : Bool) :
    (writing n rejected).ended = settled (n + 1) false 0 rejected := rfl

theorem shut_writing (n : Nat) : (writing n false).shut = settled (n + 1) true 0 false := rfl

theorem shut_settled (n : Nat) : (settled n true 0 false).shut = settled n true 0 false := rfl

end Book

/-- The book of a turn is what it has to be where the turn is. -/
def Sound (turn : Turn) : Prop := turn.book.Fits turn.point

/-- A step of the turn that starts its child, and finds no interrupt after a failure of the script
or a rejection and no cost that no float holds. -/
def Clean [Unicode] : Event → Turn → Prop
  | .advance found, turn =>
    match turn.point with
    | .opening => found.started = true
    | .over .byFailure => turn.cancel = false
    | .woken _ _ _ ask => ask.declines = true → turn.cancel = false
    | .reading => found.overflows = false
    | _ => True
  | _, _ => True

section Books

variable (turn : Turn)

@[simp] theorem book_goTo (point : Point) : (turn.goTo point).book = turn.book := rfl

@[simp] theorem book_addPart (part : Part) : (turn.addPart part).book = turn.book := by
  cases h : turn.steps <;> simp [book, addPart, onStep, h]

@[simp] theorem book_setStatus (call : String) (status : Status) :
    (turn.setStatus call status).book = turn.book := by
  simp [book, setStatus, Function.comp_def]

@[simp] theorem book_completeTool (call output : String) (metadata : Fields) :
    (turn.completeTool call output metadata).book = turn.book := book_setStatus ..

@[simp] theorem book_failTool (call kind message : String) :
    (turn.failTool call kind message).book = turn.book := book_setStatus ..

theorem book_failStep (error : Fields) : (turn.failStep error).book = turn.book.ended := by
  cases h : turn.steps <;> simp [book, failStep, onStep, Book.ended, h]

theorem book_abort (message : String) : (turn.abort message).book = turn.book.ended := by
  cases h : turn.steps <;> simp [book, abort, onStep, Book.ended, h]

theorem book_close (finish : String) : (turn.close finish).book = turn.book.shut := by
  cases h : turn.closed <;> cases h' : turn.steps <;>
    simp [book, close, onStep, Book.shut, Book.ended, h, h']

theorem book_idle (outcome : Outcome) (error : Option Fields) (byScript : Bool) :
    (turn.idle outcome error byScript).book = { turn.book with idles := turn.book.idles + 1 } := by
  simp [book, idle]

end Books

@[simp] theorem sound_goTo {turn : Turn} {point : Point} : (turn.goTo point).Sound ↔
      turn.book.Fits point :=
  .rfl

variable {turn : Turn}

theorem sound_steer {next : Point} (left : ∀ text, turn.book.Fits (.steered text))
    (fits : turn.book.Fits next) : (turn.steer next).Sound := by
  rw [steer]
  split
  case h_1 text _ => exact left text
  case h_2 => exact fits

section Writing

/-! The step is being written, and nothing is decided yet. -/

variable {n : Nat} (writes : turn.book = .writing n false)

include writes

theorem sound_heed {next : Turn} (sound : next.Sound) : (turn.heed next).Sound := by
  rw [heed]
  split
  case isTrue => exact ⟨n, writes⟩
  case isFalse => exact sound

theorem sound_allow (call : String) : (turn.allow call).Sound := ⟨n, writes⟩

theorem sound_report (call : String) {told : Turn} (same : told.book = turn.book) :
    (turn.report call told).Sound := by
  rw [report, sound_goTo]
  refine ⟨n, ?_⟩
  split
  case isTrue => exact same.trans writes
  case isFalse => exact writes

theorem sound_settle (call child : String) (reply : Option String) :
    (turn.settle call child reply).Sound := by
  cases reply with
  | none => exact ⟨n, (book_failTool ..).trans writes⟩
  | some reply => exact ⟨n, (book_completeTool ..).trans writes⟩

variable [Unicode]

theorem sound_openTool (call name : String) (input : Fields) {next : Point}
    (fits : (Book.writing n false).Fits next) : (turn.openTool call name input next).Sound := by
  rw [openTool]
  split
  case isTrue => exact ⟨n, writes⟩
  case isFalse => simpa [writes] using fits

theorem sound_hear (found : Found) {request : Request}
    (small : ∀ tokens cost, request = .usage tokens cost → tooLarge cost = false) :
    (turn.hear found request).Sound := by
  cases request with
  | text content => exact ⟨n, (book_addPart ..).trans writes⟩
  | reasoning content => exact ⟨n, (book_addPart ..).trans writes⟩
  | usage tokens cost =>
    simp only [hear, small tokens cost rfl]
    exact ⟨n, writes⟩
  | step => exact ⟨n + 1, (book_close ..).trans (by rw [writes, Book.shut_writing])⟩
  | tool name resource input ask => exact sound_openTool writes _ _ _ ⟨n, rfl⟩
  | toolDone call output metadata => exact sound_report writes call (book_completeTool ..)
  | toolFailed call kind message => exact sound_report writes call (book_failTool ..)
  | subagent script description background => exact sound_openTool writes _ _ _ ⟨n, rfl⟩
  | form => exact ⟨n, writes⟩
  | ends => exact ⟨n, writes⟩
  | fails error => exact ⟨n, writes⟩
  | other => exact ⟨n, writes⟩

theorem sound_judge (call name resource : String) (ask : Bool) :
    (turn.judge call name resource ask).Sound := by
  unfold judge
  extract_lets effect judged
  split
  case isTrue => exact ⟨n, (book_failTool ..).trans writes⟩
  case isFalse =>
    split
    case isTrue => exact ⟨n, (book_setStatus ..).trans writes⟩
    case isFalse => exact sound_allow writes call

end Writing

theorem sound_heedAnswer {n : Nat} {ask : Ask} (writes : turn.book = .writing n ask.declines)
    (heard : ask.declines = true → turn.cancel = false) (call name resource : String) :
    (turn.heedAnswer call name resource ask).Sound := by
  rw [heedAnswer]
  by_cases declines : ask.declines = true
  · have reject := declines
    simp only [Ask.declines, Bool.and_eq_true, decide_eq_true_eq] at reject
    rw [declines] at writes
    simp only [reject, heard declines]
    exact ⟨n, writes⟩
  · simp only [Bool.not_eq_true] at declines
    rw [declines] at writes
    split
    case h_1 => exact ⟨n, writes⟩
    case h_2 decision decided =>
      split
      case isTrue => exact ⟨n, writes⟩
      case isFalse =>
        split
        case isTrue rejects =>
          split
          case h_1 message _ => exact ⟨n, (book_failTool ..).trans writes⟩
          case h_2 silent => simp [Ask.declines, decided, rejects, silent] at declines
        case isFalse =>
          split
          case isTrue => exact ⟨n, writes⟩
          case isFalse => exact sound_allow writes call

theorem Sound.fits (sound : turn.Sound) {point : Point} (here : turn.point = point) :
    turn.book.Fits point :=
  here ▸ sound

theorem settled_of_ended {n : Nat} {rejected : Bool}
    (writes : turn.book = .writing n rejected) {next : Turn}
    (ended : next.book = turn.book.ended) : next.book = .settled (n + 1) false 0 rejected := by
  rw [ended, writes, Book.ended_writing]

section Advancing

variable [Unicode]

variable {found : Found}

theorem sound_opening (sound : turn.Sound) (here : turn.point = .opening)
    (started : found.started = true) :
    (turn.advance found).Sound := by
  obtain ⟨n, closed, book⟩ := sound.fits here
  simp only [Turn.advance, here, started]
  exact ⟨n, congrArg Book.opened book⟩

theorem sound_reading (sound : turn.Sound) (here : turn.point = .reading)
    (small : found.overflows = false) :
    (turn.advance found).Sound := by
  obtain ⟨n, writes⟩ := sound.fits here
  simp only [Turn.advance, here]
  cases heard : found.line with
  | none => exact ⟨n, writes⟩
  | some line =>
    cases line with
    | obj fields =>
      refine sound_hear writes found ?_
      intro tokens cost usage
      simpa only [Found.overflows, heard, usage] using small
    | _ => exact sound

theorem sound_asking (sound : turn.Sound) {call name resource : String}
    (here : turn.point = .asking call name resource) : (turn.advance found).Sound := by
  obtain ⟨n, writes⟩ := sound.fits here
  simp only [Turn.advance, here]
  cases turn.ask with
  | none => exact sound
  | some ask =>
    dsimp only
    split
    case isTrue =>
      have asked : turn.rejected = false := congrArg Book.rejected writes
      refine ⟨n, (book_setStatus ..).trans ?_⟩
      change { turn.book with rejected := turn.rejected || ask.declines } = _
      rw [writes, asked]
      rfl
    case isFalse => exact sound

theorem sound_waiting (sound : turn.Sound) {call child : String}
    (here : turn.point = .waiting call child) :
    (turn.advance found).Sound := by
  obtain ⟨n, writes⟩ := sound.fits here
  simp only [Turn.advance, here]
  cases found.settled with
  | true => exact sound_settle writes call child found.finalText
  | false => exact sound_heed writes sound

theorem sound_form (sound : turn.Sound) (here : turn.point = .form) :
    (turn.advance found).Sound := by
  obtain ⟨n, writes⟩ := sound.fits here
  simp only [Turn.advance, here]
  cases found.settled with
  | true => exact ⟨n, writes⟩
  | false => exact sound_heed writes sound

theorem sound_checking (sound : turn.Sound) {reply : Option Reply}
    (here : turn.point = .checking reply) :
    (turn.advance found).Sound := by
  obtain ⟨n, writes⟩ := sound.fits here
  simp only [Turn.advance, here]
  refine sound_heed writes ?_
  split
  case isTrue => exact ⟨n, writes⟩
  case isFalse => exact ⟨n, writes⟩

theorem sound_idling (sound : turn.Sound) {outcome : Outcome} {error : Option Fields}
    {byScript : Bool}
    (here : turn.point = .idling outcome error byScript) : (turn.advance found).Sound := by
  obtain ⟨n, closed, book⟩ := sound.fits here
  have idled := book_idle turn outcome error byScript
  rw [book] at idled
  simp only [Turn.advance, here]
  cases byScript with
  | true => exact ⟨n, closed, idled⟩
  | false => exact ⟨n, closed, idled⟩

theorem sound_over (sound : turn.Sound) {how : Ended} (here : turn.point = .over how)
    (heard : how = .byFailure → turn.cancel = false) : (turn.advance found).Sound := by
  have fits := sound.fits here
  simp only [Turn.advance, here]
  cases how with
  | byEnd =>
    obtain ⟨n, writes⟩ := fits
    exact sound_heed writes ⟨n, writes⟩
  | byClosing =>
    obtain ⟨n, writes⟩ := fits
    exact sound_heed writes ⟨n, writes⟩
  | byFailure =>
    simp only [heed, heard rfl]
    exact fits

theorem sound_steered (sound : turn.Sound) {text : String} (here : turn.point = .steered text) :
    (turn.advance found).Sound := by
  have fits := sound.fits here
  simp only [Turn.advance, here]
  cases fits with
  | inl shut =>
    obtain ⟨n, book⟩ := shut
    exact ⟨n, true, (book_close ..).trans (by rw [book, Book.shut_settled])⟩
  | inr writing =>
    obtain ⟨n, writes⟩ := writing
    exact ⟨n + 1, true, (book_close ..).trans (by rw [writes, Book.shut_writing])⟩

theorem Sound.advance (sound : turn.Sound) (clean : Clean (.advance found) turn) :
    (turn.advance found).Sound := by
  cases here : turn.point with
  | opening => exact sound_opening sound here (by simpa only [Clean, here] using clean)
  | reading => exact sound_reading sound here (by simpa only [Clean, here] using clean)
  | asking call name resource => exact sound_asking sound here
  | waiting call child => exact sound_waiting sound here
  | form => exact sound_form sound here
  | checking reply => exact sound_checking sound here
  | idling outcome error byScript => exact sound_idling sound here
  | steered text => exact sound_steered sound here
  | «over» how =>
    refine sound_over sound here fun failed => ?_
    subst failed
    simpa only [Clean, here] using clean
  | declined | returned | crashed =>
    simp only [Turn.advance, here]
    exact sound
  | fencing =>
    have fits := sound.fits here
    simp only [Turn.advance, here]
    split
    all_goals exact fits
  | greeting =>
    have fits := sound.fits here
    simp only [Turn.advance, here]
    cases found.written with
    | true => exact fits
    | false => exact fits
  | boundary =>
    have fits := sound.fits here
    simp only [Turn.advance, here]
    exact sound_steer (fun _ => .inl fits) fits
  | reopening =>
    obtain ⟨n, book⟩ := sound.fits here
    simp only [Turn.advance, here]
    exact ⟨n, congrArg Book.opened book⟩
  | judging call name resource ask =>
    obtain ⟨n, writes⟩ := sound.fits here
    simp only [Turn.advance, here]
    exact sound_judge writes call name resource ask
  | woken call name resource ask =>
    obtain ⟨n, writes⟩ := sound.fits here
    simp only [Clean, here] at clean
    simp only [Turn.advance, here]
    exact sound_heedAnswer writes clean call name resource
  | spawned call child background =>
    obtain ⟨n, writes⟩ := sound.fits here
    simp only [Turn.advance, here]
    cases background with
    | true => exact ⟨n, (book_completeTool ..).trans writes⟩
    | false => exact ⟨n, writes⟩
  | grace child =>
    obtain ⟨n, writes⟩ := sound.fits here
    simp only [Turn.advance, here]
    exact sound_heed writes ⟨n, writes⟩
  | steering reply =>
    have fits := sound.fits here
    simp only [Turn.advance, here]
    exact sound_steer (fun _ => .inr fits) fits
  | declining =>
    obtain ⟨n, writes⟩ := sound.fits here
    simp only [Turn.advance, here]
    exact ⟨n + 1, false, settled_of_ended writes (book_abort ..)⟩
  | failing error byScript =>
    obtain ⟨n, writes⟩ := sound.fits here
    simp only [Turn.advance, here]
    exact ⟨n + 1, false, settled_of_ended writes (book_failStep ..)⟩
  | interrupting =>
    obtain ⟨n, writes⟩ := sound.fits here
    simp only [Turn.advance, here]
    exact ⟨n + 1, false, settled_of_ended writes (book_abort ..)⟩
  | closing =>
    obtain ⟨n, writes⟩ := sound.fits here
    simp only [Turn.advance, here]
    exact ⟨n + 1, true, (book_close ..).trans (by rw [writes, Book.shut_writing])⟩
  | restarting text =>
    have fits := sound.fits here
    simp only [Turn.advance, here]
    exact fits

theorem Sound.next {event : Event} (sound : turn.Sound) (clean : Clean event turn) :
    (turn.next event).Sound := by
  cases event with
  | interrupt => exact sound
  | prompt kind text => exact sound
  | replyPermission decision message => exact sound
  | advance found => exact sound.advance clean

end Advancing

def begun (script : String) (permissions : List Fields) (cancel : Bool)
    (pending : List (Kind × String)) :
    Turn := { script, permissions, cancel, pending }

theorem sound_begun (script : String) (permissions : List Fields) (cancel : Bool)
    (pending : List (Kind × String)) : (begun script permissions cancel pending).Sound :=
  ⟨0, false, rfl⟩

/-- No step is ended twice and no second idle recorded; once the call came back every step was
ended, and an idle was recorded unless a request was rejected without a message. -/
structure Ends (turn : Turn) : Prop where
  atMostOnce : ∀ step ∈ turn.steps, step.ended ≤ 1
  idles : turn.idles.length ≤ 1
  once : turn.point.Over → ∀ step ∈ turn.steps, step.ended = 1
  idled : turn.point.Over → turn.idles.length = if turn.rejected then 0 else 1

theorem Book.Fits.cases {book : Book} {point : Point} (fits : book.Fits point) :
    (∃ n rejected, book = .writing n rejected ∧ ¬point.Over) ∨
      ∃ n closed idles rejected, book = .settled n closed idles rejected ∧ idles ≤ 1 ∧
        (point.Over → idles = if rejected then 0 else 1) := by
  cases point with
  | fencing | opening | restarting | idling =>
    obtain ⟨n, closed, book⟩ := fits
    exact .inr ⟨n, closed, 0, false, book, Nat.zero_le 1, nofun⟩
  | boundary | reopening =>
    obtain ⟨n, book⟩ := fits
    exact .inr ⟨n, true, 0, false, book, Nat.zero_le 1, nofun⟩
  | steered text =>
    cases fits with
    | inl shut =>
      obtain ⟨n, book⟩ := shut
      exact .inr ⟨n, true, 0, false, book, Nat.zero_le 1, nofun⟩
    | inr writing =>
      obtain ⟨n, writes⟩ := writing
      exact .inl ⟨n, false, writes, nofun⟩
  | «over» how =>
    cases how with
    | byFailure =>
      obtain ⟨n, closed, book⟩ := fits
      exact .inr ⟨n, closed, 1, false, book, Nat.le_refl 1, nofun⟩
    | byEnd | byClosing =>
      obtain ⟨n, writes⟩ := fits
      exact .inl ⟨n, false, writes, nofun⟩
  | returned =>
    obtain ⟨n, closed, book⟩ := fits
    exact .inr ⟨n, closed, 1, false, book, Nat.le_refl 1, fun _ => rfl⟩
  | declined =>
    obtain ⟨n, closed, book⟩ := fits
    exact .inr ⟨n, closed, 0, true, book, Nat.zero_le 1, fun _ => rfl⟩
  | crashed => exact fits.elim
  | woken call name resource ask =>
    obtain ⟨n, writes⟩ := fits
    exact .inl ⟨n, ask.declines, writes, nofun⟩
  | declining =>
    obtain ⟨n, writes⟩ := fits
    exact .inl ⟨n, true, writes, nofun⟩
  | _ =>
    obtain ⟨n, writes⟩ := fits
    exact .inl ⟨n, false, writes, nofun⟩

theorem ended_of_mem {step : Assistant} (mem : step ∈ turn.steps) :
    step.ended ∈ turn.book.endings :=
  List.mem_map_of_mem mem

theorem Sound.ends (sound : turn.Sound) : turn.Ends := by
  cases sound.cases with
  | inl writing =>
    obtain ⟨n, rejected, book, going⟩ := writing
    have idles : turn.idles.length = 0 := congrArg Book.idles book
    refine ⟨?_, by omega, fun left => absurd left going, fun left => absurd left going⟩
    intro step mem
    have ended := ended_of_mem mem
    rw [book, Book.writing, List.mem_cons, List.mem_replicate] at ended
    omega
  | inr settled =>
    obtain ⟨n, closed, idles, rejected, book, few, last⟩ := settled
    have once : ∀ step ∈ turn.steps, step.ended = 1 := by
      intro step mem
      have ended := ended_of_mem mem
      rw [book] at ended
      exact List.eq_of_mem_replicate ended
    have idled : turn.idles.length = idles := congrArg Book.idles book
    have same : turn.rejected = rejected := congrArg Book.rejected book
    refine ⟨fun step mem => Nat.le_of_eq (once step mem), idled ▸ few, fun _ => once, ?_⟩
    rw [idled, same]
    exact last

theorem turn_ends_once [Unicode] {script : String} {permissions : List Fields} {cancel : Bool}
    {pending : List (Kind × String)} {events : List Event}
    (clean : Machine.Meets next Clean events (begun script permissions cancel pending)) :
    (Machine.after next events (begun script permissions cancel pending)).Ends :=
  Sound.ends <|
    Machine.invariant (fun _ _ sound clean => Sound.next sound clean) clean
      (sound_begun script permissions cancel pending)

section Runs

attribute [local instance] Platform.plain

def hears (fields : Fields) : Event := .advance { line := some (.obj fields) }

def interruptedFailure : Turn :=
  Machine.after next
    [.advance {}, .advance {}, .advance {}, hears [("op", .str "fail")], .advance {}, .advance {},
      .interrupt, .advance {}, .advance {}, .advance {}]
    (begun "fail()" [] false [])

theorem interrupt_after_failure_ends_twice :
    interruptedFailure.book = ⟨[2], false, 2, false⟩ ∧ ¬interruptedFailure.Ends :=
  ⟨by decide, fun ends => absurd ends.idles (by decide)⟩

def steeredRun : List Event :=
  [.advance {}, .advance {}, .advance {}, .prompt .steer "text('STEERED')",
    hears [("op", .str "step")],
    .advance {}, .advance {}, .advance {}, .advance {}, .advance {}, .advance {},
    hears [("op", .str "end")], .advance {}, .advance {}, .advance {}]

theorem turn_ends_once_steered :
    (Machine.after next steeredRun (begun "step()" [] false [])).point = .returned ∧
      (Machine.after next steeredRun (begun "step()" [] false [])).Ends :=
  ⟨rfl, turn_ends_once ⟨trivial, rfl, trivial, trivial, rfl, trivial, trivial, trivial, trivial,
    rfl, trivial, rfl, trivial, trivial, trivial, trivial⟩⟩

example : (Machine.after next
    [.advance {}, .advance {}, .advance {}, hears [("op", .str "usage"), ("cost", .int (2 ^ 1024))]]
    (begun "usage(cost=2**1024)" [] false [])).book = ⟨[0], false, 0, false⟩ := by
  decide +kernel

example : (Machine.after next
    [.advance {}, .advance {}, .advance {},
      hears [("op", .str "tool"), ("name", .str "shell"), ("ask", .bool true)], .advance {},
      .replyPermission "reject" none, .advance {}, .interrupt, .advance {},
        .advance {}, .advance {}]
    (begun "shell('ls')" [] false [])).book = ⟨[1], false, 1, true⟩ := by
  decide

end Runs

end Turn

end BlizzardMock.OpenCode2
