import BlizzardMock.Harness.OpenCode2.Sessions

namespace BlizzardMock.OpenCode2

namespace Session

variable {session later : Session} {stored : String → Bool} {request : Nat} {step : Section}

inductive Acts (session : Session) (stored : String → Bool) (request : Nat) :
    Section → Session → Prop
  | elsewhere {step : Section} : Acts session stored request step session
  | left (place : session.worker = .looping) (gone : stored session.id = false) :
      Acts session stored request .pop { session with worker := .absent }
  | took {item : Item} {rest : List Item} (place : session.worker = .looping)
      (first : session.pending = item :: rest) (kind : item.kind ≠ .compact) :
      Acts session stored request .pop { session with pending := rest, worker := .taken item }
  | tookCompaction {item : Item} {rest : List Item} (place : session.worker = .looping)
      (first : session.pending = item :: rest) (kind : item.kind = .compact) :
      Acts session stored request .pop
        { session with pending := rest, worker := .compacting item.ticket }
  | sawInbox (place : session.worker = .looping) (empty : session.pending = [])
      (some' : session.inbox ≠ []) :
      Acts session stored request .pop { session with worker := .delivering }
  | rested (place : session.worker = .looping) (empty : session.pending = [])
      (none' : session.inbox = []) :
      Acts session stored request .pop
        { session with running := false, current := none, worker := .absent }
  | opened {item : Item} (place : session.worker = .taken item) :
      Acts session stored request .userMessage
        { session with
          current := some item.text
          cancel := false
          messages := session.messages ++ [.user item.text item.ticket]
          worker := .turn item.ticket .turning }
  | steered {ticket : Nat} {item : Item} (place : session.worker = .turn ticket .turning)
      (first : session.pending.find? (·.kind = .steer) = some item) :
      Acts session stored request .takeSteer
        { session with pending := session.pending.eraseP (·.kind = .steer), worker := .taken item }
  | asked {ticket : Nat} (place : session.worker = .turn ticket .turning) :
      Acts session stored request .requestPermission
        { session with
          asks := session.asks.set request {}
          worker := .turn ticket (.asking request) }
  | woke {ticket id : Nat} {ask : Ask} (place : session.worker = .turn ticket (.asking id))
      (held : session.asks.get? id = some ask) (answered : ask.answered = true) :
      Acts session stored request .wakeUp
        { session with asks := session.asks.erase id, worker := .turn ticket (.woken ask) }
  | gaveUp {ticket : Nat} {ask : Ask} (place : session.worker = .turn ticket (.woken ask))
      (broken : session.cancel = true ∨ ask.decision = none) :
      Acts session stored request .judge
        { session with worker := .turn ticket (.ending .interrupted) }
  | refused {ticket : Nat} {ask : Ask} (place : session.worker = .turn ticket (.woken ask))
      (clear : session.cancel = false) (rejects : ask.decision = some "reject")
        (silent : ask.message = none) :
      Acts session stored request .judge { session with worker := .turn ticket .declining }
  | allowed {ticket : Nat} {ask : Ask} (place : session.worker = .turn ticket (.woken ask))
      (clear : session.cancel = false) (decided : ask.decision ≠ none) :
      Acts session stored request .judge { session with worker := .turn ticket .turning }
  | noticed {ticket : Nat} (place : session.worker = .turn ticket .turning)
      (flag : session.cancel = true) :
      Acts session stored request .notice
        { session with worker := .turn ticket (.ending .interrupted) }
  | finished {ticket : Nat} {failed : Bool} (place : session.worker = .turn ticket .turning) :
      Acts session stored request (.finish failed)
        { session with worker := .turn ticket (.ending (if failed then .failed else .succeeded)) }
  | declined {ticket : Nat} (place : session.worker = .turn ticket .declining) :
      Acts session stored request .declined { session with current := none, worker := .looping }
  | stopped {ticket : Nat} (place : session.worker = .compacting ticket)
      (flag : session.cancel = true) :
      Acts session stored request .wait
        { session with worker := .turn ticket (.ending .interrupted) }
  | waited {ticket : Nat} (place : session.worker = .compacting ticket)
      (clear : session.cancel = false) :
      Acts session stored request .wait { session with worker := .summarizing ticket }
  | turnedAway (place : session.worker = .delivering) (flag : session.cancel = true) :
      Acts session stored request .wait { session with worker := .looping }
  | handing (place : session.worker = .delivering) (clear : session.cancel = false) :
      Acts session stored request .wait { session with worker := .handing }
  | compacted {ticket : Nat} (place : session.worker = .summarizing ticket) :
      Acts session stored request .compact
        { session with
          messages := session.messages ++ [.compaction ticket]
          worker := .turn ticket (.ending .succeeded) }
  | foundEmpty (place : session.worker = .handing) (empty : session.inbox = []) :
      Acts session stored request .deliverInbox { session with worker := .looping }
  | delivered {entry : Entry} {rest : List Entry} (place : session.worker = .handing)
      (first : session.inbox = entry :: rest) :
      Acts session stored request .deliverInbox
        { session with
          inbox := rest
          messages := session.messages ++ [.synthetic entry]
          worker := .turn entry.ticket
            (if stored entry.childId then .turning else .ending .succeeded) }
  | idled {ticket : Nat} {outcome : Outcome}
      (place : session.worker = .turn ticket (.ending outcome)) :
      Acts session stored request .idle
        { session with
          messages := session.messages ++ [.idle outcome ticket]
          outcome := some outcome
          current := none
          pending := if outcome = .interrupted then [] else session.pending
          worker := if session.parentId = none then .looping else .settling }
  | returned (place : session.worker = .settling) :
      Acts session stored request .childSettled { session with worker := .looping }
  | spawned {ticket : Nat} {child : String} {background : Bool}
      (place : session.worker = .turn ticket .turning) :
      Acts session stored request (.spawned child background)
        { session with children := session.children ++ [(child, background)] }
  | wrote {ticket : Nat} {text : String} (place : session.worker = .turn ticket .turning) :
      Acts session stored request (.wrote text) { session with finalText := text }

theorem acts_pop : session.Acts stored request .pop (session.pop (stored session.id)) := by
  rw [pop]
  split
  case h_1 place =>
    split
    case isTrue gone => exact .left place gone
    case isFalse =>
      split
      case h_1 item rest first =>
        split
        case isTrue kind => exact .tookCompaction place first kind
        case isFalse kind => exact .took place first kind
      case h_2 empty =>
        split
        case isTrue some' => exact .sawInbox place empty some'
        case isFalse none' => exact .rested place empty (not_not.mp none')
  case h_2 => exact .elsewhere

theorem acts_wakeUp : session.Acts stored request .wakeUp session.wakeUp := by
  rw [wakeUp]
  split
  case h_1 place =>
    split
    case h_1 held =>
      split
      case isTrue answered => exact .woke place held answered
      case isFalse => exact .elsewhere
    case h_2 => exact .elsewhere
  case h_2 => exact .elsewhere

theorem acts_judge : session.Acts stored request .judge session.judge := by
  rw [judge]
  split
  case h_1 place =>
    split
    case isTrue broken => exact .gaveUp place broken
    case isFalse going =>
      have clear := Bool.eq_false_iff.mpr fun flag => going (.inl flag)
      split
      case isTrue rejected => exact .refused place clear rejected.1 rejected.2
      case isFalse => exact .allowed place clear fun undecided => going (.inr undecided)
  case h_2 => exact .elsewhere

theorem acts_wait : session.Acts stored request .wait session.wait := by
  rw [wait]
  split
  case h_1 place =>
    split
    case isTrue flag => exact .stopped place flag
    case isFalse clear => exact .waited place (Bool.eq_false_iff.mpr clear)
  case h_2 place =>
    split
    case isTrue flag => exact .turnedAway place flag
    case isFalse clear => exact .handing place (Bool.eq_false_iff.mpr clear)
  case h_3 => exact .elsewhere

theorem acts : session.Acts stored request step (session.work stored request step) := by
  cases step with
  | pop => exact acts_pop
  | wakeUp => exact acts_wakeUp
  | judge => exact acts_judge
  | wait => exact acts_wait
  | userMessage =>
    simp only [work, userMessage]
    split
    case h_1 place => exact .opened place
    case h_2 => exact .elsewhere
  | takeSteer =>
    simp only [work, takeSteer]
    split
    case h_1 place first => exact .steered place first
    case h_2 => exact .elsewhere
  | requestPermission =>
    simp only [work, requestPermission]
    split
    case h_1 place => exact .asked place
    case h_2 => exact .elsewhere
  | notice =>
    simp only [work, notice]
    split
    case h_1 place =>
      split
      case isTrue flag => exact .noticed place flag
      case isFalse => exact .elsewhere
    case h_2 => exact .elsewhere
  | finish failed =>
    simp only [work, finish]
    split
    case h_1 place => exact .finished place
    case h_2 => exact .elsewhere
  | declined =>
    simp only [work, Session.declined]
    split
    case h_1 place => exact .declined place
    case h_2 => exact .elsewhere
  | compact =>
    simp only [work, compact]
    split
    case h_1 place => exact .compacted place
    case h_2 => exact .elsewhere
  | deliverInbox =>
    simp only [work, deliverInbox]
    split
    case h_1 place empty => exact .foundEmpty place empty
    case h_2 place first => exact .delivered place first
    case h_3 => exact .elsewhere
  | idle =>
    simp only [work, idle]
    split
    case h_1 place => exact .idled place
    case h_2 => exact .elsewhere
  | childSettled =>
    simp only [work, Session.returned]
    split
    case h_1 place => exact .returned place
    case h_2 => exact .elsewhere
  | spawned child background =>
    simp only [work, Session.spawned]
    split
    case h_1 place => exact .spawned place
    case h_2 => exact .elsewhere
  | wrote text =>
    simp only [work, Session.wrote]
    split
    case h_1 place => exact .wrote place
    case h_2 => exact .elsewhere

theorem Acts.id_eq (acts : session.Acts stored request step later) : later.id = session.id := by
  cases acts <;> rfl

theorem Acts.parentId_eq (acts : session.Acts stored request step later) :
    later.parentId = session.parentId := by
  cases acts <;> rfl

@[simp] theorem accept_id (item : Item) : (session.accept item).id = session.id := by
  simp only [accept, start]
  split <;> rfl

@[simp] theorem hear_id (entry : Entry) : (session.hear entry).id = session.id := by
  simp only [hear, start]
  split <;> rfl

@[simp] theorem replied_id (request : Nat) (decision : String) (message : Option String) :
    (session.replied request decision message).id = session.id := by
  simp only [replied]
  split <;> rfl

@[simp] theorem accept_parentId (item : Item) : (session.accept item).parentId =
      session.parentId := by
  simp only [accept, start]
  split <;> rfl

@[simp] theorem hear_parentId (entry : Entry) : (session.hear entry).parentId =
      session.parentId := by
  simp only [hear, start]
  split <;> rfl

@[simp] theorem replied_parentId (request : Nat) (decision : String) (message : Option String) :
    (session.replied request decision message).parentId = session.parentId := by
  simp only [replied]
  split <;> rfl

end Session

end BlizzardMock.OpenCode2
