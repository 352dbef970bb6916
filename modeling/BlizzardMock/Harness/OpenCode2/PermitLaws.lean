import BlizzardMock.Harness.OpenCode2.ChannelLaws

namespace BlizzardMock.OpenCode2

namespace Turn

/-- The turn is about to permit a call. -/
def Permits [Unicode] (turn : Turn) (call : String) : Prop :=
  match turn.point with
  | .judging id name resource ask =>
    let effect := Rules.evaluate turn.permissions name resource
    id = call ∧ effect ≠ "deny" ∧ effect ≠ "ask" ∧ ¬(ask = true ∧ effect = "allow")
  | .woken id _ _ ask =>
    id = call ∧ turn.cancel = false ∧ ∃ decision, ask.decision = some decision ∧ decision ≠ "reject"
  | _ => False

section Parts

variable {turn : Turn} {call : String}

theorem parts_steer (turn : Turn) (next : Point) : (turn.steer next).parts = turn.parts := by
  rw [steer]
  split <;> rfl

theorem parts_heed {next : Turn} (kept : call ∈ next.parts → call ∈ turn.parts)
    (mem : call ∈ (turn.heed next).parts) : call ∈ turn.parts := by
  rw [heed] at mem
  split at mem
  case isTrue => exact mem
  case isFalse => exact kept mem

theorem parts_report (id : String) {told : Turn} (mem : call ∈ (turn.report id told).parts) :
    call ∈ turn.parts := by
  rw [report] at mem
  split at mem
  case isTrue => exact List.mem_of_mem_erase mem
  case isFalse => exact mem

theorem parts_settle (turn : Turn) (call child : String) (reply : Option String) :
    (turn.settle call child reply).parts = turn.parts := by
  cases reply <;> rfl

theorem parts_allow {id : String} (mem : call ∈ (turn.allow id).parts) :
    call ∈ turn.parts ∨ id = call := by
  cases List.mem_append.mp mem with
  | inl old => exact .inl old
  | inr new => exact .inr (List.mem_singleton.mp new).symm

variable [Unicode]

theorem parts_openTool (turn : Turn) (call name : String) (input : Fields) (next : Point) :
    (turn.openTool call name input next).parts = turn.parts := by
  rw [openTool]
  split <;> rfl

theorem parts_hear (found : Found) (request : Request)
    (mem : call ∈ (turn.hear found request).parts) :
    call ∈ turn.parts := by
  cases request with
  | usage tokens cost =>
    rw [hear] at mem
    split at mem
    all_goals exact mem
  | step => exact parts_close turn _ ▸ mem
  | tool | subagent => exact parts_openTool .. ▸ mem
  | toolDone | toolFailed => exact parts_report _ mem
  | text | reasoning | form | ends | fails | other => exact mem

theorem parts_judge {id name resource : String} {ask : Bool}
    (here : turn.point = .judging id name resource ask)
    (mem : call ∈ (turn.judge id name resource ask).parts) :
    call ∈ turn.parts ∨ turn.Permits call := by
  rw [Permits, here]
  unfold judge at mem
  extract_lets effect judged at mem
  split at mem
  case isTrue => exact .inl mem
  case isFalse denied =>
    split at mem
    case isTrue => exact .inl mem
    case isFalse asked =>
      refine (parts_allow mem).imp_right fun same => ⟨same, ?_⟩
      by_cases asks : ask = true ∧ effect = "allow"
      case pos => simp [judged, asks] at asked
      case neg =>
        have plain : judged = effect := if_neg (by simpa using asks)
        rw [plain] at denied asked
        exact ⟨denied, asked, asks⟩

theorem parts_heedAnswer {id name resource : String} {ask : Ask}
    (here : turn.point = .woken id name resource ask)
    (mem : call ∈ (turn.heedAnswer id name resource ask).parts) :
    call ∈ turn.parts ∨ turn.Permits call := by
  rw [Permits, here]
  rw [heedAnswer] at mem
  split at mem
  case h_1 => exact .inl mem
  case h_2 decision decided =>
    split at mem
    case isTrue => exact .inl mem
    case isFalse going =>
      have running : turn.cancel = false := by simpa using going
      split at mem
      case isTrue =>
        split at mem
        all_goals exact .inl mem
      case isFalse kept =>
        have permits (same : id = call) : id = call ∧ turn.cancel = false ∧
            ∃ decision, ask.decision = some decision ∧ decision ≠ "reject" :=
          ⟨same, running, decision, decided, kept⟩
        split at mem
        all_goals exact (parts_allow mem).imp_right permits

theorem parts_advance (found : Found) (mem : call ∈ (turn.advance found).parts) :
    call ∈ turn.parts ∨ turn.Permits call := by
  rw [advance] at mem
  cases here : turn.point with
  | judging => exact parts_judge here (by simpa only [here] using mem)
  | woken => exact parts_heedAnswer here (by simpa only [here] using mem)
  | opening =>
    simp only [here] at mem
    exact absurd mem List.not_mem_nil
  | fencing =>
    simp only [here] at mem
    split at mem
    all_goals exact .inl mem
  | reading =>
    simp only [here] at mem
    split at mem
    case h_2 => exact .inl (parts_hear _ _ mem)
    all_goals exact .inl mem
  | boundary | steering =>
    simp only [here, parts_steer] at mem
    exact .inl mem
  | asking =>
    simp only [here] at mem
    repeat' split at mem
    all_goals exact .inl mem
  | spawned call child background =>
    simp only [here] at mem
    split at mem
    all_goals exact .inl mem
  | waiting =>
    simp only [here] at mem
    split at mem
    case isTrue => exact .inl (parts_settle .. ▸ mem)
    case isFalse => exact .inl (parts_heed id mem)
  | grace | checking =>
    simp only [here] at mem
    refine .inl (parts_heed ?_ mem)
    exact id
  | form =>
    simp only [here] at mem
    split at mem
    case isTrue => exact .inl mem
    case isFalse => exact .inl (parts_heed id mem)
  | «over» how =>
    simp only [here] at mem
    refine .inl (parts_heed (fun kept => ?_) mem)
    cases how <;> exact kept
  | closing | steered =>
    simp only [here] at mem
    exact .inl (parts_close turn _ ▸ mem)
  | idling | greeting | reopening | declining | failing | interrupting | restarting | declined
      | returned | crashed =>
    simp only [here] at mem
    exact .inl mem

end Parts

end Turn

namespace Conversation

open Turn

inductive Piped : Phase → List Fields → Prop
  | nothing (phase : Phase) : Piped phase []
  | header (header : Fields) : Piped .starting [header]
  | answer (reply : Reply) (raised : Fields) {question : Question} :
    reply.Answers question → Piped (.asking question) [reply.written raised]

theorem Piped.silent {phase : Phase} {replies : List Fields} (piped : Piped phase replies)
    (awaits : phase ≠ .starting ∧ ∀ question, phase ≠ .asking question) : replies = [] := by
  cases piped with
  | nothing => rfl
  | header => exact absurd rfl awaits.1
  | answer => exact absurd rfl (awaits.2 _)

theorem written_allow {reply : Reply} {raised other : Fields} {call : String}
    (same : Reply.written raised (.allow call) = Reply.written other reply) :
    reply = .allow call := by
  cases reply with
  | allow id => simp_all [Reply.written]
  | withheld | deny | settled | form => simp [Reply.written] at same

section Conversing

variable [Unicode]

theorem Linked.piped {point : Point} {phase : Phase} {requests replies : List Fields}
    {pending : Option String}
    (linked : Linked point phase requests replies pending) : Piped phase replies := by
  cases linked with
  | greeted header => exact .header header
  | answered reply raised answers => exact .answer reply raised answers
  | opened | saying | reported | serving | acting => exact .nothing _

theorem Linked.not_greeted {question : Question} {requests replies : List Fields}
    {pending : Option String} :
    ¬Linked .greeting (.asking question) requests replies pending := by
  intro linked
  cases linked with
  | saying unasked => exact unasked.elim
  | serving serves => exact serves.elim

/-- The child may act on a call, or is to be told so. -/
def Holds (c : Conversation) (call : String) : Prop :=
  call ∈ c.turn.parts ∨ c.phase = .acting call ∨
    ∃ question raised, c.phase = .asking question ∧ Reply.written raised (.allow call) ∈ c.replies

/-- A step of the service permits a call. -/
def Permits (call : String) : Event → Conversation → Prop
  | .service _, c => c.turn.Permits call
  | _, _ => False

section Serving

variable {c : Conversation} {call : String} (found : Service)

theorem phase_serve : (c.serve found).phase = c.phase ∨ (c.serve found).phase = .starting := by
  rw [Conversation.serve]
  extract_lets advanced
  repeat' split
  all_goals first | exact .inl rfl | exact .inr rfl

theorem replies_serve {line : Fields} (mem : line ∈ (c.serve found).replies) :
    line ∈ c.replies ∨ c.turn.point = .greeting ∨
      ∃ reply, c.turn.point = .checking (some reply) ∧ line = reply.written found.raised := by
  rw [Conversation.serve] at mem
  extract_lets advanced at mem
  split at mem
  case h_1 =>
    split at mem
    case isTrue => exact absurd mem List.not_mem_nil
    case isFalse => exact .inl mem
  case h_2 here => exact .inr (.inl here)
  case h_3 =>
    repeat' split at mem
    all_goals exact .inl mem
  case h_4 reply here =>
    dsimp only at mem
    split at mem
    case isTrue => exact .inl mem
    case isFalse =>
      cases List.mem_append.mp mem with
      | inl old => exact .inl old
      | inr new => exact .inr (.inr ⟨reply, here, List.mem_singleton.mp new⟩)
  case h_5 => exact .inl mem

theorem quiet_serve (quiet : ¬(c.serve found).turn.point.Conversing) :
    (c.serve found).phase = c.phase ∧ (c.serve found).replies = c.replies := by
  cases here : c.turn.point with
  | opening =>
    simp only [Conversation.serve, Turn.advance, here] at quiet
    cases started : found.started with
    | true =>
      rw [started] at quiet
      exact absurd trivial quiet
    | false => simp only [Conversation.serve, here, started, Bool.false_eq_true, if_false, and_self]
  | greeting =>
    simp only [Conversation.serve, Turn.advance, here] at quiet
    cases written : found.written with
    | true =>
      rw [written] at quiet
      exact absurd trivial quiet
    | false =>
      rw [Conversation.serve, here]
      exact ⟨rfl, if_neg (by simp [written])⟩
  | reading =>
    rw [Conversation.serve, here]
    dsimp only
    repeat' split
    all_goals exact ⟨rfl, rfl⟩
  | checking reply =>
    cases reply with
    | none =>
      rw [Conversation.serve, here]
      exact ⟨rfl, rfl⟩
    | some reply =>
      simp only [Conversation.serve, Turn.advance, here, heed] at quiet
      have kept : c.turn.cancel || !found.written := by
        cases cancel : c.turn.cancel with
        | true => rfl
        | false =>
          cases written : found.written with
          | false => rfl
          | true =>
            rw [cancel, written] at quiet
            exact absurd trivial quiet
      rw [Conversation.serve, here]
      exact ⟨rfl, if_pos kept⟩
  | _ =>
    rw [Conversation.serve, here]
    exact ⟨rfl, rfl⟩

theorem Sound.piped_serve (sound : c.Sound) (piped : Piped c.phase c.replies) :
    Piped (c.serve found).phase (c.serve found).replies := by
  by_cases conversing : (c.serve found).turn.point.Conversing
  case pos =>
    obtain ⟨pending, linked, _⟩ := (sound.serve found).fits.linking conversing
    exact linked.piped
  case neg =>
    obtain ⟨phase, replies⟩ := quiet_serve found conversing
    rw [phase, replies]
    exact piped

theorem Sound.holds_serve (sound : c.Sound) (held : (c.serve found).Holds call) :
    c.Holds call ∨ c.turn.Permits call := by
  rcases held with allowed | acting | ⟨question, raised, asking, told⟩
  · cases turn_serve c found with
    | inl same => exact .inl (.inl (same ▸ allowed))
    | inr advanced =>
      obtain ⟨line, advanced⟩ := advanced
      rw [advanced] at allowed
      exact (parts_advance _ allowed).imp_left .inl
  · cases phase_serve found with
    | inl same => exact .inl (.inr (.inl (same.symm.trans acting)))
    | inr starting => cases starting.symm.trans acting
  · have same : (c.serve found).phase = c.phase := by
      cases phase_serve (c := c) found with
      | inl same => exact same
      | inr starting => cases starting.symm.trans asking
    rw [same] at asking
    rcases replies_serve found told with old | here | ⟨reply, here, written⟩
    · exact .inl (.inr (.inr ⟨question, raised, asking, old⟩))
    · obtain ⟨pending, linked, _⟩ := sound.linking here trivial
      rw [asking] at linked
      exact absurd linked Linked.not_greeted
    · obtain ⟨_, _, _, _, _, acc⟩ := sound.served here not_false nofun trivial
      cases written_allow written
      exact .inl (.inl acc.granted)

end Serving

section Moving

variable {c : Conversation} {call : String} (move : Move)

theorem silent_move (piped : Piped c.phase c.replies) :
    (c.move move).phase = c.phase ∧ (c.move move).replies = c.replies ∨
      (c.move move).replies = [] := by
  cases move with
  | exit => exact .inl ⟨rfl, rfl⟩
  | start =>
    rw [Conversation.move]
    split
    case h_1 phased replied =>
      rw [phased, replied] at piped
      cases piped with
      | header => exact .inr rfl
    case h_2 => exact .inl ⟨rfl, rfl⟩
  | hear =>
    rw [Conversation.move]
    split
    case h_1 phased replied =>
      rw [phased, replied] at piped
      cases piped with
      | answer => exact .inr rfl
    case h_2 => exact .inl ⟨rfl, rfl⟩
  | call | report | raise | ends | fails | write =>
    rw [Conversation.move]
    split
    case h_1 phased => exact .inr (piped.silent (by simp [phased]))
    case h_2 => exact .inl ⟨rfl, rfl⟩

theorem piped_move (piped : Piped c.phase c.replies) :
    Piped (c.move move).phase (c.move move).replies := by
  rcases silent_move move piped with ⟨phase, replies⟩ | silent
  · rw [phase, replies]
    exact piped
  · rw [silent]
    exact .nothing _

theorem heard_acting {reply : Reply} {raised : Fields} {question : Question}
    (answers : reply.Answers question)
    (acting : heard (reply.written raised) question = .acting call) : reply = .allow call := by
  cases reply with
  | allow id =>
    cases question with
    | tool =>
      cases acting
      rfl
    | subagent | form => exact answers.elim
  | withheld | deny | settled | form =>
    cases question with
    | tool | subagent | form => first | exact answers.elim | cases acting

theorem acting_move (piped : Piped c.phase c.replies)
    (acting : (c.move move).phase = .acting call) :
    c.phase = .acting call ∨
      ∃ question raised, c.phase = .asking question ∧
        Reply.written raised (.allow call) ∈ c.replies := by
  cases move with
  | exit => exact .inl acting
  | hear =>
    rw [Conversation.move] at acting
    split at acting
    case h_1 question reply rest phased replied =>
      rw [phased, replied] at piped
      cases piped with
      | answer reply raised answers =>
        exact .inr ⟨question, raised, phased, by simp [replied, heard_acting answers acting]⟩
    case h_2 => exact .inl acting
  | call helper =>
    rw [Conversation.move] at acting
    split at acting
    case h_1 =>
      dsimp only at acting
      cases asks : helper.question <;> simp [asks] at acting
    case h_2 => exact .inl acting
  | write =>
    rw [Conversation.move] at acting
    split at acting
    all_goals exact .inl acting
  | start | report | raise | ends | fails =>
    rw [Conversation.move] at acting
    split at acting
    case h_1 => cases acting
    case h_2 => exact .inl acting

theorem holds_move (piped : Piped c.phase c.replies) (held : (c.move move).Holds call) :
    c.Holds call := by
  rcases held with allowed | acting | ⟨question, raised, asking, told⟩
  · rw [turn_move] at allowed
    exact .inl allowed
  · exact .inr (acting_move move piped acting)
  · rcases silent_move move piped with ⟨phase, replies⟩ | silent
    · rw [phase] at asking
      rw [replies] at told
      exact .inr (.inr ⟨question, raised, asking, told⟩)
    · rw [silent] at told
      exact absurd told List.not_mem_nil

end Moving

def Barred (call : String) (c : Conversation) : Prop :=
  c.Sound ∧ Piped c.phase c.replies ∧ ¬c.Holds call

theorem barred_next {c : Conversation} {call : String} (event : Event) (barred : c.Barred call) :
    Permits call event c ∨ (c.next event).Barred call := by
  obtain ⟨sound, piped, free⟩ := barred
  cases event with
  | service found =>
    by_cases permits : c.turn.Permits call
    case pos => exact .inl permits
    case neg =>
      refine .inr ⟨sound.serve found, sound.piped_serve found piped, fun held => ?_⟩
      exact (sound.holds_serve found held).elim free permits
  | interrupt | prompt | replyPermission => exact .inr ⟨sound.aside rfl rfl rfl rfl, piped, free⟩
  | child move =>
    refine .inr ?_
    rw [Conversation.next]
    split
    case isTrue =>
      exact ⟨sound.move move, piped_move move piped, fun held => free (holds_move move piped held)⟩
    case isFalse => exact ⟨sound, piped, free⟩

theorem permitted {script : String} {permissions : List Fields} {cancel : Bool}
    {pending : List (Kind × String)}
    {events : List Event} {call : String}
    (acting : (Machine.after next events
      (begun (Turn.begun script permissions cancel pending))).phase = .acting call) :
    Machine.Occurs next (Permits call) events
      (begun (Turn.begun script permissions cancel pending)) := by
  have barred : (begun (Turn.begun script permissions cancel pending)).Barred call := by
    refine ⟨sound_begun script permissions cancel pending, .nothing _, fun held => ?_⟩
    rcases held with allowed | acting | ⟨question, raised, asking, told⟩
    · exact absurd allowed List.not_mem_nil
    · cases acting
    · cases asking
  have always : Machine.Meets next (fun _ _ => True) events
    (begun (Turn.begun script permissions cancel pending)) :=
    Machine.meets_of_mem (fun _ _ _ => trivial) _
  cases Machine.occurs_or (fun event _ barred _ => barred_next event barred) always barred with
  | inl permits => exact permits
  | inr still => exact absurd (.inr (.inl acting)) still.2.2

end Conversing

section Runs

attribute [local instance] Platform.plain

def allowedRun : List Event :=
  [.service {}, .service {}, .service {}, .child .start, .child (.call (.read "notes")),
    .service { call := "call" },
    .service {}, .service {}, .child .hear]

theorem permitted_read :
    (Machine.after next allowedRun (begun (Turn.begun "read('notes')" [] false []))).phase =
      .acting "call" ∧
      Machine.Occurs next (Permits "call") allowedRun
        (begun (Turn.begun "read('notes')" [] false [])) :=
  ⟨by decide, permitted (by decide)⟩

end Runs

end Conversation

end BlizzardMock.OpenCode2
