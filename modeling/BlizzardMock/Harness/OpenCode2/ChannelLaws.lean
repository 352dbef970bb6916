import BlizzardMock.Harness.OpenCode2.CallLaws
import BlizzardMock.Harness.OpenCode2.Channel
import BlizzardMock.Harness.OpenCode2.TurnLaws

namespace BlizzardMock.OpenCode2

namespace Turn

namespace Request

def Plain : Request → Prop
  | .text _ | .reasoning _ | .usage .. | .step => True
  | _ => False

def Asks : Request → Question → Prop
  | .tool .., .tool | .subagent .., .subagent | .form, .form => True
  | _, _ => False

def Reports : Request → String → Prop
  | .toolDone id .., call | .toolFailed id .., call => id = call
  | _, _ => False

def Finishes : Request → Prop
  | .ends | .fails _ => True
  | _ => False

end Request

section Requests

variable [Unicode]

theorem plain_request {helper : Helper} (asks : helper.question = none) :
    (Request.read helper.request).Plain := by
  cases helper with
  | text | reasoning | usage | step => trivial
  | shell | read | tool | permissionRequest | subagent | form => cases asks

theorem asks_request {helper : Helper} {question : Question}
    (asks : helper.question = some question) :
    (Request.read helper.request).Asks question := by
  cases helper with
  | text | reasoning | usage | step => cases asks
  | shell | read | tool | permissionRequest | subagent | form =>
    cases asks
    trivial

theorem reports_request (report : Report) (call : String) :
    (Request.read (report.request call)).Reports call := by
  cases report with
  | done output metadata => rfl
  | failed message => rfl

theorem finishes_end : (Request.read endRequest).Finishes := trivial

theorem finishes_fail (error : Fields) : (Request.read (failRequest error)).Finishes := trivial

end Requests

end Turn

def Reply.Answers : Reply → Question → Prop
  | .withheld, .tool | .withheld, .subagent | .deny, .tool | .allow _,
    .tool | .settled .., .subagent
  | .form, .form => True
  | _, _ => False

def Reply.granted : Reply → Option String
  | .allow call => some call
  | _ => none

namespace Point

def Unasked : Point → Prop
  | .reading | .boundary | .reopening | .steering none | .checking none => True
  | _ => False

def Serves : Point → Question → Prop
  | .judging .., .tool | .asking .., .tool | .woken .., .tool => True
  | .spawned .., .subagent | .waiting .., .subagent | .grace .., .subagent => True
  | .form, .form => True
  | .steering (some reply), question => reply.Answers question ∧ reply.granted = none
  | .checking (some reply), question => reply.Answers question
  | _, _ => False

def inHand : Point → Option String
  | .judging call .. | .asking call .. | .woken call .. | .spawned call .. | .waiting call .. =>
    some call
  | _ => none

def granted : Point → Option String
  | .checking (some reply) => reply.granted
  | _ => none

theorem Serves.asked {point : Point} {question : Question} (serves : point.Serves question) :
    ¬point.Unasked := by
  cases point with
  | steering reply | checking reply =>
    cases reply with
    | none => exact serves.elim
    | some reply => exact not_false
  | judging | asking | woken | spawned | waiting | grace | form => exact not_false
  | _ => exact serves.elim

def Conversing : Point → Prop
  | .greeting | .reading | .boundary | .reopening | .judging .. | .asking .. | .woken ..
    | .spawned .. | .waiting ..
  | .grace .. | .form | .steering _ | .checking _ => True
  | _ => False

end Point

namespace Conversation

open Turn

section Conversing

variable [Unicode]

inductive Told : Phase → List Fields → Prop
  | silent : Told .running []
  | asks {question : Question} {line : Fields} :
    (Turn.Request.read line).Asks question → Told (.asking question) [line]
  | ends {line : Fields} {rest : List Fields} : (Turn.Request.read line).Finishes →
      Told .done (line :: rest)
  | plain {phase : Phase} {line : Fields} {rest : List Fields} :
    (Turn.Request.read line).Plain → Told phase rest → Told phase (line :: rest)

inductive Linked : Point → Phase → List Fields → List Fields → Option String → Prop
  | opened : Linked .greeting .starting [] [] none
  | greeted (header : Fields) : Linked .reading .starting [] [header] none
  | saying {point : Point} {phase : Phase} {lines : List Fields} :
    point.Unasked → Told phase lines → Linked point phase lines [] none
  | reported {phase : Phase} {call : String} {line : Fields} {rest : List Fields} :
    (Turn.Request.read line).Reports call → Told phase rest →
      Linked .reading phase (line :: rest) [] (some call)
  | serving {point : Point} {question : Question} :
    point.Serves question → Linked point (.asking question) [] [] point.granted
  | answered (reply : Reply) (raised : Fields) {question : Question} :
    reply.Answers question →
      Linked .reading (.asking question) [] [reply.written raised] reply.granted
  | acting {call : String} : Linked .reading (.acting call) [] [] (some call)

section Saying

variable {phase : Phase} {lines : List Fields}

theorem Told.snoc (told : Told .running lines) {line : Fields} (next : Told phase [line]) :
    Told phase (lines ++ [line]) := by
  generalize running : Phase.running = first at told
  induction told with
  | silent => exact next
  | asks asks => cases running
  | ends ends => cases running
  | plain tells told ih => exact .plain tells (ih running)

theorem Told.write (told : Told .done lines) (line : Fields) : Told .done (lines ++ [line]) := by
  generalize written : Phase.done = last at told
  induction told with
  | silent => cases written
  | asks asks => cases written
  | ends ends => exact .ends ends
  | plain tells told ih => exact .plain tells (ih written)

theorem Told.not_acting {call : String} : ¬Told (.acting call) lines := by
  intro told
  generalize acts : Phase.acting call = last at told
  induction told with
  | silent | asks | ends => cases acts
  | plain tells told ih => exact ih acts

theorem Told.not_starting : ¬Told .starting lines := by
  intro told
  generalize starts : Phase.starting = last at told
  induction told with
  | silent | asks | ends => cases starts
  | plain tells told ih => exact ih starts

theorem Told.ne_nil {question : Question} (told : Told (.asking question) lines) : lines ≠ [] := by
  cases told with
  | asks => exact List.cons_ne_nil _ _
  | plain => exact List.cons_ne_nil _ _

end Saying

theorem Linked.between {point : Point} {phase : Phase} {requests replies : List Fields}
    {pending : Option String}
    (linked : Linked point phase requests replies pending) (unasked : point.Unasked)
    (busy : point ≠ .reading) :
    Told phase requests ∧ replies = [] ∧ pending = none := by
  cases linked with
  | saying unasked told => exact ⟨told, rfl, rfl⟩
  | serving serves => exact absurd unasked serves.asked
  | opened => exact unasked.elim
  | greeted | reported | answered | acting => exact absurd rfl busy

theorem Linked.served {point : Point} {phase : Phase} {requests replies : List Fields}
    {pending : Option String}
    (linked : Linked point phase requests replies pending) (asked : ¬point.Unasked)
    (met : point ≠ .greeting) :
    ∃ question, phase = .asking question ∧ requests = [] ∧ replies = [] ∧ pending = point.granted ∧
      point.Serves question := by
  cases linked with
  | serving serves => exact ⟨_, rfl, rfl, rfl, rfl, serves⟩
  | saying unasked told => exact absurd unasked asked
  | opened => exact absurd rfl met
  | greeted | reported | answered | acting => exact absurd trivial asked

def Settled (c : Conversation) : Prop := c.turn.OpenAmong (· ∈ c.unreported)

def Linking (c : Conversation) : Prop :=
  ∃ pending, Linked c.turn.point c.phase c.requests c.replies pending ∧
    c.turn.Accounted c.unreported c.turn.point.inHand pending

/-- What holds where the service is. -/
def Fits (c : Conversation) : Prop :=
  match c.turn.point with
  | .fencing | .opening | .steered _ | .restarting _ | .closing | .over .byEnd
      | .idling .succeeded _ false => c.Settled
  | .idling .succeeded _ true => False
  | .declining | .failing .. | .interrupting | .idling .. | .over _ | .declined | .returned
      | .crashed => True
  | _ => c.Linking

structure Sound (c : Conversation) : Prop where
  fits : c.Fits
  succeeded : ∀ error, (Outcome.succeeded, error) ∈ c.turn.idles →
    c.turn.point = .returned ∧ c.Settled

theorem fits_linking {c : Conversation} (conversing : c.turn.point.Conversing)
    (linking : c.Linking) : c.Fits := by
  rw [Fits]
  split
  all_goals first | exact linking | simp_all [Point.Conversing]

theorem Fits.linking {c : Conversation} (fits : c.Fits) (conversing : c.turn.point.Conversing) :
    c.Linking := by
  rw [Fits] at fits
  split at fits
  all_goals first | exact fits | simp_all [Point.Conversing]

section Serving

variable {c : Conversation} {turn : Turn}

theorem Sound.linking (sound : c.Sound) {point : Point} (here : c.turn.point = point)
    (conversing : point.Conversing) :
    ∃ pending, Linked point c.phase c.requests c.replies pending ∧
      c.turn.Accounted c.unreported point.inHand pending := by
  subst here
  exact sound.fits.linking conversing

theorem Sound.between (sound : c.Sound) {point : Point} (here : c.turn.point = point)
    (unasked : point.Unasked)
    (busy : point ≠ .reading) (conversing : point.Conversing) :
    Told c.phase c.requests ∧ c.replies = [] ∧ c.turn.Accounted c.unreported point.inHand none := by
  obtain ⟨pending, linked, acc⟩ := sound.linking here conversing
  obtain ⟨told, replies, rfl⟩ := linked.between unasked busy
  exact ⟨told, replies, acc⟩

theorem Sound.served (sound : c.Sound) {point : Point} (here : c.turn.point = point)
    (asked : ¬point.Unasked)
    (met : point ≠ .greeting) (conversing : point.Conversing) :
    ∃ question, c.phase = .asking question ∧ c.requests = [] ∧ c.replies = [] ∧
      point.Serves question ∧
      c.turn.Accounted c.unreported point.inHand point.granted := by
  obtain ⟨pending, linked, acc⟩ := sound.linking here conversing
  obtain ⟨question, asking, requests, replies, rfl, serves⟩ := linked.served asked met
  exact ⟨question, asking, requests, replies, serves, acc⟩

theorem fits_heed {next : Turn} (fits : Fits { c with turn := next }) :
    Fits { c with turn := turn.heed next } := by
  rw [heed]
  split
  case isTrue => trivial
  case isFalse => exact fits

theorem fits_steer {next : Point} (conversing : next.Conversing) (free : next.inHand = none)
    (linked : Linked next c.phase c.requests c.replies none)
    (acc : turn.Accounted c.unreported none none) :
    Fits { c with turn := turn.steer next } := by
  rw [steer]
  split
  case h_1 text _ => exact acc.settled.congr rfl
  case h_2 =>
    refine fits_linking conversing ⟨none, linked, ?_⟩
    change Accounted _ _ next.inHand none
    rw [free]
    exact acc.congr rfl rfl

theorem fits_openTool (acc : turn.Accounted c.unreported none none) {question : Question}
    (asking : c.phase = .asking question) (requests : c.requests = []) (replies : c.replies = [])
    (kept : Reply.withheld.Answers question) (next : Point) (conversing : next.Conversing)
    (serves : next.Serves question) {call : String} (hand : next.inHand = some call)
    (granted : next.granted = none)
    (name : String) (input : Fields) :
    Fits { c with turn := turn.openTool call name input next } := by
  rw [openTool]
  split
  case isTrue =>
    have linked : Linked (.checking (some .withheld)) c.phase c.requests c.replies none := by
      rw [asking, requests, replies]
      exact .serving kept
    exact ⟨none, linked, acc.congr rfl rfl⟩
  case isFalse =>
    refine fits_linking conversing ⟨none, ?_, ?_⟩
    · rw [asking, requests, replies, ← granted]
      exact .serving serves
    · change Accounted _ _ next.inHand none
      rw [hand]
      exact (acc.openTool name input).congr rfl rfl

section Hearing

variable (found : Found) {request : Turn.Request}

theorem fits_hear_asks {question : Question} (asks : request.Asks question)
    (asking : c.phase = .asking question)
    (requests : c.requests = []) (replies : c.replies = [])
    (acc : c.turn.Accounted c.unreported none none) :
    Fits { c with turn := c.turn.hear found request } := by
  cases request with
  | tool name resource input ask =>
    cases question with
    | tool =>
      exact fits_openTool acc asking requests replies trivial (.judging ..) trivial trivial rfl rfl
        name input
    | subagent | form => exact asks.elim
  | subagent script description background =>
    cases question with
    | subagent =>
      exact fits_openTool acc asking requests replies trivial (.spawned ..) trivial trivial rfl rfl
        _ _
    | tool | form => exact asks.elim
  | form =>
    cases question with
    | form =>
      have linked : Linked .form c.phase c.requests c.replies none := by
        rw [asking, requests, replies]
        exact .serving trivial
      exact ⟨none, linked, acc.congr rfl rfl⟩
    | tool | subagent => exact asks.elim
  | text | reasoning | usage | step | toolDone | toolFailed | ends | fails | other =>
    exact asks.elim

theorem fits_hear_finishes (finishes : request.Finishes)
    (acc : c.turn.Accounted c.unreported none none) :
    Fits { c with turn := c.turn.hear found request } := by
  cases request with
  | ends => exact acc.settled.congr rfl
  | fails error => trivial
  | text | reasoning | usage | step | tool | toolDone | toolFailed | subagent | form | other =>
    exact finishes.elim

variable (told : Told c.phase c.requests) (replies : c.replies = [])

include told replies

theorem linked_unasked {point : Point} (unasked : point.Unasked) :
    Linked point c.phase c.requests c.replies none := by
  rw [replies]
  exact .saying unasked told

theorem fits_hear_plain (plain : request.Plain) (acc : c.turn.Accounted c.unreported none none) :
    Fits { c with turn := c.turn.hear found request } := by
  cases request with
  | text content =>
    have added := acc.addPart (.text content) fun call same => by cases same
    exact ⟨none, linked_unasked told replies trivial, added.congr rfl rfl⟩
  | reasoning content =>
    have added := acc.addPart (.reasoning content) fun call same => by cases same
    exact ⟨none, linked_unasked told replies trivial, added.congr rfl rfl⟩
  | usage tokens cost =>
    rw [hear]
    split
    case isTrue => trivial
    case isFalse => exact ⟨none, linked_unasked told replies trivial, acc.congr rfl rfl⟩
  | step =>
    refine ⟨none, linked_unasked told replies trivial, ?_⟩
    have closed : (c.turn.close "tool-calls").Accounted c.unreported none none := acc.close _
    exact closed.congr rfl rfl
  | tool | toolDone | toolFailed | subagent | form | ends | fails | other => exact plain.elim

theorem fits_hear_reports {call : String} (reports : request.Reports call)
    (acc : c.turn.Accounted c.unreported none (some call)) :
    Fits { c with turn := c.turn.hear found request } := by
  have fits {status : Status} (out : ¬status.Open) :
      Fits { c with turn := c.turn.report call (c.turn.setStatus call status) } := by
    rw [Turn.report, if_pos acc.granted]
    exact ⟨none, linked_unasked told replies trivial, (acc.report out).congr rfl rfl⟩
  cases request with
  | toolDone id output metadata =>
    cases reports
    exact fits id
  | toolFailed id kind message =>
    cases reports
    exact fits id
  | text | reasoning | usage | step | tool | subagent | form | ends | fails | other =>
    exact reports.elim

end Hearing

theorem fits_serving {next : Turn} {question : Question} (asking : c.phase = .asking question)
    (requests : c.requests = []) (replies : c.replies = []) (conversing : next.point.Conversing)
    (serves : next.point.Serves question)
    (acc : next.Accounted c.unreported next.point.inHand next.point.granted) :
    Fits { c with turn := next } := by
  refine fits_linking conversing ⟨next.point.granted, ?_, acc⟩
  rw [asking, requests, replies]
  exact .serving serves

section Judging

variable {question : Question} (asking : c.phase = .asking question) (requests : c.requests = [])
  (replies : c.replies = [])

include asking requests replies

theorem fits_allow {call : String} (acc : turn.Accounted c.unreported (some call) none)
    (serves : question = .tool) : Fits { c with turn := turn.allow call } := by
  refine fits_serving asking requests replies trivial ?_ (acc.allow.congr rfl rfl)
  cases serves
  trivial

theorem fits_judge (serves : question = .tool) {call : String}
    (acc : turn.Accounted c.unreported (some call) none) (name resource : String) (ask : Bool) :
    Fits { c with turn := turn.judge call name resource ask } := by
  unfold judge
  extract_lets effect judged
  cases serves
  split
  case isTrue =>
    have failed := acc.status
      (.error "permission.rejected" ("Permission denied: " ++ name)) none nofun
    exact fits_serving asking requests replies trivial ⟨trivial, rfl⟩ (failed.congr rfl rfl)
  case isFalse =>
    split
    case isTrue =>
      have asked := acc.status .pending (some call) fun _ => rfl
      exact fits_serving asking requests replies trivial trivial (asked.congr rfl rfl)
    case isFalse => exact fits_allow asking requests replies acc rfl

theorem fits_heedAnswer (serves : question = .tool) {call : String}
    (acc : turn.Accounted c.unreported (some call) none) (name resource : String) (ask : Ask) :
    Fits { c with turn := turn.heedAnswer call name resource ask } := by
  rw [heedAnswer]
  split
  case h_1 => trivial
  case h_2 decision _ =>
    split
    case isTrue => trivial
    case isFalse =>
      split
      case isTrue =>
        split
        case h_1 message _ =>
          have failed := acc.status (.error "permission.rejected" message) none nofun
          cases serves
          exact fits_serving asking requests replies trivial ⟨trivial, rfl⟩ (failed.congr rfl rfl)
        case h_2 => trivial
      case isFalse =>
        split
        case isTrue => exact fits_allow asking requests replies (acc.congr rfl rfl) serves
        case isFalse => exact fits_allow asking requests replies acc serves

theorem fits_settle (serves : question = .subagent) {call : String}
    (acc : turn.Accounted c.unreported (some call) none) (child : String) (reply : Option String) :
    Fits { c with turn := turn.settle call child reply } := by
  cases serves
  cases reply with
  | some reply =>
    have completed := acc.status (.completed reply
      [("sessionID", .str child), ("status", .str "completed"), ("truncated", .bool false)]) none
        nofun
    exact fits_serving asking requests replies trivial ⟨trivial, rfl⟩ (completed.congr rfl rfl)
  | none =>
    have failed := acc.status (.error "aborted" "Subagent interrupted") none nofun
    exact fits_serving asking requests replies trivial trivial (failed.congr rfl rfl)

theorem fits_checking {reply : Reply} (answers : reply.Answers question)
    (acc : c.turn.Accounted c.unreported none reply.granted) (found : Service) :
    Fits { c with
      turn := c.turn.heed (c.turn.goTo (if !found.written then .over .byClosing else .reading))
      replies :=
        if c.turn.cancel || !found.written then c.replies
          else c.replies ++ [reply.written found.raised] } := by
  rw [heed]
  cases c.turn.cancel with
  | true => trivial
  | false =>
    cases found.written with
    | false => trivial
    | true =>
      refine ⟨reply.granted, ?_, acc.congr rfl rfl⟩
      change Linked .reading c.phase c.requests (c.replies ++ [reply.written found.raised]) _
      rw [asking, requests, replies]
      exact .answered reply found.raised answers

end Judging

theorem fits_reading (found : Found) {line : Fields} {rest : List Fields} {pending : Option String}
    (linked : Linked .reading c.phase (line :: rest) c.replies pending)
    (acc : c.turn.Accounted c.unreported none pending) :
    Fits { c with turn := c.turn.hear found (Turn.Request.read line), requests := rest } := by
  obtain ⟨turn, phase, alive, requests, replies, unreported⟩ := c
  let read : Conversation := ⟨turn, phase, alive, rest, replies, unreported⟩
  change Fits { read with turn := read.turn.hear found (Turn.Request.read line) }
  cases linked with
  | saying _ told =>
    cases told with
    | asks asks => exact fits_hear_asks found asks rfl rfl rfl acc
    | ends finishes => exact fits_hear_finishes found finishes acc
    | plain plain told => exact fits_hear_plain found told rfl plain acc
  | reported reports told => exact fits_hear_reports found told rfl reports acc

section Advancing

variable (sound : c.Sound) (found : Found)

include sound

theorem fits_fencing (here : c.turn.point = .fencing) :
    Fits { c with turn := c.turn.advance found } := by
  have fits := sound.fits
  rw [Fits, here] at fits
  simp only [Turn.advance, here]
  cases found.refusal with
  | none => exact fits.congr rfl
  | some refusal => trivial

theorem fits_boundary (here : c.turn.point = .boundary) :
    Fits { c with turn := c.turn.advance found } := by
  obtain ⟨told, replies, acc⟩ := sound.between here trivial nofun trivial
  simp only [Turn.advance, here]
  exact fits_steer trivial rfl (linked_unasked told replies trivial) acc

theorem fits_reopening (here : c.turn.point = .reopening) :
    Fits { c with turn := c.turn.advance found } := by
  obtain ⟨told, replies, acc⟩ := sound.between here trivial nofun trivial
  have opened : c.turn.openStep.Accounted c.unreported none none := ⟨acc.parts, acc.opened.openStep⟩
  simp only [Turn.advance, here]
  exact ⟨none, linked_unasked told replies trivial, opened.congr rfl rfl⟩

variable {call name resource child : String}

theorem fits_judging {ask : Bool} (here : c.turn.point = .judging call name resource ask) :
    Fits { c with turn := c.turn.advance found } := by
  obtain ⟨question, asking, requests, replies, serves, acc⟩ :=
    sound.served here not_false nofun trivial
  simp only [Turn.advance, here]
  cases question with
  | tool => exact fits_judge asking requests replies rfl acc name resource ask
  | subagent | form => exact serves.elim

theorem fits_asking (here : c.turn.point = .asking call name resource) :
    Fits { c with turn := c.turn.advance found } := by
  obtain ⟨question, asking, requests, replies, serves, acc⟩ :=
    sound.served here not_false nofun trivial
  have running := acc.status .running (some call) fun _ => rfl
  simp only [Turn.advance, here]
  cases question with
  | tool =>
    split
    case h_1 ask _ =>
      split
      case isTrue => exact fits_serving asking requests replies trivial trivial (running.congr rfl rfl)
      case isFalse => exact sound.fits
    case h_2 => exact sound.fits
  | subagent | form => exact serves.elim

theorem fits_woken {ask : Ask} (here : c.turn.point = .woken call name resource ask) :
    Fits { c with turn := c.turn.advance found } := by
  obtain ⟨question, asking, requests, replies, serves, acc⟩ :=
    sound.served here not_false nofun trivial
  simp only [Turn.advance, here]
  cases question with
  | tool => exact fits_heedAnswer asking requests replies rfl acc name resource ask
  | subagent | form => exact serves.elim

theorem fits_spawned {background : Bool} (here : c.turn.point = .spawned call child background) :
    Fits { c with turn := c.turn.advance found } := by
  obtain ⟨question, asking, requests, replies, serves, acc⟩ :=
    sound.served here not_false nofun trivial
  have settled {output : String} {metadata : Fields} :=
    acc.status (.completed output metadata) none nofun
  simp only [Turn.advance, here]
  cases question with
  | subagent =>
    cases background with
    | true => exact fits_serving asking requests replies trivial ⟨trivial, rfl⟩ (settled.congr rfl rfl)
    | false => exact fits_serving asking requests replies trivial trivial (acc.congr rfl rfl)
  | tool | form => exact serves.elim

theorem fits_waiting (here : c.turn.point = .waiting call child) :
    Fits { c with turn := c.turn.advance found } := by
  obtain ⟨question, asking, requests, replies, serves, acc⟩ :=
    sound.served here not_false nofun trivial
  simp only [Turn.advance, here]
  cases question with
  | subagent =>
    cases found.settled with
    | true => exact fits_settle asking requests replies rfl acc child found.finalText
    | false => exact fits_heed sound.fits
  | tool | form => exact serves.elim

theorem fits_grace (here : c.turn.point = .grace child) :
    Fits { c with turn := c.turn.advance found } := by
  obtain ⟨question, asking, requests, replies, serves, acc⟩ :=
    sound.served here not_false nofun trivial
  simp only [Turn.advance, here]
  cases question with
  | subagent =>
    exact fits_heed (fits_serving asking requests replies trivial ⟨trivial, rfl⟩ (acc.congr rfl rfl))
  | tool | form => exact serves.elim

theorem fits_form (here : c.turn.point = .form) : Fits { c with turn := c.turn.advance found } := by
  obtain ⟨question, asking, requests, replies, serves, acc⟩ :=
    sound.served here not_false nofun trivial
  simp only [Turn.advance, here]
  cases question with
  | form =>
    cases found.settled with
    | true => exact fits_serving asking requests replies trivial trivial (acc.congr rfl rfl)
    | false => exact fits_heed sound.fits
  | tool | subagent => exact serves.elim

theorem fits_steering {reply : Option Reply} (here : c.turn.point = .steering reply) :
    Fits { c with turn := c.turn.advance found } := by
  simp only [Turn.advance, here]
  cases reply with
  | none =>
    obtain ⟨told, replies, acc⟩ := sound.between here trivial (by simp) trivial
    exact fits_steer trivial rfl (linked_unasked told replies trivial) acc
  | some reply =>
    obtain ⟨question, asking, requests, replies, serves, acc⟩ :=
      sound.served here not_false (by simp) trivial
    have linked : Linked (.checking (some reply)) (.asking question) [] [] reply.granted :=
      .serving serves.1
    rw [serves.2] at linked
    refine fits_steer trivial rfl ?_ acc
    rw [asking, requests, replies]
    exact linked

theorem fits_unanswered (here : c.turn.point = .checking none) :
    Fits { c with turn := c.turn.advance found } := by
  obtain ⟨told, replies, acc⟩ := sound.between here trivial nofun trivial
  simp only [Turn.advance, here]
  exact fits_heed ⟨none, linked_unasked told replies trivial, acc.congr rfl rfl⟩

theorem fits_over {how : Ended} (here : c.turn.point = .over how) :
    Fits { c with turn := c.turn.advance found } := by
  have fits := sound.fits
  rw [Fits, here] at fits
  simp only [Turn.advance, here]
  refine fits_heed ?_
  cases how with
  | byEnd => exact fits.congr rfl
  | byFailure => trivial
  | byClosing => trivial

theorem fits_closing (here : c.turn.point = .closing) :
    Fits { c with turn := c.turn.advance found } := by
  have fits := sound.fits
  rw [Fits, here] at fits
  simp only [Turn.advance, here]
  exact (fits.close "stop").congr rfl

theorem fits_steered {text : String} (here : c.turn.point = .steered text) :
    Fits { c with turn := c.turn.advance found } := by
  have fits := sound.fits
  rw [Fits, here] at fits
  simp only [Turn.advance, here]
  exact (fits.close "stop").congr rfl

theorem fits_restarting {text : String} (here : c.turn.point = .restarting text) :
    Fits { c with turn := c.turn.advance found } := by
  have fits := sound.fits
  rw [Fits, here] at fits
  simp only [Turn.advance, here]
  exact fits.congr rfl

end Advancing

section Piping

variable (sound : c.Sound) (found : Service)

include sound

theorem fits_opening (here : c.turn.point = .opening) : (c.serve found).Fits := by
  have fits := sound.fits
  rw [Fits, here] at fits
  have cleared : ({ c.turn with parts := [] } : Turn).OpenAmong (· ∈ c.unreported) := fits.congr rfl
  simp only [Conversation.serve, Turn.advance, here]
  cases found.started with
  | true => exact ⟨none, .opened, (Accounted.of_settled rfl cleared.openStep).congr rfl rfl⟩
  | false => trivial

theorem fits_greeting (here : c.turn.point = .greeting) : (c.serve found).Fits := by
  obtain ⟨pending, linked, acc⟩ := sound.linking here trivial
  simp only [Conversation.serve, Turn.advance, here]
  cases found.written with
  | false => trivial
  | true =>
    obtain ⟨turn, phase, alive, requests, replies, unreported⟩ := c
    cases linked with
    | opened => exact ⟨none, .greeted _, acc.congr rfl rfl⟩
    | saying unasked => exact unasked.elim
    | serving serves => exact serves.elim

theorem fits_reads (here : c.turn.point = .reading) : (c.serve found).Fits := by
  obtain ⟨pending, linked, acc⟩ := sound.linking here trivial
  simp only [Conversation.serve, Turn.advance, here]
  cases lines : c.requests with
  | cons line rest =>
    rw [lines] at linked
    exact fits_reading _ linked acc
  | nil =>
    dsimp only
    split
    case isTrue => exact sound.fits
    case isFalse => trivial

theorem fits_answering {reply : Reply} (here : c.turn.point = .checking (some reply)) :
    (c.serve found).Fits := by
  obtain ⟨question, asking, requests, replies, serves, acc⟩ :=
    sound.served here not_false nofun trivial
  simp only [Conversation.serve, Turn.advance, here]
  exact fits_checking asking requests replies serves acc found

theorem fits_serve (busy : ∀ outcome error byScript,
      c.turn.point ≠ .idling outcome error byScript) :
    (c.serve found).Fits := by
  cases here : c.turn.point with
  | idling outcome error byScript => exact absurd here (busy outcome error byScript)
  | opening => exact fits_opening sound found here
  | greeting => exact fits_greeting sound found here
  | reading => exact fits_reads sound found here
  | checking reply =>
    cases reply with
    | none => simpa only [Conversation.serve, here] using fits_unanswered sound _ here
    | some reply => exact fits_answering sound found here
  | fencing => simpa only [Conversation.serve, here] using fits_fencing sound _ here
  | boundary => simpa only [Conversation.serve, here] using fits_boundary sound _ here
  | reopening => simpa only [Conversation.serve, here] using fits_reopening sound _ here
  | judging => simpa only [Conversation.serve, here] using fits_judging sound _ here
  | asking => simpa only [Conversation.serve, here] using fits_asking sound _ here
  | woken => simpa only [Conversation.serve, here] using fits_woken sound _ here
  | spawned => simpa only [Conversation.serve, here] using fits_spawned sound _ here
  | waiting => simpa only [Conversation.serve, here] using fits_waiting sound _ here
  | grace => simpa only [Conversation.serve, here] using fits_grace sound _ here
  | form => simpa only [Conversation.serve, here] using fits_form sound _ here
  | steering => simpa only [Conversation.serve, here] using fits_steering sound _ here
  | «over» => simpa only [Conversation.serve, here] using fits_over sound _ here
  | closing => simpa only [Conversation.serve, here] using fits_closing sound _ here
  | steered => simpa only [Conversation.serve, here] using fits_steered sound _ here
  | restarting => simpa only [Conversation.serve, here] using fits_restarting sound _ here
  | declining | failing | interrupting =>
    simp only [Conversation.serve, Turn.advance, here]
    trivial
  | declined | returned | crashed =>
    simp only [Conversation.serve, Turn.advance, here]
    exact sound.fits

end Piping

theorem turn_serve (c : Conversation) (found : Service) :
    (c.serve found).turn = c.turn ∨ ∃ line, (c.serve found).turn = c.turn.advance
      { found.toFound with line } := by
  rw [Conversation.serve]
  extract_lets advanced
  split
  case h_1 =>
    split
    all_goals exact .inr ⟨none, rfl⟩
  case h_3 =>
    split
    case h_1 line rest _ => exact .inr ⟨some (.obj line), rfl⟩
    case h_2 =>
      split
      case isTrue => exact .inl rfl
      case isFalse => exact .inr ⟨none, rfl⟩
  all_goals exact .inr ⟨none, rfl⟩

theorem idles_serve (found : Service)
    (busy : ∀ outcome error byScript, c.turn.point ≠ .idling outcome error byScript) :
    (c.serve found).turn.idles = c.turn.idles := by
  cases turn_serve c found with
  | inl same => rw [same]
  | inr advanced =>
    obtain ⟨line, advanced⟩ := advanced
    rw [advanced]
    exact idles_advance c.turn _ busy

theorem serve_returned (here : c.turn.point = .returned) (found : Service) : c.serve found = c := by
  rw [Conversation.serve, here]
  simp only [Turn.advance, here]

theorem serve_idling {outcome : Outcome} {error : Option Fields} {byScript : Bool}
    (here : c.turn.point = .idling outcome error byScript) (found : Service) :
    c.serve found = { c with turn := c.turn.idle outcome error byScript } := by
  rw [Conversation.serve, here]
  simp only [Turn.advance, here]

theorem Sound.idle (sound : c.Sound) {outcome : Outcome} {error : Option Fields} {byScript : Bool}
    (here : c.turn.point = .idling outcome error byScript) :
    Sound { c with turn := c.turn.idle outcome error byScript } := by
  have fits := sound.fits
  rw [Fits, here] at fits
  cases byScript with
  | true =>
    refine ⟨trivial, fun failed mem => ?_⟩
    cases List.mem_append.mp mem with
    | inl old => cases here.symm.trans (sound.succeeded failed old).1
    | inr new =>
      cases List.mem_singleton.mp new
      exact fits.elim
  | false =>
    refine ⟨trivial, fun failed mem => ⟨rfl, ?_⟩⟩
    cases List.mem_append.mp mem with
    | inl old => cases here.symm.trans (sound.succeeded failed old).1
    | inr new =>
      cases List.mem_singleton.mp new
      exact OpenAmong.congr fits rfl

theorem Sound.serve (sound : c.Sound) (found : Service) : (c.serve found).Sound := by
  by_cases idling : ∃ outcome error byScript, c.turn.point = .idling outcome error byScript
  case pos =>
    obtain ⟨outcome, error, byScript, here⟩ := idling
    rw [serve_idling here]
    exact sound.idle here
  case neg =>
    have busy : ∀ outcome error byScript, c.turn.point ≠ .idling outcome error byScript :=
      fun outcome error byScript here => idling ⟨outcome, error, byScript, here⟩
    refine ⟨fits_serve sound found busy, fun error mem => ?_⟩
    rw [idles_serve found busy] at mem
    rw [serve_returned (sound.succeeded error mem).1]
    exact sound.succeeded error mem

end Serving

section Moving

variable {c d : Conversation}

theorem Fits.keep (fits : c.Fits) (point : d.turn.point = c.turn.point)
    (settled : c.Settled → d.Settled)
    (linking : c.Linking → d.Linking) : d.Fits := by
  rw [Fits] at fits
  rw [Fits, point]
  generalize c.turn.point = point at fits ⊢
  cases point with
  | fencing | opening | steered | restarting | closing => exact settled fits
  | «over» how =>
    cases how with
    | byEnd => exact settled fits
    | byFailure | byClosing => trivial
  | idling outcome error byScript =>
    cases outcome with
    | succeeded =>
      cases byScript with
      | true => exact fits
      | false => exact settled fits
    | interrupted | failed => trivial
  | declining | failing | interrupting | declined | returned | crashed => trivial
  | greeting | reading | boundary | reopening | judging | asking | woken | spawned | waiting | grace
      | form | steering
  | checking => exact linking fits

theorem Sound.keep (sound : c.Sound) (point : d.turn.point = c.turn.point)
    (idles : d.turn.idles = c.turn.idles)
    (settled : c.Settled → d.Settled) (linking : c.Linking → d.Linking) : d.Sound := by
  refine ⟨sound.fits.keep point settled linking, fun error mem => ?_⟩
  rw [idles] at mem
  obtain ⟨here, held⟩ := sound.succeeded error mem
  exact ⟨point.trans here, settled held⟩

theorem Sound.aside (sound : c.Sound) {turn : Turn} (point : turn.point = c.turn.point)
    (idles : turn.idles = c.turn.idles) (steps : turn.steps = c.turn.steps)
    (parts : turn.parts = c.turn.parts) :
    Sound { c with turn } := by
  refine sound.keep point idles (fun settled => settled.congr steps) fun linking => ?_
  obtain ⟨pending, linked, acc⟩ := linking
  refine ⟨pending, ?_, ?_⟩
  · rw [point]
    exact linked
  · rw [point]
    exact acc.congr steps parts

theorem turn_move (c : Conversation) (move : Move) : (c.move move).turn = c.turn := by
  cases move with
  | exit => rfl
  | start | call | hear | report | raise | ends | fails | write =>
    rw [Conversation.move]
    split <;> rfl

theorem unreported_move (c : Conversation) (move : Move) {call : String}
    (mem : call ∈ c.unreported) :
    call ∈ (c.move move).unreported := by
  cases move with
  | exit => exact mem
  | start | call | hear | report | ends | fails | write =>
    rw [Conversation.move]
    split <;> exact mem
  | raise =>
    rw [Conversation.move]
    split
    case h_1 => exact List.mem_append_left _ mem
    case h_2 => exact mem

section Linking

variable {point : Point} {requests replies : List Fields} {pending : Option String}

theorem Linked.say {phase : Phase} {line : Fields}
    (linked : Linked point .running requests replies pending)
    (told : Told phase [line]) : Linked point phase (requests ++ [line]) replies pending := by
  cases linked with
  | saying unasked before => exact .saying unasked (before.snoc told)
  | reported reports before => exact .reported reports (before.snoc told)

theorem Linked.write (linked : Linked point .done requests replies pending) (line : Fields) :
    Linked point .done (requests ++ [line]) replies pending := by
  cases linked with
  | saying unasked before => exact .saying unasked (before.write line)
  | reported reports before => exact .reported reports (before.write line)

theorem Linked.hear {question : Question} {reply : Fields}
    (linked : Linked point (.asking question) requests (reply :: replies) pending) :
    Linked point (heard reply question) requests replies pending := by
  cases linked with
  | answered reply raised answers =>
    cases reply with
    | withheld =>
      cases question with
      | tool | subagent => exact .saying trivial .silent
      | form => exact answers.elim
    | deny =>
      cases question with
      | tool => exact .saying trivial .silent
      | subagent | form => exact answers.elim
    | allow call =>
      cases question with
      | tool => exact .acting
      | subagent | form => exact answers.elim
    | settled output session completed =>
      cases question with
      | subagent => exact .saying trivial .silent
      | tool | form => exact answers.elim
    | form =>
      cases question with
      | form => exact .saying trivial .silent
      | tool | subagent => exact answers.elim

theorem Linked.start {header : Fields}
    (linked : Linked point .starting requests (header :: replies) pending) :
    Linked point .running requests replies pending := by
  cases linked with
  | greeted => exact .saying trivial .silent

theorem Linked.acts {call : String}
    (linked : Linked point (.acting call) requests replies pending) :
    point = .reading ∧ requests = [] ∧ replies = [] ∧ pending = some call := by
  cases linked with
  | acting => exact ⟨rfl, rfl, rfl, rfl⟩
  | saying _ told => exact absurd told Told.not_acting
  | reported _ told => exact absurd told Told.not_acting

end Linking

theorem linking_move (linking : c.Linking) (move : Move) : (c.move move).Linking := by
  have kept := linking
  obtain ⟨pending, linked, acc⟩ := linking
  obtain ⟨turn, phase, alive, requests, replies, unreported⟩ := c
  cases move with
  | start =>
    rw [Conversation.move]
    split
    case h_1 phased replied => exact ⟨pending, Linked.start (phased ▸ replied ▸ linked), acc⟩
    case h_2 => exact kept
  | call helper =>
    rw [Conversation.move]
    split
    case h_1 phased =>
      refine ⟨pending, Linked.say (phased ▸ linked) ?_, acc⟩
      cases asks : helper.question with
      | none => exact .plain (plain_request asks) .silent
      | some question => exact .asks (asks_request asks)
    case h_2 => exact kept
  | hear =>
    rw [Conversation.move]
    split
    case h_1 phased replied => exact ⟨pending, Linked.hear (phased ▸ replied ▸ linked), acc⟩
    case h_2 => exact kept
  | report report =>
    rw [Conversation.move]
    split
    case h_1 call phased =>
      obtain ⟨here, rfl, rfl, rfl⟩ := Linked.acts (phased ▸ linked)
      refine ⟨some call, ?_, acc⟩
      rw [here]
      exact .reported (reports_request report call) .silent
    case h_2 => exact kept
  | raise =>
    rw [Conversation.move]
    split
    case h_1 call phased =>
      obtain ⟨here, rfl, rfl, rfl⟩ := Linked.acts (phased ▸ linked)
      refine ⟨none, ?_, acc.raise⟩
      rw [here]
      exact .saying trivial .silent
    case h_2 => exact kept
  | ends =>
    rw [Conversation.move]
    split
    case h_1 phased => exact ⟨pending, Linked.say (phased ▸ linked) (.ends finishes_end), acc⟩
    case h_2 => exact kept
  | fails error =>
    rw [Conversation.move]
    split
    case h_1 phased => exact ⟨pending, Linked.say (phased ▸ linked) (.ends (finishes_fail error)), acc⟩
    case h_2 => exact kept
  | write line =>
    rw [Conversation.move]
    split
    case h_1 phased =>
      refine ⟨pending, ?_, acc⟩
      have written := Linked.write (phased ▸ linked) line
      exact phased ▸ written
    case h_2 => exact kept
  | exit => exact ⟨pending, linked, acc⟩

theorem Sound.move (sound : c.Sound) (move : Move) : (c.move move).Sound := by
  have turn := turn_move c move
  refine sound.keep (by rw [turn]) (by rw [turn]) (fun settled => ?_)
    fun linking => linking_move linking move
  rw [Settled, turn]
  exact settled.mono fun _ mem => unreported_move c move mem

end Moving

theorem Sound.next {c : Conversation} (event : Event) (sound : c.Sound) : (c.next event).Sound := by
  cases event with
  | service found => exact sound.serve found
  | interrupt | prompt | replyPermission => exact sound.aside rfl rfl rfl rfl
  | child move =>
    rw [Conversation.next]
    split
    case isTrue => exact sound.move move
    case isFalse => exact sound

def begun (turn : Turn) : Conversation := { turn }

theorem sound_begun (script : String) (permissions : List Fields) (cancel : Bool)
    (pending : List (Kind × String)) :
    (begun (Turn.begun script permissions cancel pending)).Sound :=
  ⟨fun _ mem => absurd mem List.not_mem_nil, fun _ mem => absurd mem List.not_mem_nil⟩

/-- As long as they converse, what the service wrote is the one answer to what the child asked, the
child does not wait for a service that waits for it, and the tool it runs is one it was allowed; and
a turn that succeeded leaves a call open only if its tool raised. -/
structure InStep (c : Conversation) : Prop where
  answered : c.turn.point.Conversing → c.phase ≠ .starting → ∀ line ∈ c.replies,
    c.requests = [] ∧ c.replies = [line] ∧ ∃ question reply raised, c.phase = .asking question ∧
      line = Reply.written raised reply ∧ reply.Answers question ∧ ∀ call, reply = .allow call →
        call ∈ c.turn.parts
  waits : c.turn.point = .reading → (c.phase = .starting ∨ ∃ question, c.phase = .asking question) →
    c.requests ≠ [] ∨ c.replies ≠ []
  acts : c.turn.point.Conversing → ∀ call, c.phase = .acting call →
    c.turn.point = .reading ∧ c.requests = [] ∧ c.replies = [] ∧ call ∈ c.turn.parts
  settled : ∀ error, (Outcome.succeeded, error) ∈ c.turn.idles → ∀ step ∈ c.turn.steps, ∀ call,
    Part.tool call ∈ step.content → call.status.Open → call.id ∈ c.unreported

section InStep

variable {point : Point} {phase : Phase} {requests replies : List Fields} {pending : Option String}

theorem Linked.answered_once (linked : Linked point phase requests replies pending)
    (started : phase ≠ .starting)
    {line : Fields} (mem : line ∈ replies) :
    requests = [] ∧ replies = [line] ∧ ∃ question reply raised, phase = .asking question ∧
      line = Reply.written raised reply ∧ reply.Answers question ∧ pending = reply.granted := by
  cases linked with
  | answered reply raised answers =>
    cases List.mem_singleton.mp mem
    exact ⟨rfl, rfl, _, reply, raised, rfl, rfl, answers, rfl⟩
  | greeted => exact absurd rfl started
  | opened | saying | reported | serving | acting => exact absurd mem List.not_mem_nil

theorem Linked.waits (linked : Linked .reading phase requests replies pending)
    (waiting : phase = .starting ∨ ∃ question, phase = .asking question) :
    requests ≠ [] ∨ replies ≠ [] := by
  cases linked with
  | greeted header => exact .inr (List.cons_ne_nil _ _)
  | answered reply raised => exact .inr (List.cons_ne_nil _ _)
  | reported => exact .inl (List.cons_ne_nil _ _)
  | serving serves => exact serves.elim
  | acting =>
    rcases waiting with starts | ⟨question, asks⟩
    · cases starts
    · cases asks
  | saying _ told =>
    rcases waiting with rfl | ⟨question, rfl⟩
    · exact absurd told Told.not_starting
    · exact .inl told.ne_nil

end InStep

theorem Sound.inStep {c : Conversation} (sound : c.Sound) : c.InStep where
  answered conversing started line mem := by
    obtain ⟨pending, linked, acc⟩ := sound.fits.linking conversing
    obtain ⟨requests, replies, question, reply, raised, asking, written, answers, rfl⟩ :=
      linked.answered_once started mem
    refine ⟨requests, replies, question, reply, raised, asking, written, answers,
      fun call allowed => ?_⟩
    subst allowed
    exact acc.granted
  waits reading waiting := by
    obtain ⟨pending, linked, _⟩ := sound.linking reading trivial
    exact linked.waits waiting
  acts conversing call acting := by
    obtain ⟨pending, linked, acc⟩ := sound.fits.linking conversing
    rw [acting] at linked
    obtain ⟨reading, requests, replies, rfl⟩ := linked.acts
    exact ⟨reading, requests, replies, acc.granted⟩
  settled error mem := (sound.succeeded error mem).2

theorem in_step (script : String) (permissions : List Fields) (cancel : Bool)
    (pending : List (Kind × String))
    (events : List Event) :
    (Machine.after next events (begun (Turn.begun script permissions cancel pending))).InStep :=
  Sound.inStep <| Machine.invariant_always (fun event _ sound => Sound.next event sound) events
    (sound_begun script permissions cancel pending)

end Conversing

section Runs

attribute [local instance] Platform.plain

example :
    let c := Machine.after next
      [.service {}, .service {}, .service {}, .child .start, .child (.call (.read "notes")),
        .service { call := "call" },
        .service {}, .service {}, .child .hear, .child .raise, .child .ends, .service {},
          .service {}, .service {},
        .service {}]
      (begun (Turn.begun "read('notes')" [] false []))
    c.turn.idles.map (·.1) = [.succeeded] ∧ c.unreported = ["call"] ∧ c.turn.parts = ["call"] := by
  decide

end Runs

end Conversation

end BlizzardMock.OpenCode2
