import BlizzardMock.Harness.OpenCode2.Turns

namespace BlizzardMock.OpenCode2

def Status.Open : Status → Prop
  | .running | .pending => True
  | .completed .. | .error .. => False

namespace Turn

section Idles

variable {turn : Turn}

theorem idles_close (turn : Turn) (finish : String) : (turn.close finish).idles = turn.idles := by
  rw [close]
  split <;> rfl

theorem idles_steer (turn : Turn) (next : Point) : (turn.steer next).idles = turn.idles := by
  rw [steer]
  split <;> rfl

theorem idles_heed {next : Turn} (same : next.idles = turn.idles) : (turn.heed next).idles =
      turn.idles := by
  rw [heed]
  split
  case isTrue => rfl
  case isFalse => exact same

theorem idles_report (turn : Turn) (call : String) {told : Turn} (same : told.idles = turn.idles) :
    (turn.report call told).idles = turn.idles := by
  rw [report]
  split
  case isTrue => exact same
  case isFalse => rfl

theorem idles_settle (turn : Turn) (call child : String) (reply : Option String) :
    (turn.settle call child reply).idles = turn.idles := by
  cases reply <;> rfl

theorem idles_heedAnswer (turn : Turn) (call name resource : String) (ask : Ask) :
    (turn.heedAnswer call name resource ask).idles = turn.idles := by
  rw [heedAnswer]
  repeat' split
  all_goals rfl

variable [Unicode]

theorem idles_openTool (turn : Turn) (call name : String) (input : Fields) (next : Point) :
    (turn.openTool call name input next).idles = turn.idles := by
  rw [openTool]
  split <;> rfl

theorem idles_judge (turn : Turn) (call name resource : String) (ask : Bool) :
    (turn.judge call name resource ask).idles = turn.idles := by
  unfold judge
  extract_lets effect judged
  repeat' split
  all_goals rfl

theorem idles_hear (turn : Turn) (found : Found) (request : Request) :
    (turn.hear found request).idles = turn.idles := by
  cases request with
  | usage tokens cost =>
    rw [hear]
    split <;> rfl
  | step => exact idles_close turn _
  | tool | subagent => exact idles_openTool ..
  | toolDone | toolFailed => exact idles_report turn _ rfl
  | text | reasoning | form | ends | fails | other => rfl

theorem idles_advance (turn : Turn) (found : Found)
    (busy : ∀ outcome error byScript, turn.point ≠ .idling outcome error byScript) :
    (turn.advance found).idles = turn.idles := by
  rw [advance]
  cases here : turn.point with
  | idling outcome error byScript => exact absurd here (busy outcome error byScript)
  | fencing => cases found.refusal <;> rfl
  | reading =>
    cases found.line with
    | none => rfl
    | some line =>
      cases line with
      | obj fields => exact idles_hear ..
      | _ => rfl
  | boundary | steering => exact idles_steer ..
  | judging => exact idles_judge ..
  | asking =>
    dsimp only
    repeat' split
    all_goals rfl
  | woken => exact idles_heedAnswer ..
  | spawned call child background => cases background <;> rfl
  | waiting =>
    dsimp only
    split
    case isTrue => exact idles_settle ..
    case isFalse => exact idles_heed rfl
  | grace | checking => exact idles_heed rfl
  | form =>
    dsimp only
    split
    case isTrue => rfl
    case isFalse => exact idles_heed rfl
  | «over» how =>
    refine idles_heed ?_
    cases how <;> rfl
  | closing => exact idles_close ..
  | steered => exact idles_close ..
  | opening | greeting | reopening | declining | failing | interrupting | restarting
      | declined | returned
  | crashed => rfl

end Idles

def OpenAmong (turn : Turn) (among : String → Prop) : Prop :=
  ∀ step ∈ turn.steps, ∀ call, Part.tool call ∈ step.content → call.status.Open → among call.id

section Open

variable {turn : Turn} {P Q : String → Prop}

theorem OpenAmong.mono (h : turn.OpenAmong P) (le : ∀ id, P id → Q id) : turn.OpenAmong Q :=
  fun step mem call held «open» => le _ (h step mem call held «open»)

theorem OpenAmong.congr (h : turn.OpenAmong P) {other : Turn} (steps : other.steps = turn.steps) :
    other.OpenAmong P := by
  rw [OpenAmong, steps]
  exact h

theorem OpenAmong.onStep (h : turn.OpenAmong P) {f : Assistant → Assistant}
    (parts : ∀ step, ∀ part ∈ (f step).content, part ∈ step.content ∨ ∀ call, part = .tool call →
      call.status.Open → P call.id) : (turn.onStep f).OpenAmong P := by
  intro step mem call held unsettled
  cases steps : turn.steps with
  | nil => simp [Turn.onStep, steps] at mem
  | cons first rest =>
    simp only [Turn.onStep, steps, List.modifyHead_cons, List.mem_cons] at mem
    cases mem with
    | inl first =>
      subst first
      cases parts _ _ held with
      | inl before => exact h _ (by simp [steps]) call before unsettled
      | inr added => exact added call rfl unsettled
    | inr later => exact h step (by simp [steps, later]) call held unsettled

theorem OpenAmong.addPart (h : turn.OpenAmong P) {part : Part}
    (added : ∀ call, part = .tool call → call.status.Open → P call.id) :
    (turn.addPart part).OpenAmong P := by
  refine h.onStep fun step other mem => ?_
  simp only [List.mem_append, List.mem_singleton] at mem
  cases mem with
  | inl before => exact .inl before
  | inr last => exact .inr (last ▸ added)

theorem OpenAmong.setStatus {id : String} {status : Status} (h : turn.OpenAmong fun other =>
      other = id ∨ P other)
    (unsettled : status.Open → P id) : (turn.setStatus id status).OpenAmong P := by
  intro step mem call part «open»
  simp only [Turn.setStatus, List.mem_map] at mem
  obtain ⟨before, was, rfl⟩ := mem
  simp only [List.mem_map] at part
  obtain ⟨old, there, same⟩ := part
  cases old with
  | text | reasoning => cases same
  | tool held =>
    simp only at same
    split at same
    case isTrue named =>
      cases same
      exact named ▸ unsettled «open»
    case isFalse other =>
      cases same
      exact (h before was call there «open»).resolve_left other

theorem OpenAmong.openStep (h : turn.OpenAmong P) : turn.openStep.OpenAmong P := by
  intro step mem call held
  simp only [Turn.openStep, List.mem_cons] at mem
  cases mem with
  | inl new => simp [new] at held
  | inr before => exact h step before call held

theorem OpenAmong.close (h : turn.OpenAmong P) (finish : String) :
    (turn.close finish).OpenAmong P := by
  rw [Turn.close]
  split
  case isTrue => exact h
  case isFalse => exact h.onStep fun step part mem => .inl mem

end Open

theorem parts_close (turn : Turn) (finish : String) : (turn.close finish).parts = turn.parts := by
  rw [Turn.close]
  split <;> rfl

/-- Of the calls the child was allowed, the tools of all but the pending one raised; and a call not
come out is one it was allowed, or in hand. -/
structure Accounted (turn : Turn) (unreported : List String) (hand pending : Option String) :
    Prop where
  parts : ∃ stale, turn.parts.Perm (pending.toList ++ stale) ∧ ∀ call ∈ stale, call ∈ unreported
  opened : turn.OpenAmong fun call => hand = some call ∨ call ∈ turn.parts ∨ call ∈ unreported

namespace Accounted

variable {turn : Turn} {unreported : List String} {hand pending : Option String} {call : String}

theorem congr (acc : turn.Accounted unreported hand pending) {other : Turn}
    (steps : other.steps = turn.steps)
    (parts : other.parts = turn.parts) : other.Accounted unreported hand pending := by
  refine ⟨parts ▸ acc.parts, OpenAmong.congr ?_ steps⟩
  rw [parts]
  exact acc.opened

theorem settled (acc : turn.Accounted unreported none none) : turn.OpenAmong (· ∈ unreported) := by
  obtain ⟨stale, parts, raised⟩ := acc.parts
  refine acc.opened.mono fun call among => ?_
  rcases among with none | allowed | raised
  · cases none
  · exact raised call (parts.mem_iff.mp allowed)
  · exact raised

theorem of_settled (parts : turn.parts = []) (settled : turn.OpenAmong (· ∈ unreported)) :
    turn.Accounted unreported none none :=
  ⟨⟨[], by simp [parts], by simp⟩, settled.mono fun _ mem => .inr (.inr mem)⟩

theorem granted (acc : turn.Accounted unreported hand (some call)) : call ∈ turn.parts := by
  obtain ⟨stale, parts, _⟩ := acc.parts
  exact parts.mem_iff.mpr (by simp)

theorem status (acc : turn.Accounted unreported (some call) pending) (status : Status)
    (still : Option String)
    (unsettled : status.Open → still = some call) :
    (turn.setStatus call status).Accounted unreported still pending := by
  refine ⟨acc.parts, OpenAmong.setStatus (acc.opened.mono fun id among => ?_) fun «open» =>
    .inl (unsettled «open»)⟩
  rcases among with hand | rest
  · exact .inl (Option.some.inj hand).symm
  · exact .inr (.inr rest)

theorem openTool (acc : turn.Accounted unreported none pending) (name : String) (input : Fields) :
    (turn.addPart (.tool { id := call, name, input })).Accounted unreported
      (some call) pending := by
  refine ⟨acc.parts, OpenAmong.addPart (acc.opened.mono fun id among => ?_) fun held new _ => ?_⟩
  · exact .inr (among.resolve_left nofun)
  · cases new
    exact .inl rfl

theorem addPart (acc : turn.Accounted unreported hand pending) (part : Part)
    (plain : ∀ call, part ≠ .tool call) :
    (turn.addPart part).Accounted unreported hand pending :=
  ⟨acc.parts, acc.opened.addPart fun call tool => absurd tool (plain call)⟩

theorem close (acc : turn.Accounted unreported hand pending) (finish : String) :
    (turn.close finish).Accounted unreported hand pending := by
  refine ⟨?_, ?_⟩
  · rw [parts_close]
    exact acc.parts
  · rw [parts_close]
    exact acc.opened.close finish

theorem allow (acc : turn.Accounted unreported (some call) none) :
    { turn with parts := turn.parts ++ [call] }.Accounted unreported none (some call) := by
  obtain ⟨stale, parts, raised⟩ := acc.parts
  refine ⟨⟨stale, (parts.append_right [call]).trans List.perm_append_comm, raised⟩, ?_⟩
  refine (acc.opened.mono fun id among => ?_).congr rfl
  rcases among with hand | allowed | raised
  · cases hand
    exact .inr (.inl (by simp))
  · exact .inr (.inl (by simp [allowed]))
  · exact .inr (.inr raised)

theorem report (acc : turn.Accounted unreported none (some call)) {status : Status}
    (out : ¬status.Open) :
    { turn.setStatus call status with parts := turn.parts.erase call }.Accounted unreported
      none none := by
  obtain ⟨stale, parts, raised⟩ := acc.parts
  have erased : (turn.parts.erase call).Perm stale := by simpa using parts.erase call
  refine ⟨⟨stale, erased, raised⟩, ?_⟩
  refine (OpenAmong.setStatus (acc.opened.mono fun id among => ?_) fun «open» =>
    absurd «open» out).congr rfl
  rcases among with none | allowed | raised
  · cases none
  · by_cases same : id = call
    · exact .inl same
    · exact .inr (.inr (.inl ((List.mem_erase_of_ne same).mpr allowed)))
  · exact .inr (.inr (.inr raised))

theorem raise (acc : turn.Accounted unreported hand (some call)) :
    turn.Accounted (unreported ++ [call]) hand none := by
  obtain ⟨stale, parts, raised⟩ := acc.parts
  refine ⟨⟨call :: stale, parts, fun id mem => ?_⟩, acc.opened.mono fun id among => ?_⟩
  · cases List.mem_cons.mp mem with
    | inl same => simp [same]
    | inr old => simp [raised id old]
  · exact among.imp_right (.imp_right fun raised => by simp [raised])

end Accounted

end Turn

end BlizzardMock.OpenCode2
