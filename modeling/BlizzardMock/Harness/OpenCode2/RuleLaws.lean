import Mathlib.Data.List.Induction
import BlizzardMock.Harness.OpenCode2.TurnLaws
import BlizzardMock.Python.PatternLaws

namespace BlizzardMock.OpenCode2.Rules

variable {pattern text action resource : String} {rules more : List Fields}

def item (c : Char) : PatternItem := if c = '*' then .star else if c = '?' then .any else .one c

theorem wildcard_eq (pattern text : String) :
    wildcard pattern text = matchItems (pattern.toList.map item) text.toList := rfl

theorem matchItems_self (cs : List Char) : matchItems (cs.map item) cs = true := by
  induction cs with
  | nil => rfl
  | cons c cs ih =>
    rw [List.map_cons]
    by_cases star : c = '*'
    · rw [item, if_pos star, matchItems, anyTail_iff]
      exact ⟨cs, List.suffix_cons c cs, ih⟩
    · by_cases any : c = '?'
      · rw [item, if_neg star, if_pos any, matchItems]
        exact ih
      · rw [item, if_neg star, if_neg any]
        simp [matchItems, ih]

@[simp] theorem wildcard_self (pattern : String) : wildcard pattern pattern = true :=
  matchItems_self _

theorem head?_splitOn (sep : Char) (cs : List Char) :
    (cs.splitOn sep).head? = some (cs.takeWhile (· ≠ sep)) := by
  induction cs with
  | nil => rfl
  | cons c cs ih =>
    rw [List.splitOn, List.splitOnP_cons_eq_if_modifyHead, ← List.splitOn]
    by_cases here : c = sep
    · simp [here]
    · cases pieces : cs.splitOn sep with
      | nil => simp [pieces] at ih
      | cons piece pieces' =>
        rw [pieces] at ih
        simpa [here, pieces] using ih

theorem toList_savePattern (command : String) :
    (savePattern command).toList = command.toList.takeWhile (· ≠ ' ') ++ [' ', '*'] := by
  have first : (command.toList.splitOn ' ').head? = some (command.toList.takeWhile (· ≠ ' ')) :=
    head?_splitOn ' ' _
  rw [savePattern, splitAt]
  cases pieces : command.toList.splitOn ' ' with
  | nil => simp [pieces] at first
  | cons piece pieces' =>
    rw [pieces] at first
    cases first
    simp

theorem wildcard_savePattern : wildcard (savePattern resource) resource = true ↔
      ' ' ∈ resource.toList := by
  rw [wildcard_eq, toList_savePattern, List.map_append]
  constructor
  · intro met
    exact mem_of_matchItems met (by simp [item])
  · intro blank
    obtain ⟨word, rest, whole, plain⟩ := List.eq_append_cons_of_mem blank
    have first : resource.toList.takeWhile (· ≠ ' ') = word := by
      rw [whole, List.takeWhile_append_of_pos]
      · simp
      · intro c mem
        simpa using fun same : c = ' ' => plain (same ▸ mem)
    rw [first, whole]
    refine matchItems_append (matchItems_self word) ?_
    simp only [List.map_cons, item]
    simp [anyTail_iff, matchItems]

section Judging

variable [Unicode]

def matched (action resource : String) (rule : Fields) : Bool :=
  wildcard (Json.get rule "action" (.str "")).text action &&
    wildcard (Json.get rule "resource" (.str "")).text resource

def effectOf (rule : Fields) : String := (Json.get rule "effect" (.str "allow")).text

/-- The rules let an action on a resource go on unasked. -/
def Lenient (rules : List Fields) (action resource : String) : Prop :=
  evaluate rules action resource ≠ "deny" ∧ evaluate rules action resource ≠ "ask"

def saved (action resource : String) : Fields :=
  [("action", .str action), ("resource", .str (savePattern resource)), ("effect", .str "allow")]

theorem evaluate_eq (rules : List Fields) (action resource : String) :
    evaluate rules action resource =
      ((rules.filter (matched action resource)).getLast?.map effectOf).getD "allow" := by
  induction rules using List.reverseRecOn with
  | nil => rfl
  | append_singleton rules rule ih =>
    have last : evaluate (rules ++ [rule]) action resource =
        if matched action resource rule then effectOf rule else evaluate rules action resource := by
      rw [evaluate, List.foldl_append]
      rfl
    rw [last, List.filter_append]
    by_cases here : matched action resource rule = true
    · simp [here]
    · simp [here, ih]

theorem evaluate_append (rules more : List Fields) (action resource : String) :
    evaluate (rules ++ more) action resource =
      match (more.filter (matched action resource)).getLast? with
      | some rule => effectOf rule
      | none => evaluate rules action resource := by
  rw [evaluate_eq, evaluate_eq, List.filter_append, List.getLast?_append]
  cases (more.filter (matched action resource)).getLast? <;> rfl

@[simp] theorem effectOf_saved : effectOf (saved action resource) = "allow" := rfl

@[simp] theorem matched_saved : matched action resource (saved action resource) = true ↔
    ' ' ∈ resource.toList := by
  have whole : matched action resource (saved action resource) =
      (wildcard action action && wildcard (savePattern resource) resource) := rfl
  rw [whole, wildcard_self, Bool.true_and, wildcard_savePattern]

theorem lenient_saved (lenient : ∀ rule ∈ more, matched action resource rule = true →
      effectOf rule ≠ "deny" ∧ effectOf rule ≠ "ask") :
    Lenient (rules ++ [saved action resource] ++ more) action resource ↔
      ' ' ∈ resource.toList ∨ Lenient (rules ++ more) action resource := by
  simp only [Lenient, evaluate_append _ more]
  cases last : (more.filter (matched action resource)).getLast? with
  | some rule =>
    have mem := List.mem_filter.mp (List.mem_of_getLast? last)
    simp [lenient rule mem.1 mem.2]
  | none =>
    rw [evaluate_append]
    by_cases blank : ' ' ∈ resource.toList
    · have last' : ([saved action resource].filter (matched action resource)).getLast? =
          some (saved action resource) := by simp [matched_saved.mpr blank]
      simp only [last', effectOf_saved]
      exact iff_of_true ⟨by decide, by decide⟩ (.inl blank)
    · have unmatched : matched action resource (saved action resource) = false :=
        Bool.eq_false_iff.mpr (mt matched_saved.mp blank)
      simp [unmatched, blank]

theorem Lenient.append (lenient : Lenient rules action resource)
    (allows : ∀ rule ∈ more, matched action resource rule = true →
      effectOf rule ≠ "deny" ∧ effectOf rule ≠ "ask") :
      Lenient (rules ++ more) action resource := by
  simp only [Lenient, evaluate_append]
  cases last : (more.filter (matched action resource)).getLast? with
  | some rule =>
    have mem := List.mem_filter.mp (List.mem_of_getLast? last)
    exact allows rule mem.1 mem.2
  | none => exact lenient

omit [Unicode] in
theorem getLast?_filter {α : Type} {p q : α → Bool} {l : List α} {a : α}
    (last : (l.filter p).getLast? = some a)
    (strict : ∀ b, q b = true → p b = true) (passes : q a = true) :
    (l.filter q).getLast? = some a := by
  induction l using List.reverseRecOn with
  | nil => cases last
  | append_singleton l b ih =>
    rw [List.filter_append] at last ⊢
    by_cases here : p b = true
    · have same : b = a := by simpa [here] using last
      simp [same, passes]
    · have out : q b = false := Bool.eq_false_iff.mpr (mt (strict b) here)
      simp only [List.filter_cons_of_neg here, List.filter_nil, List.append_nil] at last
      simpa [out] using ih last

omit [Unicode] in
theorem wildcard_star (text : String) : wildcard "*" text = true := by
  rw [wildcard_eq]
  simp [item, matchItems, anyTail_iff, List.nil_suffix]

theorem evaluate_of_withheld {tool : String} (kept : withheld rules tool = true)
    (resource : String) :
    evaluate rules tool resource = "deny" := by
  rw [withheld] at kept
  split at kept
  case h_1 => cases kept
  case h_2 rule last =>
    split at kept
    case h_1 pattern effect named denied =>
      simp only [Bool.and_eq_true, decide_eq_true_eq] at kept
      obtain ⟨rfl, rfl⟩ := kept
      have there := (List.mem_filter.mp (List.mem_of_getLast? last)).2
      have last' : (rules.filter (matched tool resource)).getLast? = some rule := by
        refine getLast?_filter last (fun _ both => (Bool.and_eq_true_iff.mp both).1) ?_
        rw [matched, there, Bool.true_and, Json.get, named]
        exact wildcard_star resource
      rw [evaluate_eq, last']
      simp [effectOf, Json.get, denied, Json.text]
    case h_2 => cases kept

end Judging

end BlizzardMock.OpenCode2.Rules

namespace BlizzardMock.OpenCode2.Turn

section Permissions

variable (turn : Turn)

@[simp] theorem permissions_goTo (point : Point) : (turn.goTo point).permissions =
      turn.permissions := rfl

@[simp] theorem permissions_addPart (part : Part) : (turn.addPart part).permissions =
      turn.permissions := rfl

@[simp] theorem permissions_setStatus (call : String) (status : Status) :
    (turn.setStatus call status).permissions = turn.permissions := rfl

@[simp] theorem permissions_completeTool (call output : String) (metadata : Fields) :
    (turn.completeTool call output metadata).permissions = turn.permissions := rfl

@[simp] theorem permissions_failTool (call kind message : String) :
    (turn.failTool call kind message).permissions = turn.permissions := rfl

@[simp] theorem permissions_allow (call : String) : (turn.allow call).permissions =
      turn.permissions := rfl

@[simp] theorem permissions_close (finish : String) : (turn.close finish).permissions =
      turn.permissions := by
  rw [close]
  split <;> rfl

@[simp] theorem permissions_steer (next : Point) : (turn.steer next).permissions =
      turn.permissions := by
  rw [steer]
  split <;> rfl

@[simp] theorem permissions_report (call : String) (told : Turn)
    (same : told.permissions = turn.permissions) :
    (turn.report call told).permissions = turn.permissions := by
  rw [report]
  split
  case isTrue => exact same
  case isFalse => rfl

theorem permissions_heed (next : Turn) (same : next.permissions = turn.permissions) :
    (turn.heed next).permissions = turn.permissions := by
  rw [heed]
  split
  case isTrue => rfl
  case isFalse => exact same

theorem permissions_settle (call child : String) (reply : Option String) :
    (turn.settle call child reply).permissions = turn.permissions := by
  cases reply <;> rfl

variable [Unicode]

@[simp] theorem permissions_openTool (call name : String) (input : Fields) (next : Point) :
    (turn.openTool call name input next).permissions = turn.permissions := by
  rw [openTool]
  split <;> rfl

@[simp] theorem permissions_hear (found : Found) (request : Request) :
    (turn.hear found request).permissions = turn.permissions := by
  cases request with
  | usage tokens cost =>
    rw [hear]
    split <;> rfl
  | toolDone call output metadata => exact permissions_report turn call _ rfl
  | toolFailed call kind message => exact permissions_report turn call _ rfl
  | _ => simp [hear]

@[simp] theorem permissions_judge (call name resource : String) (ask : Bool) :
    (turn.judge call name resource ask).permissions = turn.permissions := by
  simp only [judge]
  generalize (if (ask && decide (Rules.evaluate turn.permissions name resource = "allow")) =
    true then "ask"
    else Rules.evaluate turn.permissions name resource) = effect
  split
  case isTrue => rfl
  case isFalse => split <;> rfl

end Permissions

section Answers

variable [Unicode] {turn later : Turn} {action resource call : String} {ask : Ask}
    {more : List Fields}

theorem judge_eq_allow : turn.judge call action resource false = turn.allow call ↔
    Rules.Lenient turn.permissions action resource := by
  simp only [judge, Bool.false_and, Bool.false_eq_true, if_false, Rules.Lenient]
  by_cases denied : Rules.evaluate turn.permissions action resource = "deny"
  · rw [if_pos denied]
    refine iff_of_false (fun same => ?_) fun lenient => lenient.1 denied
    have point := congrArg Turn.point same
    cases point
  · rw [if_neg denied]
    by_cases asked : Rules.evaluate turn.permissions action resource = "ask"
    · rw [if_pos asked]
      refine iff_of_false (fun same => ?_) fun lenient => lenient.2 asked
      have point := congrArg Turn.point same
      cases point
    · rw [if_neg asked]
      exact iff_of_true rfl ⟨denied, asked⟩

omit [Unicode] in
theorem permissions_heedAnswer : (turn.heedAnswer call action resource ask).permissions =
    if turn.cancel = false ∧ ask.decision = some "always" then
      turn.permissions ++ [Rules.saved action resource] else turn.permissions := by
  rw [heedAnswer]
  cases decided : ask.decision with
  | none => simp
  | some decision =>
    cases flag : turn.cancel with
    | true => simp
    | false =>
      by_cases rejects : decision = "reject"
      · have other : decision ≠ "always" := by simp [rejects]
        cases ask.message <;> simp [rejects]
      · by_cases always : decision = "always"
        · simp [always]
          rfl
        · simp [rejects, always]

/-- What follows in a session whose rules nobody replaces: the turn goes on, or another one starts
on the rules the last one left. -/
inductive Follows (turn : Turn) : Turn → Prop
  | same : Follows turn turn
  | event {later : Turn} (event : Event) (so_far : Follows turn later) :
      Follows turn (next event later)
  | another {later other : Turn} (so_far : Follows turn later)
      (rules : other.permissions = later.permissions) : Follows turn other

theorem permissions_next (event : Event) : (next event turn).permissions = turn.permissions ∨
    ∃ action resource, (next event turn).permissions = turn.permissions ++
      [Rules.saved action resource] := by
  cases event with
  | interrupt => exact .inl rfl
  | prompt kind text => exact .inl rfl
  | replyPermission decision message => exact .inl rfl
  | advance found =>
    simp only [next, advance]
    cases turn.point with
    | woken call name resource ask =>
      dsimp only
      rw [permissions_heedAnswer]
      split
      case isTrue => exact .inr ⟨name, resource, rfl⟩
      case isFalse => exact .inl rfl
    | fencing => cases found.refusal <;> exact .inl rfl
    | reading =>
      cases found.line with
      | none => exact .inl rfl
      | some line =>
        cases line with
        | obj fields => exact .inl (permissions_hear ..)
        | _ => exact .inl rfl
    | boundary | steering => exact .inl (permissions_steer ..)
    | judging => exact .inl (permissions_judge ..)
    | asking =>
      cases turn.ask with
      | none => exact .inl rfl
      | some ask =>
        dsimp only
        split <;> exact .inl rfl
    | spawned =>
      dsimp only
      split <;> exact .inl rfl
    | waiting =>
      dsimp only
      split
      case isTrue => exact .inl (permissions_settle ..)
      case isFalse => exact .inl (permissions_heed _ _ rfl)
    | form =>
      dsimp only
      split
      case isTrue => exact .inl rfl
      case isFalse => exact .inl (permissions_heed _ _ rfl)
    | grace | checking => exact .inl (permissions_heed _ _ rfl)
    | «over» how => cases how <;> exact .inl (permissions_heed _ _ rfl)
    | closing | steered => exact .inl (permissions_close ..)
    | _ => exact .inl rfl

theorem Follows.permissions (follows : Follows turn later) :
    ∃ more, later.permissions = turn.permissions ++ more ∧ ∀ rule ∈ more,
      Rules.effectOf rule = "allow" := by
  induction follows with
  | same => exact ⟨[], by simp, by simp⟩
  | another _ rules ih =>
    rw [rules]
    exact ih
  | event event _ ih =>
    obtain ⟨more, kept, allows⟩ := ih
    obtain same | ⟨action, resource, saved⟩ := permissions_next event
    · exact ⟨more, same.trans kept, allows⟩
    · refine ⟨more ++ [Rules.saved action resource], by rw [saved, kept, List.append_assoc], ?_⟩
      intro rule mem
      cases List.mem_append.mp mem with
      | inl old => exact allows rule old
      | inr new =>
        rw [List.mem_singleton.mp new]
        rfl

/-- A call that was always allowed is let go on from then on, unasked, just where its resource has a
blank and no interrupt overtook the answer, or the other rules let it go on; and a tool that is
withheld could never have run. -/
theorem always_holds_iff (turn : Turn) (action resource call : String) (ask : Ask)
    (always : ask.decision = some "always") :
    (∀ (later : Turn) (more : List Fields) (call' : String),
      later.permissions = (turn.heedAnswer call action resource ask).permissions ++ more →
      (∀ rule ∈ more, Rules.matched action resource rule = true →
        Rules.effectOf rule ≠ "deny" ∧ Rules.effectOf rule ≠ "ask") →
      (later.judge call' action resource false = later.allow call' ↔
        (turn.cancel = false ∧ ' ' ∈ resource.toList) ∨
          Rules.Lenient (turn.permissions ++ more) action resource)) ∧
    (∀ later, Follows (turn.heedAnswer call action resource ask) later →
      (turn.cancel = false ∧ ' ' ∈ resource.toList) ∨
        Rules.Lenient turn.permissions action resource →
        ∀ call', later.judge call' action resource false = later.allow call') ∧
    ∀ rules tool, Rules.withheld rules tool = true → ∀ other,
      Rules.evaluate rules tool other = "deny" := by
  have kept_iff : ∀ (later : Turn) (more : List Fields) (call' : String),
      later.permissions = (turn.heedAnswer call action resource ask).permissions ++ more →
      (∀ rule ∈ more, Rules.matched action resource rule = true →
        Rules.effectOf rule ≠ "deny" ∧ Rules.effectOf rule ≠ "ask") →
      (later.judge call' action resource false = later.allow call' ↔
        (turn.cancel = false ∧ ' ' ∈ resource.toList) ∨
          Rules.Lenient (turn.permissions ++ more) action resource) := by
    intro later more call' kept allows
    rw [judge_eq_allow, kept, permissions_heedAnswer]
    cases flag : turn.cancel with
    | true => simp
    | false => simpa [always] using Rules.lenient_saved allows
  refine ⟨kept_iff, ?_, fun _ _ => Rules.evaluate_of_withheld⟩
  intro later follows condition call'
  obtain ⟨more, kept, allow⟩ := follows.permissions
  have allows : ∀ rule ∈ more, Rules.matched action resource rule = true →
      Rules.effectOf rule ≠ "deny" ∧ Rules.effectOf rule ≠ "ask" := by
    intro rule mem _
    rw [allow rule mem]
    exact ⟨by decide, by decide⟩
  exact (kept_iff later more call' kept allows).mpr (condition.imp_right fun lenient =>
    lenient.append allows)

end Answers

section Runs

attribute [local instance] Platform.plain

def asking : List Fields :=
  [[("action", .str "shell"), ("resource", .str "*"), ("effect", .str "ask")]]

def called (resource : String) : Event :=
  hears [("op", .str "tool"), ("name", .str "shell"), ("resource", .str resource)]

def answered (resource : String) : Turn :=
  Machine.after next
    [.advance {}, .advance {}, .advance {}, called resource, .advance {},
      .replyPermission "always" none,
      .advance {}] (begun "" asking false [])

theorem always_holds_touch :
    let always : Ask := { answered := true, decision := some "always" }
    let later := next (called "touch two") <| next (.advance {}) <|
      (answered "touch one").heedAnswer "" "shell" "touch one" always
    (answered "touch one").point = .woken "" "shell" "touch one" always ∧
      later.point = .judging "" "shell" "touch two" false ∧
      later.judge "" "shell" "touch one" false = later.allow "" := by
  intro always later
  refine ⟨rfl, rfl, ?_⟩
  have holds := always_holds_iff (answered "touch one") "shell" "touch one" "" always rfl
  exact holds.2.1 later (.event _ (.event _ .same)) (.inl ⟨rfl, by decide⟩) ""

/-- The pattern saved for a command of one word does not match the command: the same call is asked
about again. -/
theorem always_asks_again :
    let later := Machine.after next [.advance {}, .advance {}, called "ls", .advance {}]
      (answered "ls")
    later.point = .asking "" "shell" "ls" ∧
      later.permissions = asking ++ [Rules.saved "shell" "ls"] ∧
      later.cancel = false :=
  ⟨rfl, rfl, rfl⟩

end Runs

end BlizzardMock.OpenCode2.Turn
