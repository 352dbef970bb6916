import BlizzardMock.MockRunner.AsideLaws

namespace BlizzardMock.MockRunner

open Method MockHub

/-- No lever of the driver reaches a chunk. -/
def Stack.Undistorted (c : String) (stack : Stack) : Prop :=
  ∀ kind : RunnerLever, stack.runner.levers.find kind.value (some c) = none

namespace MockRunnerService

section Pulls

variable {c : String} {α : Type}

def Pulls (c : String) (stack later : Stack) : Prop :=
  later = { stack with runner := { stack.runner with levers := later.runner.levers } } ∧
    (stack.Undistorted c → later = stack)

instance : IsPreorder Stack (Pulls c) where
  refl _ := ⟨rfl, fun _ => rfl⟩
  trans first mid last pulled further := by
    refine ⟨further.1.trans ?_, fun plain => ?_⟩
    · rw [pulled.1]
    · have same := pulled.2 plain
      rw [same] at further
      exact further.2 plain

section Pulled

variable {stack later : Stack} (pulled : Pulls c stack later)

include pulled

theorem Pulls.hub : later.hub = stack.hub := by
  have same := congrArg Stack.hub pulled.1
  exact same

theorem Pulls.held : later.runner.held = stack.runner.held := by
  have same := congrArg (fun stack : Stack => stack.runner.held) pulled.1
  exact same

theorem Pulls.steady : stack.hub.roster.Steady later.hub.roster := by
  rw [pulled.hub]
  exact .refl _

theorem Pulls.ready [Platform] {token : Option String} (ready : stack.Ready token) :
    later.Ready token := by
  have same : lane later = lane stack := by
    have same := congrArg lane pulled.1
    exact same
  refine ready_of_lane same ?_ ready
  rw [pulled.held]
  exact ready.filed

end Pulled

def drained (kind : RunnerLever) (c : String) (stack : Stack) : Stack :=
  { stack with runner := { stack.runner with
    levers := (stack.runner.levers.find kind.value (some c)).elim stack.runner.levers
      stack.runner.levers.consume } }

theorem pulls_drained (kind : RunnerLever) (stack : Stack) :
    Pulls c stack (drained kind c stack) := by
  refine ⟨rfl, fun plain => ?_⟩
  rw [drained, plain kind]
  rfl

theorem run_pull (kind : RunnerLever) (stack : Stack) : (pull kind c).run stack =
    .ok (stack.runner.levers.find kind.value (some c)).isSome (drained kind c stack) := by
  change EStateM.run (whenSome consume (stack.runner.levers.find kind.value (some c)) >>= fun _ =>
    _) stack = _
  simp only [drained]
  cases stack.runner.levers.find kind.value (some c) <;> rfl

theorem after_applyDelay (stack : Stack) :
    Method.after (applyDelay (some c)) stack = drained .delay c stack := by
  change Method.after
    (whenSome _ (stack.runner.levers.find RunnerLever.delay.value (some c))) stack = _
  simp only [drained]
  cases stack.runner.levers.find RunnerLever.delay.value (some c) with
  | none => rfl
  | some lever =>
    dsimp only [whenSome]
    rw [after_bind_of_ok _ rfl]
    have kept : Keeps id (settle (Json.get lever.payload "ms" (.int 0)).toInt >>= fun ms =>
        refuseIf (ms < 0) PyError.valueError : DriveM PUnit) := inferInstance
    exact kept.keeps _

instance : Follows (Pulls c) (applyDelay (some c)) where
  follows stack := by
    rw [after_applyDelay]
    exact pulls_drained _ stack

theorem outcome_pull {β : Type} {kind : RunnerLever} {g : Bool → DriveM β} {origin stack : Stack}
    {P : Except PyError β → Stack → Prop} (pulled : Pulls c origin stack)
    (continued : ∀ found later, (origin.Undistorted c → found = false) → Pulls c origin later →
      P (answer (g found) later) (Method.after (g found) later)) :
    P (answer (pull kind c >>= g) stack) (Method.after (pull kind c >>= g) stack) := by
  have run := run_bind_of_run (g := g) (run_pull (c := c) kind stack)
  rw [answer_of_run run, after_of_run run]
  refine continued _ _ (fun plain => ?_) (trans_of (Pulls c) pulled (pulls_drained kind stack))
  rw [pulled.2 plain, plain kind]
  rfl

theorem outcome_applyDelay {β : Type} {g : Unit → DriveM β} {stack : Stack}
    {P : Except PyError β → Stack → Prop}
    (stopped : ∀ e later, ¬ stack.Undistorted c → Pulls c stack later → P (.error e) later)
    (continued : ∀ later, Pulls c stack later →
      P (answer (g ()) later) (Method.after (g ()) later)) :
    P (answer (applyDelay (some c) >>= g) stack)
      (Method.after (applyDelay (some c) >>= g) stack) := by
  refine outcome_bind_of_follows (R := Pulls c) (refl_of (Pulls c) stack)
    (fun e later raised pulled => ?_)
    fun _ later _ => continued later
  refine stopped e later (fun plain => ?_) pulled
  have idle : answer (applyDelay (some c)) stack = .ok () := by
    change answer (whenSome _ (stack.runner.levers.find RunnerLever.delay.value (some c))) stack = _
    rw [plain]
    rfl
  rw [idle] at raised
  cases raised

end Pulls

section Calls

variable [Platform] {token : Option String} {c r : String} {stack : Stack} {f : Footing}

def replied : Except HubError ApplyResponse → Reply ApplyResponse
  | .ok response => .served 200 response
  | .error error => .refused (Api.chunkRefusal error).1 (some error)

theorem run_submit (ready : stack.Ready token) (stays : stack.hub.footing c = some f)
    (named : stack.hub.roster.Names token r)
    (works : stack.hub.roster.Works r f.projectId) (e : Int)
    (n choice : String) :
    ∃ hub answered later, (call (Api.submitCompletion · c e n choice)).run stack =
        .ok (replied answered) { stack with hub } ∧
      Stack.Ready token { stack with hub } ∧ stack.hub.roster.Steady hub.roster ∧
      hub.footing c = some later ∧ f.Completes n e later answered := by
  obtain ⟨later, stands, completes⟩ :=
    MockHubService.applyCompletion_completes ready.unarmed stays e n choice
  have route : (Api.submitCompletion token c e n choice).run stack.hub =
      .ok (replied (answer (MockHubService.applyCompletion c e n choice) stack.hub))
        (stack.hub.next (.applyCompletion c e n choice)) := by
    rw [Api.run_submitCompletion_working ready.unarmed stays named works]
    cases answer (MockHubService.applyCompletion c e n choice) stack.hub <;> rfl
  have run : (call (Api.submitCompletion · c e n choice)).run stack = .ok _
    { stack with hub := _ } :=
    run_call_of_ready ready route
  have ahead : (Method.after (call (Api.submitCompletion · c e n choice)) stack).Ahead
    (stack.hub.roster.Names token) token :=
    (inferInstance : Follows (Stays _ token) _).follows stack ready.toAhead
  rw [after_of_run_ok run] at ahead
  have later := ready_of_comes ready ahead ready.direct rfl (after_of_run_ok route).symm
    (Api.comes_submitCompletion token c e n choice) (by
      rintro _ rfl
      trivial)
  exact ⟨_, _, _, run, later.1, later.2, stands, completes⟩

theorem run_reportLease (ready : stack.Ready token) {held : Held} (named : held.chunkId = c)
    (stays : stack.hub.footing c = some f) (bearer : stack.hub.roster.Names token r)
    (works : stack.hub.roster.Works r f.projectId) :
    ∃ later, (reportLease held).run stack = .ok () later ∧ later.Ready token ∧
      later.runner.held = stack.runner.held ∧ stack.hub.roster.Steady later.hub.roster ∧
      later.hub.footing c = some { f with epoch := max f.epoch held.epoch } := by
  let payload := stamped held [("chunk_id", .str held.chunkId), ("epoch", .int held.epoch)]
  have run := run_pushFact leaseMinted payload stack
  have ahead : (Method.after (pushFact leaseMinted payload) stack).Ahead
    (stack.hub.roster.Names token) token :=
    (inferInstance : Follows (Stays _ token) _).follows stack ready.toAhead
  rw [after_of_run_ok run] at ahead
  have hub := after_push_of_ready ready leaseMinted payload
  have later := ready_of_comes ready ahead (tail_of_ready ready) rfl hub
    (Api.comes_pushFacts token [nextFact leaseMinted payload stack]) (by
      rintro _ ⟨r, rfl⟩
      trivial)
  have new : stack.hub.factHighWater.getD r 0 < (nextFact leaseMinted payload stack).seq :=
    Int.lt_add_one_of_le (ready.ahead r bearer)
  have fenced := Api.footing_pushFacts_minted ready.unarmed stays bearer works new rfl named rfl
  rw [← hub] at fenced
  refine ⟨_, ?_, later.1, rfl, later.2, fenced⟩
  simp only [reportLease]
  exact run_bind_of_run run

inductive Settled (c : String) (f : Footing) (later : Stack) : Prop
  | ended (gone : later.runner.held.get? c = none) (stays : later.hub.footing c = some f)
  | moved (held : Held) (holds : later.runner.held.get? c = some held)
      (stands : f.node = some held.fromNodeId)
    (next : held.epoch = f.epoch + 1)
      (fenced : later.hub.footing c = some { f with epoch := held.epoch })

/-- What `_advance` does of a chunk that is held. -/
def carryOn (c : String) (response : ApplyResponse) (held : Held) : DriveM Unit :=
  match response.outcome, response.nextEnvelope with
  | .next, some envelope => do
    let held : Held := { held with fromNodeId := envelope.node.nodeId, epoch := envelope.epoch + 1 }
    setRunner fun runner => { runner with held := runner.held.set c held }
    reportLease held
  | _, _ => setRunner fun runner => { runner with held := runner.held.erase c }

theorem advance_eq (c : String) (response : ApplyResponse) : advance c response = (do
    whenSome (carryOn c response) (← readRunner (·.held.get? c))) := rfl

theorem run_advance (ready : stack.Ready token) {held : Held}
    (holds : stack.runner.held.get? c = some held)
    (stays : stack.hub.footing c = some f) (bearer : stack.hub.roster.Names token r)
    (works : stack.hub.roster.Works r f.projectId) {response : ApplyResponse}
    (hands : response.outcome = .next → f.Hands response) :
    ∃ later, (advance c response).run stack = .ok () later ∧ later.Ready token ∧
      stack.hub.roster.Steady later.hub.roster ∧ Settled c f later := by
  have read : (advance c response).run stack = (carryOn c response held).run stack := by
    rw [advance_eq]
    change EStateM.run (whenSome _ (stack.runner.held.get? c)) stack = _
    rw [holds]
    rfl
  rw [read, carryOn]
  split
  case h_1 envelope outcome handed =>
    obtain ⟨stands, epoch⟩ := hands outcome envelope handed
    let moved : Held :=
      { held with fromNodeId := envelope.node.nodeId, epoch := envelope.epoch + 1 }
    let entered : Stack :=
      { stack with runner := { stack.runner with held := stack.runner.held.set c moved } }
    have named : moved.chunkId = c := ready.filed c held holds
    have same : lane entered = lane stack := rfl
    have entered_ready := ready_of_lane same (filed_set ready.filed named) ready
    obtain ⟨later, run, later_ready, kept, steady, fenced⟩ :=
      run_reportLease entered_ready named stays bearer works
    refine ⟨later, run, later_ready, steady, .moved moved ?_ stands (congrArg (· + 1) epoch) ?_⟩
    · rw [kept]
      exact Dict.get?_set_self _ _ _
    · have above : max f.epoch moved.epoch = moved.epoch := by
        rw [← epoch]
        exact max_eq_right (Int.le_add_one (le_refl _))
      rw [above] at fenced
      exact fenced
  case h_2 =>
    let left : Stack :=
      { stack with runner := { stack.runner with held := stack.runner.held.erase c } }
    have same : lane left = lane stack := rfl
    have left_ready := ready_of_lane same (filed_erase ready.filed c) ready
    refine ⟨left, rfl, left_ready, .refl _, .ended ?_ stays⟩
    exact (Dict.get?_erase stack.runner.held c c).trans (if_pos rfl)

end Calls

section Complete

variable [Platform] {token : Option String} {c r : String} {f : Footing}

/-- What `complete` does once its completion was answered. -/
def acknowledge (c : String) (reply : Reply ApplyResponse)
    (replayed : Option (Reply ApplyResponse)) :
    DriveM Completed := do
  if ← pull .dropAck c then return .drove true reply replayed
  else do
    match reply with
    | .served _ response => advance c response
    | .refused .. => pure ()
    return .drove false reply replayed

/-- What `complete` does with a completion that the levers have made what it is. -/
def deliver (c : String) (submission : Submission) : DriveM Completed := do
  let submit := call (Api.submitCompletion · c submission.epoch submission.fromNodeId
    submission.choice)
  let reply ← submit
  if ← pull .replay c then do
    let replayed ← some <$> submit
    acknowledge c reply replayed
  else acknowledge c reply none

/-- What `complete` does of a chunk that is held. -/
def drive (c choice : String) (held : Held) : DriveM Completed := do
  if ← pull .unreachable c then return .idle "runner unreachable mid-lease"
  else do
    let stale ← pull .staleEpoch c
    let conflicting ← pull .conflictingFact c
    let omitted ← pull .omitRouteToken c
    let staleToken ← pull .staleRouteToken c
    let submission : Submission := {
      choice
      epoch := if stale then max (held.epoch - 1) 0 else held.epoch
      fromNodeId := if conflicting then conflictingNode else held.fromNodeId
      routeToken :=
        if staleToken then some staleRouteToken else if omitted then none else held.routeToken }
    setRunner fun runner => { runner with
      held := runner.held.set c { held with lastSubmission := some submission } }
    deliver c submission

def driveHeld (c choice : String) : Option Held → DriveM Completed
  | none => return .idle ("chunk " ++ c ++ " not claimed by this driver")
  | some held => drive c choice held

theorem complete_eq (c choice : String) : complete c choice = (do
    applyDelay (some c)
    driveHeld c choice (← readRunner (·.held.get? c))) := rfl

omit [Platform] in
theorem run_setRunner {β : Type} {g : MockRunnerService → MockRunnerService} {k : Unit → DriveM β}
    {stack : Stack} :
    (setRunner g >>= k).run stack = (k ()).run { stack with runner := g stack.runner } := rfl

omit [Platform] in
theorem run_readRunner {α β : Type} {g : MockRunnerService → α} {k : α → DriveM β} {stack : Stack} :
    (readRunner g >>= k).run stack = (k (g stack.runner)).run stack := rfl

inductive Delivers (c : String) (held : Held) (f : Footing) (n : String) (e : Int) (plain : Prop) :
    Except PyError Completed → Stack → Prop
  | dropped {stood : Footing} {submitted : Except HubError ApplyResponse}
    {replayed : Option (Reply ApplyResponse)} {later : Stack} (distorted : ¬ plain)
    (submits : f.Submits n e stood submitted) (holds : later.runner.held.get? c = some held)
    (stands : later.hub.footing c = some stood) :
    Delivers c held f n e plain (.ok (.drove true (replied submitted) replayed)) later
  | refused {error : HubError} {replayed : Option (Reply ApplyResponse)} {later : Stack}
    (once : plain → f.Completes n e f (.error error)) (holds : later.runner.held.get? c = some held)
    (stays : later.hub.footing c = some f) :
    Delivers c held f n e plain (.ok (.drove false (replied (.error error)) replayed)) later
  | served {stood : Footing} {response : ApplyResponse} {replayed : Option (Reply ApplyResponse)}
    {later : Stack} (submits : f.Submits n e stood (.ok response))
    (once : plain → f.Completes n e stood (.ok response)) (settled : Settled c stood later) :
    Delivers c held f n e plain (.ok (.drove false (replied (.ok response)) replayed)) later

def Results {α : Type} (token : Option String) (origin : Stack)
    (D : Except PyError α → Stack → Prop)
    (answered : Except PyError α) (later : Stack) : Prop :=
  later.Ready token ∧ origin.hub.roster.Steady later.hub.roster ∧ D answered later

theorem acknowledge_delivers {stack : Stack} {held : Held} {stood : Footing} {n : String} {e : Int}
    {plain : Prop} {submitted : Except HubError ApplyResponse} (quiet : plain → stack.Undistorted c)
    (ready : stack.Ready token) (holds : stack.runner.held.get? c = some held)
    (stands : stack.hub.footing c = some stood) (bearer : stack.hub.roster.Names token r)
    (works : stack.hub.roster.Works r stood.projectId) (submits : f.Submits n e stood submitted)
    (once : plain → f.Completes n e stood submitted) (replayed : Option (Reply ApplyResponse)) :
    Results token stack (Delivers c held f n e plain)
      (answer (acknowledge c (replied submitted) replayed) stack)
      (Method.after (acknowledge c (replied submitted) replayed) stack) := by
  refine outcome_pull (P := Results token stack (Delivers c held f n e plain))
    (refl_of (Pulls c) stack) ?_
  intro found later none pulled
  have later_ready := pulled.ready ready
  rw [← pulled.hub] at stands bearer works
  rw [← pulled.held] at holds
  cases found with
  | true =>
    refine ⟨later_ready, pulled.steady, .dropped (fun is_plain => ?_) submits holds stands⟩
    cases none (quiet is_plain)
  | false =>
    cases submitted with
    | error error =>
      have same := submits.raised
      subst same
      exact ⟨later_ready, pulled.steady, .refused once holds stands⟩
    | ok response =>
      obtain ⟨last, run, last_ready, steady, settled⟩ :=
        run_advance later_ready holds stands bearer works submits.hands
      simp only [replied, Bool.false_eq_true, if_false]
      have run := run_bind_of_run (g := fun _ =>
        (pure (Completed.drove false (.served 200 response) replayed) :
        DriveM Completed)) run
      rw [answer_of_run run, after_of_run run]
      exact ⟨last_ready, pulled.steady.trans steady, .served submits once settled⟩

omit [Platform] in
theorem run_map_of_run {α β : Type} (g : α → β) {m : DriveM α} {s t : Stack} {a : α}
    (run : m.run s = .ok a t) :
    (g <$> m).run s = .ok (g a) t := by
  change EStateM.run (m >>= fun a => pure (g a)) s = _
  rw [run_bind_of_run run]
  rfl

theorem deliver_delivers {stack : Stack} {held : Held} {plain : Prop}
    (quiet : plain → stack.Undistorted c) (ready : stack.Ready token)
    (holds : stack.runner.held.get? c = some held) (stays : stack.hub.footing c = some f)
    (bearer : stack.hub.roster.Names token r) (works : stack.hub.roster.Works r f.projectId)
    (submission : Submission) :
    Results token stack (Delivers c held f submission.fromNodeId submission.epoch plain)
      (answer (deliver c submission) stack) (Method.after (deliver c submission) stack) := by
  obtain ⟨hub, submitted, mid, run, ready, steady, stands, completes⟩ :=
    run_submit ready stays bearer works submission.epoch submission.fromNodeId submission.choice
  have bearer := steady.names.mpr bearer
  have works := steady.works works
  have run := run_bind_of_run (g := fun reply => do
    if ← pull .replay c then do
      let replayed ← some <$> call (Api.submitCompletion · c submission.epoch submission.fromNodeId
        submission.choice)
      acknowledge c reply replayed
    else acknowledge c reply none) run
  rw [deliver, answer_of_run run, after_of_run run]
  let submittedStack : Stack := { stack with hub }
  refine outcome_pull (P := Results token stack _) (refl_of (Pulls c) submittedStack) ?_
  intro found later none pulled
  have later_ready := pulled.ready ready
  have later_holds : later.runner.held.get? c = some held := by
    rw [pulled.held]
    exact holds
  have projectId := completes.same.projectId
  rw [← projectId] at works
  have hub_same : later.hub = hub := pulled.hub
  rw [← hub_same] at stands bearer works
  have steady : stack.hub.roster.Steady later.hub.roster := by
    rw [hub_same]
    exact steady
  cases found with
  | false =>
    simp only [Bool.false_eq_true, if_false]
    have quiet : plain → later.Undistorted c := by
      intro plain
      rw [pulled.2 (quiet plain)]
      exact quiet plain
    have result := acknowledge_delivers quiet later_ready later_holds stands bearer works
      ⟨mid, completes, .inl rfl⟩ (fun _ => completes) Option.none
    exact ⟨result.1, steady.trans result.2.1, result.2.2⟩
  | true =>
    simp only [if_true]
    obtain ⟨hub, again, last, run, ready, further, stands, repeats⟩ :=
      run_submit later_ready stands bearer works submission.epoch submission.fromNodeId
        submission.choice
    have run := run_bind_of_run (g := fun replayed => acknowledge c (replied submitted) replayed)
      (run_map_of_run some run)
    rw [answer_of_run run, after_of_run run]
    have works := further.works works
    have projectId := repeats.same.projectId
    rw [← projectId] at works
    let sentTwice : Stack := { later with hub }
    have distorted : ¬ plain := fun plain => Bool.noConfusion (none (quiet plain))
    have result : Results token sentTwice _ _ _ := acknowledge_delivers
      (fun plain => absurd plain distorted) ready later_holds stands
        (further.names.mpr bearer) works
      ⟨mid, completes, .inr ⟨again, repeats⟩⟩ (fun plain => absurd plain distorted)
        (some (replied again))
    exact ⟨result.1, (steady.trans further).trans result.2.1, result.2.2⟩

structure Sends (origin : Stack) (c : String) (held : Held) (submission : Submission) : Prop where
  node : submission.fromNodeId = held.fromNodeId ∨ submission.fromNodeId = conflictingNode
  epoch : submission.epoch = held.epoch ∨ submission.epoch = max (held.epoch - 1) 0
  plain : origin.Undistorted c →
    submission.fromNodeId = held.fromNodeId ∧ submission.epoch = held.epoch

/-- What `complete` comes to of a chunk that is held and stands somewhere. -/
inductive Drives (origin : Stack) (c : String) (held : Held) (f : Footing)
    (answered : Except PyError Completed)
    (later : Stack) : Prop
  | idle (distorted : ¬ origin.Undistorted c)
    (unsent : ∀ dropped reply replayed, answered ≠ .ok (.drove dropped reply replayed))
    (holds : later.runner.held.get? c = some held) (stays : later.hub.footing c = some f)
  | delivered (submission : Submission) (sends : Sends origin c held submission)
    (delivers : Delivers c { held with lastSubmission := some submission } f submission.fromNodeId
      submission.epoch (origin.Undistorted c) answered later)

theorem drive_drives {origin stack : Stack} {held : Held} (pulled : Pulls c origin stack)
    (ready : origin.Ready token) (holds : origin.runner.held.get? c = some held)
    (stays : origin.hub.footing c = some f) (bearer : origin.hub.roster.Names token r)
    (works : origin.hub.roster.Works r f.projectId) (choice : String) :
    Results token origin (Drives origin c held f) (answer (drive c choice held) stack)
      (Method.after (drive c choice held) stack) := by
  simp only [drive]
  refine outcome_pull (P := Results token origin (Drives origin c held f)) pulled ?_
  intro unreachable stack reached pulled
  cases unreachable with
  | true =>
    have distorted : ¬ origin.Undistorted c := fun plain => Bool.noConfusion (reached plain)
    refine ⟨pulled.ready ready, pulled.steady, .idle distorted ?_ ?_ ?_⟩
    · intro dropped reply replayed same
      cases same
    · exact (congrArg (fun held : Dict String Held => held.get? c) pulled.held).trans holds
    · exact (congrArg (MockHubService.footing c) pulled.hub).trans stays
  | false =>
    simp only [Bool.false_eq_true, if_false]
    refine outcome_pull (P := Results token origin (Drives origin c held f)) pulled ?_
    intro stale stack current pulled
    refine outcome_pull (P := Results token origin (Drives origin c held f)) pulled ?_
    intro conflicting stack coherent pulled
    refine outcome_pull (P := Results token origin (Drives origin c held f)) pulled ?_
    intro omitted stack _ pulled
    refine outcome_pull (P := Results token origin (Drives origin c held f)) pulled ?_
    intro staleToken stack _ pulled
    let submission : Submission := {
      choice
      epoch := if stale then max (held.epoch - 1) 0 else held.epoch
      fromNodeId := if conflicting then conflictingNode else held.fromNodeId
      routeToken :=
        if staleToken then some staleRouteToken else if omitted then none else held.routeToken }
    let sent : Held := { held with lastSubmission := some submission }
    have sends : Sends origin c held submission := by
      refine ⟨?_, ?_, fun plain => ?_⟩
      · cases conflicting
        · exact .inl rfl
        · exact .inr rfl
      · cases stale
        · exact .inl rfl
        · exact .inr rfl
      · refine ⟨if_neg ?_, if_neg ?_⟩
        · rw [coherent plain]
          exact Bool.false_ne_true
        · rw [current plain]
          exact Bool.false_ne_true
    let noted : Stack :=
      { stack with runner := { stack.runner with held := stack.runner.held.set c sent } }
    have same : lane noted = lane stack := rfl
    have named : sent.chunkId = c := ready.filed c held holds
    have stack_ready := pulled.ready ready
    have noted_ready := ready_of_lane same (filed_set stack_ready.filed named) stack_ready
    have quiet : origin.Undistorted c → noted.Undistorted c := by
      intro plain
      have same := pulled.2 plain
      subst same
      exact plain
    have hub : noted.hub = origin.hub := pulled.hub
    rw [← hub] at stays bearer works
    have result : Results token noted _ _ _ :=
      deliver_delivers quiet noted_ready (Dict.get?_set_self _ _ _) stays bearer works submission
    have steady : origin.hub.roster.Steady noted.hub.roster := pulled.steady
    exact ⟨result.1, steady.trans result.2.1, .delivered submission sends result.2.2⟩

theorem complete_drives {origin : Stack} {held : Held} (ready : origin.Ready token)
    (holds : origin.runner.held.get? c = some held) (stays : origin.hub.footing c = some f)
    (bearer : origin.hub.roster.Names token r) (works : origin.hub.roster.Works r f.projectId)
    (choice : String) :
    Results token origin (Drives origin c held f) (answer (complete c choice) origin)
      (Method.after (complete c choice) origin) := by
  rw [complete_eq]
  refine outcome_applyDelay (P := Results token origin (Drives origin c held f)) ?_ ?_
  · intro error later distorted pulled
    refine ⟨pulled.ready ready, pulled.steady, .idle distorted ?_ ?_ ?_⟩
    · intro dropped reply replayed same
      cases same
    · exact (congrArg (fun held : Dict String Held => held.get? c) pulled.held).trans holds
    · exact (congrArg (MockHubService.footing c) pulled.hub).trans stays
  · intro stack pulled
    rw [answer_of_run run_readRunner, after_of_run run_readRunner, pulled.held, holds]
    exact drive_drives pulled ready holds stays bearer works choice

theorem complete_unheld {origin : Stack} (ready : origin.Ready token)
    (free : origin.runner.held.get? c = none) (choice : String) :
    Results token origin (fun answered later => later.runner.held.get? c = none ∧
        later.hub.footing c = origin.hub.footing c ∧
        ∀ dropped reply replayed, answered ≠ .ok (.drove dropped reply replayed))
      (answer (complete c choice) origin) (Method.after (complete c choice) origin) := by
  rw [complete_eq]
  refine outcome_applyDelay (P := Results token origin _) ?_ ?_
  · intro error later distorted pulled
    refine ⟨pulled.ready ready, pulled.steady, ?_, ?_, ?_⟩
    · rw [pulled.held]
      exact free
    · rw [pulled.hub]
    · intro dropped reply replayed same
      cases same
  · intro later pulled
    rw [answer_of_run run_readRunner, after_of_run run_readRunner, pulled.held, free]
    refine ⟨pulled.ready ready, pulled.steady, ?_, ?_, ?_⟩
    · change later.runner.held.get? c = none
      rw [pulled.held]
      exact free
    · exact congrArg (MockHubService.footing c) pulled.hub
    · intro dropped reply replayed same
      cases same

end Complete

section Claim

variable [Platform] {token : Option String} {c : String}

/-- What `claim` comes to. -/
inductive Claims (origin : Stack) (token : Option String) (c : String) :
    Except PyError (Reply RouteClaimResponse) → Stack → Prop
  | unserved {answered : Except PyError (Reply RouteClaimResponse)} {later : Stack}
    (refused : ∀ status response, answered ≠ .ok (.served status response))
    (holds : later.runner.held.get? c = origin.runner.held.get? c)
    (stays : later.hub.footing c = origin.hub.footing c) : Claims origin token c answered later
  | entered {status : Nat} {response : RouteClaimResponse} {f : Footing} {r : String}
      {later : Stack}
    (stood : origin.hub.footing c = some f) (bearer : origin.hub.roster.Names token r)
    (works : origin.hub.roster.Works r f.projectId) (about : response.chunkId = c)
    (envelope : response.envelope.epoch = f.epoch)
    (holds : later.runner.held.get? c = some (Held.ofClaim c response))
    (fenced : later.hub.footing c = some { f with
      node := some response.envelope.node.nodeId
      epoch := f.epoch + 1 }) : Claims origin token c (.ok (.served status response)) later

theorem run_claimCall {stack : Stack} (ready : stack.Ready token) (w : String) (es : List String) :
    ∃ reply hub, (call (Api.claimRoute · c w es)).run stack = .ok reply { stack with hub } ∧
      Stack.Ready token { stack with hub } ∧ stack.hub.roster.Steady hub.roster ∧
      Api.Grants stack.hub token c hub reply := by
  obtain ⟨reply, hub, route, grants⟩ :=
    Api.run_claimRoute ready.unarmed (reachable_placed ready.reachable) token c w es
  have run : (call (Api.claimRoute · c w es)).run stack = .ok _ { stack with hub := _ } :=
    run_call_of_ready ready route
  have ahead : (Method.after (call (Api.claimRoute · c w es)) stack).Ahead
    (stack.hub.roster.Names token) token :=
    (inferInstance : Follows (Stays _ token) _).follows stack ready.toAhead
  rw [after_of_run_ok run] at ahead
  have later := ready_of_comes ready ahead ready.direct rfl (after_of_run_ok route).symm
    (Api.comes_claimRoute token c w es) (by
      rintro _ ⟨r, rfl⟩
      trivial)
  exact ⟨reply, hub, run, later.1, later.2, grants⟩

theorem claim_claims {origin : Stack} (ready : origin.Ready token) (es : List String) :
    Results token origin (Claims origin token c) (answer (claim c es) origin)
      (Method.after (claim c es) origin) := by
  simp only [claim]
  refine outcome_applyDelay (P := Results token origin (Claims origin token c)) ?_ ?_
  · intro error later _ pulled
    refine ⟨pulled.ready ready, pulled.steady, .unserved ?_ ?_ ?_⟩
    · intro status response same
      cases same
    · rw [pulled.held]
    · rw [pulled.hub]
  · intro stack pulled
    have stack_ready := pulled.ready ready
    rw [answer_of_run run_readRunner, after_of_run run_readRunner]
    obtain ⟨reply, hub, run, called_ready, steady, grants⟩ :=
      run_claimCall (c := c) stack_ready stack.runner.workspaceId es
    rw [answer_of_run (run_bind_of_run run), after_of_run (run_bind_of_run run)]
    have same : stack.hub = origin.hub := pulled.hub
    rw [same] at grants steady
    cases reply with
    | refused status error =>
      refine ⟨called_ready, steady, .unserved ?_ ?_ ?_⟩
      · intro status response same
        cases same
      · exact congrArg (fun held : Dict String Held => held.get? c) pulled.held
      · exact congrArg (MockHubService.footing c) grants
    | served status response =>
      obtain ⟨r, bearer, f, stood, works, about, envelope, entered⟩ := grants
      let held := Held.ofClaim c response
      have named : held.chunkId = c := rfl
      let noted : Stack := { stack with
        hub
        runner := { stack.runner with held := stack.runner.held.set c held } }
      have relaned : lane noted = lane { stack with hub } := rfl
      have noted_ready := ready_of_lane relaned (filed_set called_ready.filed rfl) called_ready
      obtain ⟨later, run, later_ready, kept, further, fenced⟩ :=
        run_reportLease (f := { f with node := some response.envelope.node.nodeId })
          noted_ready named entered
          (steady.names.mpr bearer) (steady.works works)
      have run : (setRunner (fun runner =>
        { runner with held := runner.held.set c held }) >>= fun _ =>
          reportLease held >>= fun _ => pure (Reply.served status response)).run
            { stack with hub } =
          .ok (.served status response) later := by
        rw [run_setRunner]
        change EStateM.run (reportLease held >>= fun _ =>
          pure (Reply.served status response)) noted = _
        rw [run_bind_of_run run]
        rfl
      dsimp only
      rw [answer_of_run_ok run, after_of_run_ok run]
      refine ⟨later_ready, steady.trans further, .entered stood bearer works about envelope ?_ ?_⟩
      · rw [kept]
        exact Dict.get?_set_self _ _ _
      · rw [fenced]
        have above : max f.epoch held.epoch = f.epoch + 1 := by
          change max f.epoch (response.envelope.epoch + 1) = _
          rw [envelope]
          exact max_eq_right (Int.le_add_one (le_refl _))
        exact congrArg (fun epoch =>
          some { f with node := some response.envelope.node.nodeId, epoch }) above

end Claim

end MockRunnerService

section

variable [Platform]

def completionTells : Except PyError MockRunnerService.Completed → Option Bool
  | .ok (.drove true _ _) => some true
  | .ok (.drove false (.served ..) _) => some false
  | _ => none

def claimTells (c : String) : Option (Reply RouteClaimResponse) → Option Bool
  | some (.served _ response) => if response.chunkId = c then some false else none
  | _ => none

def Verb.tells (c : String) : (verb : Verb) → Except PyError verb.Answer → Option Bool
  | .complete c' _, answered => if c' = c then completionTells answered else none
  | .claim _ _, answered => claimTells c answered.toOption
  | .claimNext .., answered => claimTells c (answered.toOption.bind id)
  | _, _ => none

/-- A stack, beside where a chunk stood before the completions of it whose acks are missing. -/
structure Watch where
  stack : Stack
  owed : Option Footing := none

namespace Watch

def owing (watch : Watch) (c : String) : Option Bool → Option Footing
  | some true => watch.owed.or (watch.stack.hub.footing c)
  | some false => none
  | none => watch.owed

def next (c : String) (step : Step) (watch : Watch) : Watch where
  stack := watch.stack.next step
  owed := match step with
    | .verb verb => watch.owing c (verb.tells c (answer verb.run watch.stack))
    | _ => watch.owed

def after (c : String) (steps : List Step) (watch : Watch) : Watch :=
  Machine.after (next c) steps watch

end Watch

/-- Any verb but the reset, the driver's levers, and what an operator does to a chunk, a question or
a runner. -/
def Step.Calm : Step → Prop
  | .verb drive => drive ≠ .reset
  | .lever _ => True
  | .other op => match op with
    | .pauseChunk _ | .resumeChunk _ | .answerQuestion .. | .stopChunk _ | .registry
        (.setPaused ..) => True
    | _ => False

/-- The driver's copy of where a chunk stands is the hub's. -/
def Stack.Agrees (c : String) (stack : Stack) (held : Held) : Prop :=
  ∃ chunk, stack.hub.chunks.get? c = some chunk ∧ chunk.currentNodeId = some held.fromNodeId ∧
    chunk.latestEpoch = held.epoch

/-- The copy a driver keeps of where a chunk stands: in step with the hub unless an ack is missing,
and then one completion behind it at most. -/
structure Held.Copies (held : Held) (owed : Option Footing) (f : Footing) : Prop where
  epoch : f.epoch = held.epoch
  agrees : owed = none → f.node = some held.fromNodeId ∧ f.Within f.epoch
  behind : ∀ before, owed = some before → MockRunnerService.conflictingNode ∉ before.nodes →
    before.epoch = held.epoch ∧
      before.applied.get? (ChunkState.appliedKey held.fromNodeId held.epoch) = none ∧
      (f = before ∨ before.Advances held.fromNodeId held.epoch f)

/-- What a run keeps of a driver and of a chunk of it. -/
structure Watch.Sound (token : Option String) (c : String) (watch : Watch) : Prop where
  ready : watch.stack.Ready token
  within : ∀ f, watch.stack.hub.footing c = some f → 0 ≤ f.epoch ∧ f.Within (f.epoch + 1)
  missing : watch.owed.isSome → (watch.stack.runner.held.get? c).isSome
  copied : ∀ held, watch.stack.runner.held.get? c = some held →
    ∃ f r, watch.stack.hub.footing c = some f ∧ watch.stack.hub.roster.Names token r ∧
      watch.stack.hub.roster.Works r f.projectId ∧ held.Copies watch.owed f

section Steps

variable {token : Option String} {c : String} {watch : Watch}

theorem Watch.Sound.keeps (sound : watch.Sound token c) {later : Stack} (ready : later.Ready token)
    (keeps : watch.stack.Keeps c later) : Watch.Sound token c ⟨later, watch.owed⟩ := by
  refine ⟨ready, ?_, ?_, ?_⟩
  · intro f stands
    exact sound.within f (keeps.footing.symm.trans stands)
  · intro owed
    change (later.runner.held.get? c).isSome
    rw [keeps.held]
    exact sound.missing owed
  · intro held holds
    obtain ⟨f, r, stays, bearer, works, copies⟩ := sound.copied held (keeps.held.symm.trans holds)
    exact ⟨f, r, keeps.footing.trans stays, keeps.roster.names.mpr bearer,
      keeps.roster.works works, copies⟩

open MockRunnerService

theorem next_verb (verb : Verb) (stack : Stack) :
    stack.next (.verb verb) = Method.after verb.run stack :=
  after_bind_pure stack verb.run fun _ => ()

omit [Platform] in
theorem tells_unsent {answered : Except PyError Completed}
    (unsent : ∀ dropped reply replayed, answered ≠ .ok (.drove dropped reply replayed)) :
    completionTells answered = none := by
  cases answered with
  | error => rfl
  | ok completed =>
    cases completed with
    | idle => rfl
    | drove dropped reply replayed => exact absurd rfl (unsent dropped reply replayed)

section Completions

variable {held : Held} {f stood : Footing} {r n : String} {e : Int} {submission : Submission}

omit [Platform] in
theorem MockRunnerService.Sends.reached {origin : Stack} (sends : Sends origin c held submission)
    (epoch : f.epoch = held.epoch)
    (nonneg : 0 ≤ f.epoch) : 0 ≤ submission.epoch ∧ submission.epoch < f.epoch + 1 := by
  have bounds := sends.epoch
  omega

omit [Platform] in
theorem MockRunnerService.Sends.behind {origin : Stack} (sends : Sends origin c held submission)
    {before : Footing}
    (nonneg : 0 ≤ held.epoch) (apart : conflictingNode ∉ before.nodes)
    (epoch : before.epoch = held.epoch) :
    before.Distorts held.fromNodeId held.epoch submission.fromNodeId submission.epoch := by
  refine ⟨sends.node.imp_right fun same => ?_, ?_⟩
  · rw [same]
    exact apart
  · have bounds := sends.epoch
    omega

omit [Platform] in
theorem Held.Copies.dropped {origin : Stack} {owed : Option Footing} (copies : held.Copies owed f)
    (nonneg : 0 ≤ f.epoch) (sends : Sends origin c held submission)
    {submitted : Except HubError ApplyResponse}
    (submits : f.Submits submission.fromNodeId submission.epoch stood submitted) :
    ({ held with lastSubmission := some submission } : Held).Copies (owed.or (some f)) stood := by
  have nonneg' : 0 ≤ held.epoch := copies.epoch ▸ nonneg
  refine ⟨submits.same.epoch.trans copies.epoch, ?_, ?_⟩
  · intro settled
    cases owed <;> cases settled
  · intro before owes apart
    cases owed with
    | none =>
      cases owes
      have new : f.applied.get? (ChunkState.appliedKey held.fromNodeId held.epoch) = none :=
        (copies.agrees rfl).2.new nonneg' copies.epoch.le
      exact ⟨copies.epoch, new,
        submits.owing (sends.behind nonneg' apart copies.epoch) new (.inl rfl)⟩
    | some _ =>
      obtain ⟨epoch, new, owing⟩ := copies.behind before owes apart
      exact ⟨epoch, new, submits.owing (sends.behind nonneg' apart epoch) new owing⟩

omit [Platform] in
theorem Held.Copies.noted {owed : Option Footing} (copies : held.Copies owed f) :
    ({ held with lastSubmission := some submission } : Held).Copies owed f :=
  ⟨copies.epoch, copies.agrees, copies.behind⟩

omit [Platform] in
theorem copies_of_fenced (stands : f.node = some held.fromNodeId) (next : held.epoch = f.epoch + 1)
    (within : f.Within (f.epoch + 1)) : held.Copies none { f with epoch := held.epoch } := by
  refine ⟨rfl, fun _ => ⟨stands, ?_⟩, fun before owes => ?_⟩
  · rw [← next] at within
    exact within
  · cases owes

theorem sound_of_drives (sound : watch.Sound token c)
    (holds : watch.stack.runner.held.get? c = some held)
    (stays : watch.stack.hub.footing c = some f) (bearer : watch.stack.hub.roster.Names token r)
    (works : watch.stack.hub.roster.Works r f.projectId) (copies : held.Copies watch.owed f)
    {answered : Except PyError Completed} {later : Stack}
    (results : Results token watch.stack (Drives watch.stack c held f) answered later) :
    Watch.Sound token c ⟨later, watch.owing c (completionTells answered)⟩ := by
  obtain ⟨ready, steady, drives⟩ := results
  obtain ⟨nonneg, within⟩ := sound.within f stays
  cases drives with
  | idle _ unsent same stands =>
    rw [tells_unsent unsent]
    exact sound.keeps ready ⟨same.trans holds.symm, stands.trans stays.symm, steady⟩
  | delivered submission sends delivers =>
    obtain ⟨least, below⟩ := sends.reached copies.epoch nonneg
    cases delivers with
    | @dropped stood submitted replayed _ _ submits same stands =>
      simp only [completionTells, Watch.owing]
      rw [stays]
      have standing := submits.same
      have copies := copies.dropped nonneg sends submits
      refine ⟨ready, ?_, ?_, ?_⟩
      · intro g found
        cases stands.symm.trans found
        rw [standing.epoch]
        exact ⟨nonneg, submits.within least below within⟩
      · intro _
        exact Option.isSome_of_eq_some same
      · intro h found
        cases same.symm.trans found
        refine ⟨stood, r, stands, steady.names.mpr bearer, ?_, copies⟩
        rw [standing.projectId]
        exact steady.works works
    | @refused error replayed _ _ same stands =>
      simp only [completionTells, replied, Watch.owing]
      refine ⟨ready, ?_, ?_, ?_⟩
      · intro g found
        cases stands.symm.trans found
        exact ⟨nonneg, within⟩
      · intro _
        exact Option.isSome_of_eq_some same
      · intro h found
        cases same.symm.trans found
        exact ⟨f, r, stands, steady.names.mpr bearer, steady.works works, copies.noted⟩
    | @served stood response replayed _ submits _ settled =>
      simp only [completionTells, replied, Watch.owing]
      have standing := submits.same
      have within : stood.Within (stood.epoch + 1) := by
        rw [standing.epoch]
        exact submits.within least below within
      have nonneg : 0 ≤ stood.epoch := standing.epoch ▸ nonneg
      cases settled with
      | ended gone stands =>
        refine ⟨ready, ?_, ?_, ?_⟩
        · intro g found
          cases stands.symm.trans found
          exact ⟨nonneg, within⟩
        · intro owed
          cases owed
        · intro h found
          cases gone.symm.trans found
      | moved next same stands following fenced =>
        refine ⟨ready, ?_, ?_, ?_⟩
        · intro g found
          cases fenced.symm.trans found
          refine ⟨?_, within.mono ?_⟩
          · change 0 ≤ next.epoch
            omega
          · change stood.epoch + 1 ≤ next.epoch + 1
            omega
        · intro owed
          cases owed
        · intro h found
          cases same.symm.trans found
          refine ⟨_, r, fenced, steady.names.mpr bearer, ?_,
            copies_of_fenced stands following within⟩
          change later.hub.roster.Works r stood.projectId
          rw [standing.projectId]
          exact steady.works works

end Completions

section Claims

variable {answered : Except PyError (Reply RouteClaimResponse)} {later : Stack}

omit [Platform] in
theorem tells_unserved (refused : ∀ status response, answered ≠ .ok (.served status response)) :
    claimTells c answered.toOption = none := by
  cases answered with
  | error => rfl
  | ok reply =>
    cases reply with
    | refused => rfl
    | served status response => exact absurd rfl (refused status response)

omit [Platform] in
theorem owing_claimTells (owed : Option Footing) (stack later : Stack)
    (reply : Option (Reply RouteClaimResponse)) :
    Watch.owing ⟨stack, owed⟩ c (claimTells c reply) = Watch.owing ⟨later, owed⟩ c
      (claimTells c reply) := by
  cases reply with
  | none => rfl
  | some reply =>
    cases reply with
    | refused => rfl
    | served status response =>
      simp only [claimTells]
      split <;> rfl

theorem sound_of_claims (sound : watch.Sound token c)
    (results : Results token watch.stack (Claims watch.stack token c) answered later) :
    Watch.Sound token c ⟨later, watch.owing c (claimTells c answered.toOption)⟩ := by
  obtain ⟨ready, steady, claims⟩ := results
  cases claims with
  | unserved refused holds stays =>
    rw [tells_unserved refused]
    exact sound.keeps ready ⟨holds, stays, steady⟩
  | @entered status response f r _ stood bearer works about envelope holds fenced =>
    have tells : claimTells c (some (.served status response)) = some false := if_pos about
    simp only [Except.toOption]
    rw [tells]
    obtain ⟨nonneg, within⟩ := sound.within f stood
    refine ⟨ready, ?_, ?_, ?_⟩
    · intro g found
      cases fenced.symm.trans found
      refine ⟨?_, within.mono (Int.le_add_one (le_refl _))⟩
      change 0 ≤ f.epoch + 1
      omega
    · intro owed
      cases owed
    · intro held found
      cases holds.symm.trans found
      refine ⟨_, r, fenced, steady.names.mpr bearer, steady.works works, ?_, fun _ =>
        ⟨rfl, within⟩, ?_⟩
      · exact congrArg (· + 1) envelope.symm
      · intro before owes
        cases owes

theorem sound_claim (sound : watch.Sound token c) (c' : String) (es : List String) :
    Watch.Sound token c ⟨Method.after (MockRunnerService.claim c' es) watch.stack,
      watch.owing c (claimTells c
        (answer (MockRunnerService.claim c' es) watch.stack).toOption)⟩ := by
  by_cases same : c' = c
  · subst same
    exact sound_of_claims sound (claim_claims sound.ready es)
  · have kept := (aside_claim same es).follows watch.stack sound.ready
    have claims := (claim_claims (c := c') sound.ready es).2.2
    generalize answer (MockRunnerService.claim c' es) watch.stack = answered at claims ⊢
    generalize Method.after (MockRunnerService.claim c' es) watch.stack = later at claims kept ⊢
    have tells : claimTells c answered.toOption = none := by
      cases claims with
      | unserved refused => exact tells_unserved refused
      | entered _ _ _ about => exact if_neg fun other => same (about.symm.trans other)
    rw [tells]
    exact sound.keeps kept.1 kept.2

theorem sound_claimNext (sound : watch.Sound token c) (es : List String) (strict : Bool) :
    Watch.Sound token c ⟨Method.after (MockRunnerService.claimNext es strict) watch.stack,
      watch.owing c (claimTells c
        ((answer (MockRunnerService.claimNext es strict) watch.stack).toOption.bind id))⟩ := by
  refine outcome_bind_of_follows (R := Aside token c) (P := fun answered later =>
    Watch.Sound token c ⟨later, watch.owing c (claimTells c (answered.toOption.bind id))⟩)
    (refl_of (Aside token c) watch.stack) (fun error later _ aside => ?_) fun reply later _ aside =>
      ?_
  · have kept := aside sound.ready
    exact sound.keeps kept.1 kept.2
  · have kept := aside sound.ready
    have sound := sound.keeps kept.1 kept.2
    cases reply with
    | refused status error => exact sound
    | served status entries =>
      dsimp only
      cases selectNext entries strict with
      | none => exact sound
      | some entry =>
        dsimp only
        rw [answer_map, after_map]
        have claimed := sound_claim sound entry.chunkId es
        dsimp only at claimed
        rw [owing_claimTells watch.owed later watch.stack] at claimed
        cases answered : answer (MockRunnerService.claim entry.chunkId es) later with
        | error error =>
          rw [answered] at claimed
          exact claimed
        | ok reply =>
          rw [answered] at claimed
          exact claimed

end Claims

theorem sound_complete (sound : watch.Sound token c) (choice : String) :
    Watch.Sound token c ⟨Method.after (MockRunnerService.complete c choice) watch.stack,
      watch.owing c (completionTells
        (answer (MockRunnerService.complete c choice) watch.stack))⟩ := by
  cases holds : watch.stack.runner.held.get? c with
  | none =>
    obtain ⟨ready, steady, free, stays, unsent⟩ := complete_unheld sound.ready holds choice
    rw [tells_unsent unsent]
    exact sound.keeps ready ⟨free.trans holds.symm, stays, steady⟩
  | some held =>
    obtain ⟨f, r, stays, bearer, works, copies⟩ := sound.copied held holds
    exact sound_of_drives sound holds stays bearer works copies
      (complete_drives sound.ready holds stays bearer works choice)

theorem ready_other (ready : watch.stack.Ready token) {op : Op} (serves : MockHubService.Serves op)
    (spared : Spares (watch.stack.hub.roster.Names token) op) :
    (watch.stack.next (.other op)).Ready token := by
  have steady := MockHubService.steady_next serves watch.stack.hub
  have same : (watch.stack.next (.other op)).hub.roster.Names token =
    watch.stack.hub.roster.Names token :=
    steady.names_eq
  have one := List.forall_mem_singleton.mpr spared
  have driver : (watch.stack.next (.other op)).Sound (watch.stack.hub.roster.Names token) token :=
    ⟨ready.bearer, ready.spared, ready.counted, ready.judged⟩
  refine ⟨?_, ready.direct, ?_, ?_, ready.filed⟩
  · rw [same]
    refine ⟨driver, fun r mine => Int.le_of_lt_add_one ?_⟩
    exact after_spared one mine (Int.lt_add_one_of_le ready.counted)
      (Int.lt_add_one_of_le (ready.ahead r mine))
  · exact MockHubService.disarmed_next serves _ ready.unarmed
  · exact MockHubService.reachable_after ready.reachable [op]

theorem sound_next (sound : watch.Sound token c) {step : Step} (calm : step.Calm) :
    (watch.next c step).Sound token c := by
  cases step with
  | lever step =>
    have kept : Aside token c watch.stack (watch.stack.next (.lever step)) :=
      aside_of_lane rfl (fun filed => filed) rfl
    exact sound.keeps (kept sound.ready).1 (kept sound.ready).2
  | other op =>
    have fits : MockHubService.Serves op ∧ MockHubService.Leaves c op ∧
        Spares (watch.stack.hub.roster.Names token) op := by
      cases op with
      | pauseChunk | resumeChunk | answerQuestion | stopChunk =>
        exact ⟨trivial, trivial, fun _ _ _ same => by cases same⟩
      | registry op =>
        cases op with
        | setPaused => exact ⟨trivial, trivial, fun _ _ _ same => by cases same⟩
        | _ => exact calm.elim
      | _ => exact calm.elim
    obtain ⟨serves, leaves, spared⟩ := fits
    exact sound.keeps (ready_other sound.ready serves spared)
      ⟨rfl, MockHubService.footing_next serves leaves _, MockHubService.steady_next serves _⟩
  | verb verb =>
    have aside (other : ¬ verb.About c) :
        Watch.Sound token c ⟨watch.stack.next (.verb verb), watch.owed⟩ := by
      rw [next_verb]
      have kept := (aside_verb other).follows watch.stack sound.ready
      exact sound.keeps kept.1 kept.2
    rw [Watch.next, next_verb]
    rw [next_verb] at aside
    cases verb with
    | reset => exact absurd rfl calm
    | claim c' es => exact sound_claim sound c' es
    | claimNext es strict => exact sound_claimNext sound es strict
    | complete c' choice =>
      by_cases same : c' = c
      · subst same
        dsimp only [Verb.tells]
        rw [if_pos rfl]
        exact sound_complete sound choice
      · dsimp only [Verb.tells]
        rw [if_neg same]
        exact aside same
    | _ => exact aside fun about => about

end Steps

/-- The runner of a token has pushed no fact to the hub yet, and a chunk was not worked. -/
structure Unworked (token : Option String) (c : String) (hub : MockHubService) : Prop where
  pushed : ∀ r, hub.roster.Names token r → (Sender.runner r).mark hub = 0
  chunk : ∀ chunk, hub.chunks.get? c = some chunk → chunk.applied = ∅ ∧ chunk.latestEpoch = 0

def AdvancedOnce (before later : Footing) : Prop :=
  ∃ key outcome, before.applied.get? key = none ∧ later.applied = before.applied.set key outcome

/-- A completion is answered, and brings the driver's copy back in step or ends the tenure: the hub
advanced once, unless what it answers is a failure. -/
def Watch.Recovers (watch : Watch) (c : String) (before : Footing) (choice : String) : Prop :=
  ∃ response replayed, answer (MockRunnerService.complete c choice) watch.stack =
      .ok (.drove false (.served 200 response) replayed) ∧
    let later := watch.next c (.verb (.complete c choice))
    later.owed = none ∧
      (∀ held, later.stack.runner.held.get? c = some held → later.stack.Agrees c held) ∧
      ∃ f, later.stack.hub.footing c = some f ∧
        (AdvancedOnce before f ∨ response.outcome = .failure ∧ f.applied = before.applied)

section Runs

open MockRunnerService

variable {token : Option String} {c : String} {watch : Watch}

theorem sound_fresh {hub : MockHubService} (reachable : hub.Reachable) (unarmed : hub.levers = ∅)
    (unworked : Unworked token c hub) (name workspaceId : String) (clock : Stream' DateTime)
    (uuids : Stream' String) :
    Watch.Sound token c ⟨.fresh token name workspaceId hub .direct clock uuids, none⟩ := by
  refine ⟨⟨⟨⟨rfl, ?_, le_refl 0, ?_⟩, ?_⟩, rfl, unarmed, reachable, ?_⟩, ?_, ?_, ?_⟩
  · intro _ op mem
    cases mem
  · intro _ push mem
    cases mem
  · intro r named
    exact (unworked.pushed r named).le
  · intro _ held found
    cases found
  · intro f stands
    obtain ⟨chunk, held, same⟩ := Option.map_eq_some_iff.mp stands
    obtain ⟨applied, epoch⟩ := unworked.chunk chunk held
    subst same
    refine ⟨epoch.ge, fun key mem => ?_⟩
    change key ∈ chunk.applied at mem
    rw [applied] at mem
    obtain ⟨_, found⟩ := Dict.mem_iff.mp mem
    cases found
  · intro owed
    cases owed
  · intro held found
    cases found

theorem Watch.Sound.agrees (sound : watch.Sound token c) (settled : watch.owed = none) {held : Held}
    (holds : watch.stack.runner.held.get? c = some held) : watch.stack.Agrees c held := by
  obtain ⟨f, r, stays, _, _, copies⟩ := sound.copied held holds
  obtain ⟨chunk, found, same⟩ := Option.map_eq_some_iff.mp stays
  subst same
  exact ⟨chunk, found, (copies.agrees settled).1, copies.epoch⟩

theorem next_complete (choice : String) : watch.next c (.verb (.complete c choice)) =
    ⟨Method.after (complete c choice) watch.stack,
      watch.owing c (completionTells (answer (complete c choice) watch.stack))⟩ := by
  rw [Watch.next, next_verb]
  dsimp only [Verb.tells]
  rw [if_pos rfl]
  rfl

theorem Watch.Sound.recovers (sound : watch.Sound token c) {before : Footing}
    (owes : watch.owed = some before)
    (apart : conflictingNode ∉ before.nodes) (plain : watch.stack.Undistorted c) (choice : String) :
    watch.Recovers c before choice := by
  have later_sound : (watch.next c (.verb (.complete c choice))).Sound token c :=
    sound_next sound fun same => by cases same
  obtain ⟨held, holds⟩ :=
    Option.isSome_iff_exists.mp (sound.missing (Option.isSome_of_eq_some owes))
  obtain ⟨f, r, stays, bearer, works, copies⟩ := sound.copied held holds
  obtain ⟨epoch, new, owing⟩ := copies.behind before owes apart
  have drives := (complete_drives sound.ready holds stays bearer works choice).2.2
  rw [next_complete] at later_sound
  simp only [Watch.Recovers]
  rw [next_complete]
  generalize answer (complete c choice) watch.stack = answered at drives later_sound ⊢
  generalize Method.after (complete c choice) watch.stack = later at drives later_sound ⊢
  cases drives with
  | idle distorted => exact absurd plain distorted
  | delivered submission sends delivers =>
    obtain ⟨node, sent⟩ := sends.plain plain
    cases delivers with
    | dropped distorted => exact absurd plain distorted
    | refused once =>
      have completes := once plain
      rw [node, sent] at completes
      obtain ⟨_, raised, _⟩ := completes.recovers new owing
      cases raised
    | @served stood response replayed _ _ once settled =>
      have completes := once plain
      rw [node, sent] at completes
      obtain ⟨_, same, recovered⟩ := completes.recovers new owing
      cases same
      have recorded : AdvancedOnce before stood ∨ response.outcome = .failure ∧
        stood.applied = before.applied := by
        cases recovered with
        | inl advances =>
          obtain ⟨_, _, outcome, same, _⟩ := advances
          rw [same]
          exact .inl ⟨_, outcome, new, rfl⟩
        | inr failed =>
          rw [failed.2]
          exact .inr ⟨failed.1, rfl⟩
      refine ⟨response, replayed, rfl, rfl, fun h found => later_sound.agrees rfl found, ?_⟩
      cases settled with
      | ended _ stands => exact ⟨stood, stands, recorded⟩
      | moved h _ _ _ fenced => exact ⟨_, fenced, recorded⟩

/-- In every run of a driver, its levers and its hub's operators, the copy the driver keeps of where
a chunk stands is the hub's while no ack is missing. Where one is, one completion that nothing
distorts mends it, and the hub advanced once for all that were sent. -/
theorem tenures_agree (token : Option String) (name workspaceId : String)
    {hub : MockHubService} (c : String)
    (reachable : hub.Reachable) (unarmed : hub.levers = ∅) (unworked : Unworked token c hub)
    (clock : Stream' DateTime) (uuids : Stream' String) {steps : List Step}
    (calm : ∀ step ∈ steps, step.Calm) :
    let final := Watch.after c steps ⟨.fresh token name workspaceId hub .direct clock uuids, none⟩
    (final.owed = none → ∀ held, final.stack.runner.held.get? c = some held →
      final.stack.Agrees c held) ∧
      ∀ before, final.owed = some before → conflictingNode ∉ before.nodes →
        final.stack.Undistorted c →
        ∀ choice, final.Recovers c before choice := by
  intro final
  have fresh : Watch.Sound token c ⟨.fresh token name workspaceId hub .direct clock uuids, none⟩ :=
    sound_fresh reachable unarmed unworked name workspaceId clock uuids
  have meets : Machine.Meets (Watch.next c) (fun step _ => step.Calm) steps
      ⟨.fresh token name workspaceId hub .direct clock uuids, none⟩ :=
    Machine.meets_of_mem (fun step mem _ => calm step mem) _
  have kept : ∀ (step : Step) (watch : Watch), watch.Sound token c → step.Calm →
      (watch.next c step).Sound token c := fun _ _ sound calm => sound_next sound calm
  have sound : final.Sound token c := Machine.invariant kept meets fresh
  exact ⟨fun settled held holds => sound.agrees settled holds,
    fun before owes apart plain choice => sound.recovers owes apart plain choice⟩

end Runs

end

section

attribute [local instance] Platform.plain

open MockRunnerService

def hubOf (spec : ChunkSpec) : MockHubService :=
  MockHubService.after [.registry (.addRunner "ann" firstTenantId (some "r") (some "t") none none),
    .seedChunk spec] (MockHubService.fresh .still)

def annOf (spec : ChunkSpec) : Watch where
  stack := .fresh (some "t") "ann" "w" (hubOf spec) .direct (fun _ => default) (fun _ => "")

def throughConflicting : ChunkSpec where
  chunkId := some "c"
  entry := "build"
  nodes := .ofList [("build", { choices := [{ name := "go", «to» := conflictingNode }] }),
    (conflictingNode, { choices := [{ name := "on", «to» := "review" }] }),
    ("review", {})]

def droppedAfter (times : Int) (steps : List Step) : List Step :=
  [.verb (.register none none []), .verb (.claim "c" []),
    .lever (.arm .dropAck (some "c") (some times) [])] ++ steps

def stayedOnce : List Step := droppedAfter 1 [.verb (.complete "c" "stay")]

def strayed : List Step :=
  droppedAfter 2 [.verb (.complete "c" "go"), .lever (.arm .conflictingFact (some "c") (some 1) []),
    .verb (.complete "c" "on")]

def advances (watch : Watch) : Option Nat :=
  (watch.stack.hub.chunks.get? "c").map (·.applied.entries.length)

theorem dropped_ack_advances_none_or_twice :
    let stayed := Watch.after "c" stayedOnce (annOf buildThenReview)
    let astray := Watch.after "c" strayed (annOf throughConflicting)
    (stayed.owed.isSome ∧ stayed.stack.Undistorted "c" ∧
        advances (stayed.next "c" (.verb (.complete "c" "stay"))) = some 0) ∧
      (astray.owed.isSome ∧ astray.stack.Undistorted "c" ∧
        advances (annOf throughConflicting) = some 0 ∧
        advances (astray.next "c" (.verb (.complete "c" "go"))) = some 2) := by
  refine ⟨⟨?_, ?_, ?_⟩, ?_, ?_, ?_, ?_⟩
  · decide +kernel
  · intro kind
    cases kind <;> decide +kernel
  · decide +kernel
  · decide +kernel
  · intro kind
    cases kind <;> decide +kernel
  · decide +kernel
  · decide +kernel

theorem unworked_hubOf_buildThenReview : Unworked (some "t") "c" (hubOf buildThenReview) := by
  refine ⟨fun _ _ => rfl, fun chunk held => ?_⟩
  have rows : (hubOf buildThenReview).chunks =
    (∅ : Table ChunkState.chunkId).put (buildThenReview.seeded "c" firstProjectId) := rfl
  rw [rows, Table.get?_put] at held
  split at held
  · cases held
    exact ⟨rfl, rfl⟩
  · cases held

def wentOnce : List Step :=
  droppedAfter 1 [.verb (.complete "c" "go"), .other (.pauseChunk "c"), .other (.resumeChunk "c")]

theorem tenures_agree_went_once :
    ∃ before, (Watch.after "c" wentOnce (annOf buildThenReview)).owed = some before ∧
      (Watch.after "c" wentOnce (annOf buildThenReview)).Recovers "c" before "go" := by
  have calm : ∀ step ∈ wentOnce, step.Calm := by
    intro step mem
    simp only [wentOnce, droppedAfter, List.cons_append, List.nil_append, List.mem_cons,
      List.not_mem_nil,
      or_false] at mem
    obtain rfl | rfl | rfl | rfl | rfl | rfl := mem <;> simp [Step.Calm]
  have reachable : (hubOf buildThenReview).Reachable := MockHubService.reachable_run _ _
  have agree := tenures_agree (some "t") "ann" "w" "c" reachable rfl unworked_hubOf_buildThenReview
    (fun _ => default) (fun _ => "") calm
  have missing : (Watch.after "c" wentOnce (annOf buildThenReview)).owed.isSome := by decide +kernel
  have apart : ((Watch.after "c" wentOnce (annOf buildThenReview)).owed.map fun before =>
      decide (conflictingNode ∈ before.nodes)) = some false := by decide +kernel
  have plain : (Watch.after "c" wentOnce (annOf buildThenReview)).stack.Undistorted "c" := by
    intro kind
    cases kind <;> decide +kernel
  obtain ⟨before, owes⟩ := Option.isSome_iff_exists.mp missing
  rw [owes] at apart
  refine ⟨before, owes, agree.2 before owes ?_ plain "go"⟩
  exact of_decide_eq_false (Option.some.inj apart)

end

end BlizzardMock.MockRunner
