import BlizzardMock.MockHub.DriveLaws
import BlizzardMock.MockRunner.SequenceLaws

namespace BlizzardMock.MockRunner

open Method MockHub

section

variable [Platform]

namespace Stack

def Filed (held : Dict String Held) : Prop := ∀ c h, held.get? c = some h → h.chunkId = c

structure Ready (token : Option String) (stack : Stack) : Prop extends
    stack.Ahead (stack.hub.roster.Names token) token where
  direct : stack.passages = Passage.direct
  unarmed : stack.hub.levers = ∅
  reachable : stack.hub.Reachable
  filed : Filed stack.runner.held

structure Keeps (c : String) (stack later : Stack) : Prop where
  held : later.runner.held.get? c = stack.runner.held.get? c
  footing : later.hub.footing c = stack.hub.footing c
  roster : stack.hub.roster.Steady later.hub.roster

end Stack

instance (c : String) : IsPreorder Stack (Stack.Keeps c) where
  refl _ := ⟨rfl, rfl, .refl _⟩
  trans _ _ _ first second := ⟨second.held.trans first.held, second.footing.trans first.footing,
    first.roster.trans second.roster⟩

abbrev Aside (token : Option String) (c : String) : Stack → Stack → Prop :=
  Along (Stack.Ready token) (Stack.Keeps c)

section Aside

variable {token : Option String} {c : String} {α : Type}

def course (stack : Stack) : (Option String × Int × MockHubService × Stream' Passage × List Push) ×
    Dict String Held :=
  (lane stack, stack.runner.held)

theorem ready_of_lane {stack later : Stack} (same : lane later = lane stack)
    (filed : Stack.Filed later.runner.held) (ready : stack.Ready token) : later.Ready token := by
  have hub : later.hub = stack.hub := congrArg (·.2.2.1) same
  have passages : later.passages = stack.passages := congrArg (·.2.2.2.1) same
  refine ⟨?_, passages.trans ready.direct, ?_, ?_, filed⟩
  · rw [hub]
    exact ahead_of_lane same ready.toAhead
  · rw [hub]
    exact ready.unarmed
  · rw [hub]
    exact ready.reachable

theorem aside_of_lane {stack later : Stack} (same : lane later = lane stack)
    (filed : Stack.Filed stack.runner.held → Stack.Filed later.runner.held)
    (held : later.runner.held.get? c = stack.runner.held.get? c) : Aside token c stack later := by
  intro ready
  have hub : later.hub = stack.hub := congrArg (·.2.2.1) same
  refine ⟨ready_of_lane same (filed ready.filed) ready, held, ?_, ?_⟩
  · rw [hub]
  · rw [hub]
    exact .refl _

theorem aside_of_course {stack later : Stack} (same : course later = course stack) :
    Aside token c stack later := by
  obtain ⟨lanes, held⟩ := Prod.mk.inj same
  have held : later.runner.held = stack.runner.held := held
  refine aside_of_lane lanes (fun filed => ?_)
    (congrArg (fun held : Dict String Held => held.get? c) held)
  rw [held]
  exact filed

instance (priority := low) (m : DriveM α) [Keeps course m] : Follows (Aside token c) m :=
  Follows.of_keeps fun _ _ => aside_of_course

section Driver

open MockRunnerService

instance (kind : RunnerLever) (c : Option String) : Keeps course (find kind c) := ⟨fun _ => rfl⟩

instance (lever : Lever) : Keeps course (consume lever) := ⟨fun _ => rfl⟩

instance : Keeps course now := ⟨fun _ => rfl⟩

instance : Keeps course uuid4Hex := ⟨fun _ => rfl⟩

instance (f : MockRunnerService → α) : Keeps course (readRunner f) := ⟨fun _ => rfl⟩

instance (f : MockRunnerService → Option String) :
    Keeps course (setRunner fun runner => { runner with runnerId := f runner }) := ⟨fun _ => rfl⟩

instance (f : MockRunnerService → Int) :
    Keeps course (setRunner fun runner => { runner with transcriptSeq := f runner }) :=
  ⟨fun _ => rfl⟩

instance (f : MockRunnerService → Dict String (Dict String GitCommit)) :
    Keeps course (setRunner fun runner => { runner with gitCommitDeclarations := f runner }) :=
  ⟨fun _ => rfl⟩

instance (c : Option String) : Keeps course (applyDelay c) := by
  simp only [applyDelay]
  infer_instance

instance (kind : RunnerLever) (c : String) : Keeps course (pull kind c) := by
  simp only [pull]
  infer_instance

omit [Platform] in
theorem filed_set {rows : Dict String Held} (filed : Stack.Filed rows) {k : String} {held : Held}
    (named : held.chunkId = k) : Stack.Filed (rows.set k held) := by
  intro k' h found
  rw [Dict.get?_set] at found
  split at found
  case isTrue same =>
    cases found
    exact named.trans same.symm
  case isFalse => exact filed k' h found

omit [Platform] in
theorem filed_erase {rows : Dict String Held} (filed : Stack.Filed rows) (c' : String) :
    Stack.Filed (rows.erase c') := by
  intro k h found
  rw [Dict.get?_erase] at found
  split at found
  case isTrue => cases found
  case isFalse => exact filed k h found

theorem aside_set {k : String} {held : Held} (named : held.chunkId = k) (apart : k ≠ c) :
    Follows (Aside token c) (setRunner fun runner =>
      { runner with held := runner.held.set k held }) where
  follows _ := aside_of_lane rfl (fun filed => filed_set filed named)
    (Dict.get?_set_of_ne apart.symm _ _)

theorem aside_erase {other : String} (apart : other ≠ c) :
    Follows (Aside token c) (setRunner fun runner =>
      { runner with held := runner.held.erase other }) where
  follows stack := aside_of_lane rfl (fun filed => filed_erase filed other)
    ((Dict.get?_erase stack.runner.held other c).trans (if_neg apart.symm))

end Driver

section Calls

open MockRunnerService

variable {stack : Stack}

theorem met_of_ready (ready : stack.Ready token) : met stack = stack.hub := by
  simp only [met]
  rw [ready.direct]
  rfl

theorem left_of_ready (ready : stack.Ready token) (route : Option String → HubM (Reply α)) :
    left route stack = Method.after (route token) stack.hub := by
  simp only [left]
  rw [met_of_ready ready, ready.direct, ready.bearer]
  exact if_pos rfl

theorem returned_of_ready (ready : stack.Ready token) {route : Option String → HubM (Reply α)}
    {reply : Reply α} (answered : answer (route token) stack.hub = .ok reply) :
    returned route stack = reply := by
  simp only [returned]
  rw [met_of_ready ready, ready.direct, ready.bearer, answered]
  exact (if_pos rfl).trans (if_pos rfl)

theorem run_call_of_ready (ready : stack.Ready token) {route : Option String → HubM (Reply α)}
    {reply : Reply α} {hub : MockHubService} (run : (route token).run stack.hub = .ok reply hub) :
    (call route).run stack = .ok reply { stack with hub } := by
  rw [run_call, left_of_ready ready, returned_of_ready ready (answer_of_run_ok run),
    after_of_run_ok run]
  have tail : stack.passages.tail = stack.passages := by
    rw [ready.direct]
    rfl
  rw [tail]

theorem tail_of_ready (ready : stack.Ready token) : stack.passages.tail = Passage.direct := by
  rw [ready.direct]
  rfl

theorem ready_of_comes {later : Stack} {m : HubM α} {allowed : Op → Prop}
    (ready : stack.Ready token)
    (ahead : later.Ahead (stack.hub.roster.Names token) token)
    (direct : later.passages = Passage.direct)
    (held : later.runner.held = stack.runner.held) (hub : later.hub = Method.after m stack.hub)
    (comes : Api.Comes m allowed) (fits : ∀ op, allowed op → MockHubService.Serves op) :
    later.Ready token ∧ stack.hub.roster.Steady later.hub.roster := by
  have filed : Stack.Filed later.runner.held := by
    rw [held]
    exact ready.filed
  cases comes stack.hub ready.unarmed with
  | inl same =>
    have hub := hub.trans same
    refine ⟨⟨?_, direct, ?_, ?_, filed⟩, ?_⟩ <;> rw [hub]
    · exact ahead
    · exact ready.unarmed
    · exact ready.reachable
    · exact .refl _
  | inr moved =>
    obtain ⟨op, may, same⟩ := moved
    have hub := hub.trans same
    have steady := MockHubService.steady_next (fits op may) stack.hub
    refine ⟨⟨?_, direct, ?_, ?_, filed⟩, ?_⟩ <;> rw [hub]
    · rw [steady.names_eq]
      exact ahead
    · exact MockHubService.disarmed_next (fits op may) _ ready.unarmed
    · exact MockHubService.reachable_after ready.reachable [op]
    · exact steady

theorem footing_of_comes {m : HubM α} {allowed : Op → Prop} {hub : MockHubService}
    (unarmed : hub.levers = ∅)
    (comes : Api.Comes m allowed)
    (fits : ∀ op, allowed op → MockHubService.Serves op ∧ MockHubService.Leaves c op) :
    (Method.after m hub).footing c = hub.footing c := by
  cases comes hub unarmed with
  | inl same => rw [same]
  | inr moved =>
    obtain ⟨op, may, same⟩ := moved
    rw [same]
    exact MockHubService.footing_next (fits op may).1 (fits op may).2 hub

theorem aside_call {route : Option String → HubM (Reply α)} {allowed : Op → Prop}
    [∀ token, Keeps MockHubService.marks (route token)]
    (comes : ∀ token, Api.Comes (route token) allowed)
    (fits : ∀ op, allowed op → MockHubService.Serves op ∧ MockHubService.Leaves c op) :
    Follows (Aside token c) (call route) where
  follows stack ready := by
    have ahead : (Method.after (call route) stack).Ahead (stack.hub.roster.Names token) token :=
      (inferInstance : Follows (Stays _ token) (call route)).follows stack ready.toAhead
    rw [Method.after, run_call] at ahead ⊢
    have hub := left_of_ready ready route
    have later := ready_of_comes ready ahead (tail_of_ready ready) rfl hub (comes token)
      fun op may => (fits op may).1
    have footing := footing_of_comes ready.unarmed (comes token) fits
    rw [← hub] at footing
    exact ⟨later.1, rfl, footing, later.2⟩

theorem after_push_of_ready (ready : stack.Ready token) (kind : String) (payload : Fields) :
    (logged kind payload stack).after =
      Method.after (Api.pushFacts token [nextFact kind payload stack]) stack.hub := by
  have direct : (numbered stack).passages = Passage.direct := ready.direct
  simp only [logged, left, met]
  rw [direct]
  change Method.after (Api.pushFacts stack.runner.token _) _ = _
  rw [ready.bearer]
  rfl

theorem aside_push {kind : String} {payload : Fields}
    (spared : kind = leaseMinted → chunkIdOf payload ≠ c) :
    Follows (Aside token c) (pushFact kind payload) where
  follows stack ready := by
    have ahead : (Method.after (pushFact kind payload) stack).Ahead
      (stack.hub.roster.Names token) token :=
      (inferInstance : Follows (Stays _ token) (pushFact kind payload)).follows stack ready.toAhead
    rw [Method.after, run_pushFact] at ahead ⊢
    have comes := Api.comes_pushFacts token [nextFact kind payload stack]
    have hub := after_push_of_ready ready kind payload
    have fits : ∀ op, (∃ r, op = .ingestFacts r [nextFact kind payload stack]) →
        MockHubService.Serves op ∧ MockHubService.Leaves c op := by
      rintro _ ⟨r, rfl⟩
      refine ⟨trivial, fun fact mem minted => ?_⟩
      cases List.mem_singleton.mp mem
      exact spared minted
    have later := ready_of_comes ready ahead (tail_of_ready ready) rfl hub comes fun op may =>
      (fits op may).1
    have footing := footing_of_comes ready.unarmed comes fits
    rw [← hub] at footing
    exact ⟨later.1, rfl, footing, later.2⟩

theorem aside_push_other {kind : String} {payload : Fields} (other : kind ≠ leaseMinted) :
    Follows (Aside token c) (pushFact kind payload) :=
  aside_push fun same => absurd same other

theorem aside_reportLease {held : Held} (other : held.chunkId ≠ c) :
    Follows (Aside token c) (reportLease held) := by
  have : Follows (Aside token c) (pushFact leaseMinted
      (stamped held [("chunk_id", .str held.chunkId), ("epoch", .int held.epoch)])) :=
    aside_push fun _ => other
  simp only [reportLease]
  infer_instance

end Calls

section Verbs

open MockRunnerService

theorem aside_calls {β : Type} {route : Option String → HubM (Reply α)} {op : β → Op}
    [∀ token, Keeps MockHubService.marks (route token)]
    (comes : ∀ token, Api.Comes (route token) fun called => ∃ b, called = op b)
    (fits : ∀ b, MockHubService.Serves (op b) ∧ MockHubService.Leaves c (op b)) :
    Follows (Aside token c) (call route) := by
  refine aside_call comes ?_
  rintro _ ⟨b, rfl⟩
  exact fits b

instance (registration : Registration) :
    Follows (Aside token c) (call (Api.registerRunner · registration)) :=
  aside_calls (Api.comes_registerRunner · registration) fun _ => ⟨trivial, trivial⟩

instance : Follows (Aside token c) (call Api.peekQueue) :=
  aside_calls Api.comes_peekQueue fun _ => ⟨trivial, trivial⟩

instance (caps : List RunnerCapability) (policy : String) (enrolled : Bool) :
    Follows (Aside token c)
    (call fun token => Api.peekMatchedQueue (if enrolled then token else none) caps policy) :=
  aside_calls (fun token =>
    Api.comes_peekMatchedQueue (if enrolled then token else none) caps policy)
    fun _ => ⟨trivial, trivial⟩

instance (c' : String) (e : Int) (n : String) :
    Follows (Aside token c) (call (Api.submitDecision · c' e n)) := by
  refine aside_call (Api.comes_submitDecision · c' e n) ?_
  rintro _ rfl
  exact ⟨trivial, trivial⟩

instance (records : List TranscriptRecord) :
    Follows (Aside token c) (call (Api.pushTranscripts · records)) :=
  aside_calls (Api.comes_pushTranscripts · records) fun _ => ⟨trivial, trivial⟩

instance (c' : String) : Follows (Aside token c) (call (Api.getChunk · c')) :=
  aside_calls (Api.comes_getChunk · c') fun _ => ⟨trivial, trivial⟩

instance (cs : List String) : Follows (Aside token c) (call (Api.getChunkStatuses · cs)) :=
  aside_calls (Api.comes_getChunkStatuses · cs) fun _ => ⟨trivial, trivial⟩

instance (q : String) : Follows (Aside token c) (call (Api.getQuestion · q)) :=
  aside_calls (Api.comes_getQuestion · q) fun _ => ⟨trivial, trivial⟩

instance (c' : String) (drive : Held → DriveM α) [∀ held, Follows (Aside token c) (drive held)] :
    Follows (Aside token c) (whenHeld c' drive) := by
  apply Follows.andThen inferInstance
  intro _
  apply Follows.andThen inferInstance
  intro held
  cases held <;> (dsimp only; infer_instance)

instance (caps : Option (List RunnerCapability)) (subs : Option (List DeclaredSubscription))
    (declining : List RunnerDecliningView) :
    Follows (Aside token c) (register caps subs declining) := by
  apply Follows.andThen inferInstance
  intro _
  apply Follows.andThen inferInstance
  intro runner
  apply Follows.andThen inferInstance
  intro reply
  cases reply <;> infer_instance

theorem aside_claim {c' : String} (other : c' ≠ c) (es : List String) :
    Follows (Aside token c) (claim c' es) := by
  have called (w : String) : Follows (Aside token c) (call (Api.claimRoute · c' w es)) :=
    aside_calls (Api.comes_claimRoute · c' w es) fun _ => ⟨trivial, other⟩
  apply Follows.andThen inferInstance
  intro _
  apply Follows.andThen inferInstance
  intro w
  apply Follows.andThen (called w)
  intro reply
  cases reply with
  | refused => infer_instance
  | served _ response =>
    have : Follows (Aside token c) (setRunner fun runner =>
        { runner with held := runner.held.set c' (Held.ofClaim c' response) }) :=
          aside_set rfl other
    have : Follows (Aside token c) (reportLease (Held.ofClaim c' response)) :=
      aside_reportLease other
    infer_instance

theorem aside_advance {c' : String} (other : c' ≠ c) (response : ApplyResponse) :
    Follows (Aside token c) (advance c' response) := by
  have erased : Follows (Aside token c) _ := aside_erase other
  refine follows_of_answer (P := fun held => ∀ h, held = some h → h.chunkId = c') ?_ ?_
  · intro stack held ready read h found
    cases read
    exact ready.filed c' h found
  · intro held filed
    cases held with
    | none => exact inferInstanceAs (Follows _ (pure ()))
    | some held =>
      have filed := filed held rfl
      dsimp only [whenSome]
      split
      case h_1 response envelope outcome handed =>
        let moved : Held :=
          { held with fromNodeId := envelope.node.nodeId, epoch := envelope.epoch + 1 }
        have apart : moved.chunkId ≠ c := fun same => other (filed.symm.trans same)
        have : Follows (Aside token c) (setRunner fun runner =>
            { runner with held := runner.held.set c' moved }) := aside_set filed other
        have : Follows (Aside token c) (reportLease moved) := aside_reportLease apart
        exact Follows.andThen inferInstance fun _ => inferInstance
      case h_2 => exact erased

theorem aside_complete {c' : String} (other : c' ≠ c) (choice : String) :
    Follows (Aside token c) (complete c' choice) := by
  have submit (e : Int) (n : String) :
      Follows (Aside token c) (call (Api.submitCompletion · c' e n choice)) := by
    refine aside_call (Api.comes_submitCompletion · c' e n choice) ?_
    rintro _ rfl
    exact ⟨trivial, other⟩
  have advances (response : ApplyResponse) : Follows (Aside token c) (advance c' response) :=
    aside_advance other response
  apply Follows.andThen inferInstance
  intro _
  refine follows_of_answer (P := fun held => ∀ h, held = some h → h.chunkId = c') ?_ ?_
  · intro stack held ready read h found
    cases read
    exact ready.filed c' h found
  · intro held filed
    cases held with
    | none => infer_instance
    | some held =>
      have filed := filed held rfl
      apply Follows.andThen inferInstance
      intro unreachable
      cases unreachable with
      | true => exact inferInstanceAs (Follows _ (pure _))
      | false =>
        dsimp only [Bool.false_eq_true, if_false]
        apply Follows.andThen inferInstance
        intro stale
        apply Follows.andThen inferInstance
        intro conflicting
        apply Follows.andThen inferInstance
        intro omitted
        apply Follows.andThen inferInstance
        intro staleToken
        refine Follows.andThen (aside_set (by exact filed) other) ?_
        intro _
        apply Follows.andThen inferInstance
        intro reply
        apply Follows.andThen inferInstance
        intro replay
        cases replay with
        | true => cases reply <;> (dsimp only [if_true]; infer_instance)
        | false => cases reply <;> (dsimp only [Bool.false_eq_true, if_false]; infer_instance)

end Verbs

end Aside

def Verb.About (c : String) : Verb → Prop
  | .claim c' _ => c' = c
  | .complete c' _ => c' = c
  | .claimNext .. => True
  | .reset => True
  | _ => False

theorem aside_verb {token : Option String} {c : String} {verb : Verb} (other : ¬ verb.About c) :
    Follows (Aside token c) verb.run := by
  have spared {kind : String} (ordinary : kind ≠ leaseMinted) (payload : Fields) :
      Follows (Aside token c) (MockRunnerService.pushFact kind payload) := aside_push_other ordinary
  have escalated := spared (by decide : escalationRecorded ≠ leaseMinted)
  have asked := spared (by decide : questionAsked ≠ leaseMinted)
  have paused := spared (by decide : runnerLocallyPaused ≠ leaseMinted)
  have resumed := spared (by decide : runnerLocallyResumed ≠ leaseMinted)
  have recorded := spared (by decide : eventRecorded ≠ leaseMinted)
  have sampled := spared (by decide : externalSubscriptionUsageSampled ≠ leaseMinted)
  have missed := spared (by decide : externalSubscriptionUsageMissed ≠ leaseMinted)
  cases verb with
  | claim c' es => exact aside_claim other es
  | complete c' choice => exact aside_complete other choice
  | claimNext => exact absurd trivial other
  | reset => exact absurd trivial other
  | _ =>
    dsimp only [Verb.run, Verb.Answer, MockRunnerService.peek, MockRunnerService.peekMatched,
      MockRunnerService.getChunk, MockRunnerService.chunkStatuses,
        MockRunnerService.declareGitCommit,
      MockRunnerService.escalate, MockRunnerService.decide, MockRunnerService.ask,
      MockRunnerService.pushTranscript, MockRunnerService.pollAnswer, MockRunnerService.pause,
      MockRunnerService.resume, MockRunnerService.reportEvent,
        MockRunnerService.reportExternalUsage,
      MockRunnerService.reportExternalUsageMiss]
    infer_instance

end

end BlizzardMock.MockRunner
