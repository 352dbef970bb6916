import BlizzardMock.MockRunner.CallLaws

namespace BlizzardMock.MockRunner

open Method MockHub

section

variable [Platform]

namespace Push

variable (token : Option String) (push : Push)

/-- The hub served the push: what it answered, and the hub it left. -/
def Served (ack : RunnerFactAck) : Prop :=
  (∃ status, answer (Api.pushFacts token [push.fact]) push.before = .ok (.served status ack)) ∧
    push.after = Method.after (Api.pushFacts token [push.fact]) push.before

/-- A pushed fact is judged on its own merits: none that the hub serves was applied already, and a
lease that is minted raises the fence. -/
structure Judged : Prop where
  replied : ∀ status ack, push.reply = .served status ack → push.Served token ack
  new : ∀ ack, push.Served token ack → ack.alreadyApplied = []
  applied : ∀ ack, push.Served token ack →
    ack.applied = if push.fact.admitted push.before then [push.fact.seq] else []
  rejected : ∀ ack, push.Served token ack →
    ack.rejected = if push.fact.admitted push.before then [] else [push.fact.seq]
  fenced : ∀ ack, push.Served token ack → push.fact.kind = leaseMinted → ∀ chunk epoch,
    push.before.chunks.get? (chunkIdOf push.fact.payload) = some chunk →
    epochOf push.fact.payload = .ok epoch →
    push.after.chunks.get? (chunkIdOf push.fact.payload) = some (chunk.fenced epoch)

end Push

namespace Stack

/-- The driver pushed a fact as a runner: its token named the runner in the hub it met. -/
def PushedAs (stack : Stack) (r : String) : Prop :=
  ∃ push ∈ stack.pushes, answer (MockHubService.principal stack.runner.token) push.before = .ok r

end Stack

/-- A call of the hub that pushes no fact for a driver's runners. -/
def Spares (own : String → Prop) (op : Op) : Prop := ∀ r facts, own r → op ≠ .ingestFacts r facts

/-- Nobody else pushes facts for a driver's runners, between its verbs or in the middle of one. -/
structure Alone (own : String → Prop) (passages : Stream' Passage) (steps : List Step) : Prop where
  between : ∀ op, .other op ∈ steps → Spares own op
  amid : ∀ n, ∀ op ∈ (passages.get n).others, Spares own op

/-- The driver is not driven while it is to number its facts from one and the hub keeps a mark of
its runners. -/
def Step.Clear (own : String → Prop) : Step → Stack → Prop
  | .verb .reset, _ => True
  | .verb _, stack => stack.runner.runnerSeq = 0 → ∀ r, own r → (Sender.runner r).mark stack.hub = 0
  | _, _ => True

/-- What a run of the driver keeps of it. -/
structure Stack.Sound (own : String → Prop) (token : Option String) (stack : Stack) : Prop where
  bearer : stack.runner.token = token
  spared : ∀ n, ∀ op ∈ (stack.passages.get n).others, Spares own op
  counted : 0 ≤ stack.runner.runnerSeq
  judged : (∀ r, stack.PushedAs r → own r) → ∀ push ∈ stack.pushes, push.Judged token

structure Stack.Ahead (own : String → Prop) (token : Option String) (stack : Stack) : Prop extends
    stack.Sound own token where
  ahead : ∀ r, own r → (Sender.runner r).mark stack.hub ≤ stack.runner.runnerSeq

section Hub

variable {own : String → Prop} {token : Option String} {hub : MockHubService}
    {fact : Fact} {n : Int}

theorem after_spared {ops : List Op} (spared : ∀ op ∈ ops, Spares own op) {r : String}
    (mine : own r)
    (positive : 0 < n) (past : (Sender.runner r).mark hub < n) :
    (Sender.runner r).mark (hub.after ops) < n := by
  induction ops generalizing hub with
  | nil => exact past
  | cons op rest ih =>
    refine ih (fun other mem => spared other (List.mem_cons_of_mem _ mem)) ?_
    refine Sender.next_stays_past positive past ?_
    intro facts same
    exact absurd same (spared op List.mem_cons_self r facts mine)

theorem after_push {r : String} (positive : 0 < n) (past : (Sender.runner r).mark hub < n)
    (under : fact.seq < n) :
    (Sender.runner r).mark (Method.after (Api.pushFacts token [fact]) hub) < n := by
  refine Api.outcome_pushFacts (P := fun _ t => (Sender.runner r).mark t < n) ?_ ?_
  · intro _ t _ kept
    rw [Sender.mark_of_marks kept]
    exact past
  · intro caller s _ _ same _
    have kept : (Sender.runner r).mark s = (Sender.runner r).mark hub :=
      Sender.mark_of_marks
        (congrArg (fun rows : HubRows × Books =>
          (rows.2.factHighWater, rows.2.hostFactHighWater)) same)
    rw [← kept] at past
    change (Sender.runner r).mark (s.next (.ingestFacts caller [fact])) < n
    refine Sender.next_stays_past positive past ?_
    intro facts pushed other t mem _
    cases pushed
    cases List.mem_singleton.mp (Lane.Rule.mem_of_reached mem)
    exact under

theorem served_new {status : Nat} {ack : RunnerFactAck}
    (new : ∀ r, answer (MockHubService.principal token) hub = .ok r →
      (Sender.runner r).mark hub < fact.seq)
    (served : answer (Api.pushFacts token [fact]) hub = .ok (.served status ack)) :
    (∃ r, ack = MockHubService.newAck r fact hub) ∧ (fact.kind = leaseMinted → ∀ chunk epoch,
      hub.chunks.get? (chunkIdOf fact.payload) = some chunk → epochOf fact.payload = .ok epoch →
      (Method.after (Api.pushFacts token [fact]) hub).chunks = hub.chunks.put
        (chunk.fenced epoch)) := by
  revert served
  refine Api.outcome_pushFacts (P := fun answered t => answered = .ok (.served status ack) →
    (∃ r, ack = MockHubService.newAck r fact hub) ∧ (fact.kind = leaseMinted → ∀ chunk epoch,
      hub.chunks.get? (chunkIdOf fact.payload) = some chunk → epochOf fact.payload = .ok epoch →
      t.chunks = hub.chunks.put (chunk.fenced epoch))) ?_ ?_
  · intro _ _ unserved _ served
    exact absurd served (unserved status ack)
  · intro r s ack named same ingested served
    cases served
    have chunks : s.chunks = hub.chunks :=
      congrArg (fun rows : HubRows × Books => rows.1.chunks) same
    have marks : s.factHighWater = hub.factHighWater :=
      congrArg (fun rows : HubRows × Books => rows.2.factHighWater) same
    have past := new r named
    have past : s.factHighWater.getD r 0 < fact.seq := by
      rw [marks]
      exact past
    obtain ⟨acked, _, written⟩ := MockHubService.ingest_new past ingested
    refine ⟨⟨r, ?_⟩, fun minted chunk epoch held read => ?_⟩
    · rw [acked, MockHubService.newAck, MockHubService.newAck,
        MockHubService.admitted_of_rows same, marks]
    · rw [← chunks] at held ⊢
      rw [written, minted, MockHubService.chunks_mint held read]

end Hub

section Runs

variable (own : String → Prop) (token : Option String)

/-- What keeps a driver's sequence ahead of the hub's marks. -/
def Stays (stack later : Stack) : Prop := stack.Ahead own token → later.Ahead own token

instance : IsPreorder Stack (Stays own token) where
  refl _ := id
  trans _ _ _ first second := second ∘ first

def lane (stack : Stack) : Option String × Int × MockHubService × Stream' Passage × List Push :=
  (stack.runner.token, stack.runner.runnerSeq, stack.hub, stack.passages, stack.pushes)

variable {own token}

theorem ahead_of_lane {s t : Stack} (same : lane t = lane s) (h : s.Ahead own token) :
    t.Ahead own token := by
  have bearer : t.runner.token = s.runner.token := congrArg (·.1) same
  have counted : t.runner.runnerSeq = s.runner.runnerSeq := congrArg (·.2.1) same
  have hub : t.hub = s.hub := congrArg (·.2.2.1) same
  have passages : t.passages = s.passages := congrArg (·.2.2.2.1) same
  have pushes : t.pushes = s.pushes := congrArg (·.2.2.2.2) same
  have pushed (r : String) : t.PushedAs r ↔ s.PushedAs r := by
    simp only [Stack.PushedAs]
    rw [bearer, pushes]
  refine ⟨⟨bearer.trans h.bearer, passages ▸ h.spared, counted ▸ h.counted, fun named => ?_⟩, ?_⟩
  · rw [pushes]
    exact h.judged fun r mine => named r ((pushed r).mpr mine)
  · rw [hub, counted]
    exact h.ahead

instance (priority := low) {α : Type} (m : DriveM α) [Keeps lane m] : Follows (Stays own token) m :=
  Follows.of_keeps fun _ _ => ahead_of_lane

open MockRunnerService

theorem met_stays {stack : Stack} (h : stack.Sound own token) {n : Int} {r : String} (mine : own r)
    (positive : 0 < n) (past : (Sender.runner r).mark stack.hub < n) :
    (Sender.runner r).mark (met stack) < n :=
  after_spared (h.spared 0) mine positive past

instance {α : Type} (route : Option String → HubM (Reply α))
    [kept : ∀ token, Keeps MockHubService.marks (route token)] :
    Follows (Stays own token) (call route) where
  follows stack h := by
    rw [Method.after, run_call]
    refine ⟨⟨h.bearer, fun n => h.spared (n + 1), h.counted, h.judged⟩, fun r mine => ?_⟩
    have past := met_stays h.toSound mine (Int.lt_add_one_of_le h.counted)
      (Int.lt_add_one_of_le (h.ahead r mine))
    refine Int.le_of_lt_add_one ?_
    simp only [left]
    split
    · rw [Sender.mark_of_marks ((kept _).keeps _)]
      exact past
    · exact past

theorem logged_judged {kind : String} {payload : Fields} {stack : Stack}
    (new : ∀ r, answer (MockHubService.principal stack.runner.token) (met stack) = .ok r →
      (Sender.runner r).mark (met stack) < stack.runner.runnerSeq + 1) :
    (logged kind payload stack).Judged stack.runner.token := by
  have judged : ∀ ack, (logged kind payload stack).Served stack.runner.token ack → _ :=
    fun ack served => served.1.elim fun status answered => served_new new answered
  constructor
  · intro status ack replied
    have replied : returned (Api.pushFacts · [nextFact kind payload stack]) (numbered stack) =
      .served status ack := replied
    obtain ⟨answered, left⟩ := returned_served replied
    exact ⟨⟨status, answered⟩, left⟩
  · intro ack served
    obtain ⟨⟨r, acked⟩, _⟩ := judged ack served
    rw [acked, MockHubService.newAck]
    split <;> rfl
  · intro ack served
    obtain ⟨⟨r, acked⟩, _⟩ := judged ack served
    rw [acked, MockHubService.newAck, apply_ite RunnerFactAck.applied]
  · intro ack served
    obtain ⟨⟨r, acked⟩, _⟩ := judged ack served
    rw [acked, MockHubService.newAck, apply_ite RunnerFactAck.rejected]
  · intro ack served minted chunk epoch held read
    have raised := (judged ack served).2 minted chunk epoch held read
    have filed : chunk.chunkId = chunkIdOf (logged kind payload stack).fact.payload :=
      Table.key_of_get? held
    rw [served.2, raised, ← filed]
    exact Table.get?_put_self _ (chunk.fenced epoch)

instance (kind : String) (payload : Fields) :
    Follows (Stays own token) (pushFact kind payload) where
  follows stack h := by
    rw [Method.after, run_pushFact]
    have positive : 0 < stack.runner.runnerSeq + 1 := Int.lt_add_one_of_le h.counted
    have past (r : String) (mine : own r) : (Sender.runner r).mark (met stack) <
      stack.runner.runnerSeq + 1 :=
      met_stays h.toSound mine positive (Int.lt_add_one_of_le (h.ahead r mine))
    refine ⟨⟨h.bearer, fun n => h.spared (n + 1), positive.le, fun named push mem => ?_⟩,
      fun r mine => ?_⟩
    · cases mem with
      | head =>
        rw [← h.bearer]
        refine logged_judged fun r named' => past r (named r ?_)
        exact ⟨_, List.mem_cons_self, named'⟩
      | tail _ mem =>
        refine h.judged (fun r pushed => named r ?_) push mem
        obtain ⟨other, held, called⟩ := pushed
        exact ⟨other, List.mem_cons_of_mem _ held, called⟩
    · refine Int.le_of_lt_add_one ?_
      have under : (Sender.runner r).mark (met stack) < stack.runner.runnerSeq + 1 + 1 :=
        (past r mine).trans (Int.lt_succ _)
      simp only [logged, left]
      split
      · exact after_push (positive.trans (Int.lt_succ _)) under (Int.lt_succ _)
      · exact under

section Verbs

instance (kind : RunnerLever) (c : Option String) : Keeps lane (find kind c) := ⟨fun _ => rfl⟩

instance (lever : Lever) : Keeps lane (consume lever) := ⟨fun _ => rfl⟩

instance : Keeps lane now := ⟨fun _ => rfl⟩

instance : Keeps lane uuid4Hex := ⟨fun _ => rfl⟩

instance {α : Type} (f : MockRunnerService → α) : Keeps lane (readRunner f) := ⟨fun _ => rfl⟩

instance (f : MockRunnerService → Dict String Held) :
    Keeps lane (setRunner fun runner => { runner with held := f runner }) := ⟨fun _ => rfl⟩

instance (f : MockRunnerService → Option String) :
    Keeps lane (setRunner fun runner => { runner with runnerId := f runner }) := ⟨fun _ => rfl⟩

instance (f : MockRunnerService → Int) :
    Keeps lane (setRunner fun runner => { runner with transcriptSeq := f runner }) := ⟨fun _ => rfl⟩

instance (f : MockRunnerService → Dict String (Dict String GitCommit)) :
    Keeps lane (setRunner fun runner => { runner with gitCommitDeclarations := f runner }) :=
  ⟨fun _ => rfl⟩

instance (c : Option String) : Keeps lane (applyDelay c) := by
  simp only [applyDelay]
  infer_instance

instance (kind : RunnerLever) (c : String) : Keeps lane (pull kind c) := by
  simp only [pull]
  infer_instance

instance (held : Held) : Follows (Stays own token) (reportLease held) := by
  simp only [reportLease]
  infer_instance

instance (c : String) (drive : Held → DriveM α) [∀ held, Follows (Stays own token) (drive held)] :
    Follows (Stays own token) (whenHeld c drive) := by
  have (held : Option Held) : Follows (Stays own token) (match held with
      | none => return none
      | some held => some <$> drive held) := by
    cases held <;> (dsimp only; infer_instance)
  simp only [whenHeld]
  infer_instance

instance (caps : Option (List RunnerCapability)) (subs : Option (List DeclaredSubscription))
    (declining : List RunnerDecliningView) :
    Follows (Stays own token) (register caps subs declining) := by
  apply Follows.andThen inferInstance
  intro _
  apply Follows.andThen inferInstance
  intro runner
  apply Follows.andThen inferInstance
  intro reply
  cases reply <;> infer_instance

instance (c : String) (es : List String) : Follows (Stays own token) (claim c es) := by
  apply Follows.andThen inferInstance
  intro _
  apply Follows.andThen inferInstance
  intro workspaceId
  apply Follows.andThen inferInstance
  intro reply
  cases reply <;> infer_instance

instance (es : List String) (strict : Bool) : Follows (Stays own token) (claimNext es strict) := by
  apply Follows.andThen inferInstance
  intro reply
  cases reply with
  | served _ entries =>
    dsimp only
    cases selectNext entries strict <;> infer_instance
  | refused => infer_instance

instance (c : String) (response : ApplyResponse) :
    Follows (Stays own token) (advance c response) := by
  apply Follows.andThen inferInstance
  intro held
  cases held with
  | none => exact inferInstanceAs (Follows _ (pure ()))
  | some held =>
    dsimp only [whenSome]
    split <;> infer_instance

instance (c choice : String) : Follows (Stays own token) (complete c choice) := by
  apply Follows.andThen inferInstance
  intro _
  apply Follows.andThen inferInstance
  intro held
  cases held with
  | none => infer_instance
  | some held =>
    apply Follows.andThen inferInstance
    intro unreachable
    cases unreachable with
    | true => exact inferInstanceAs (Follows _ (pure _))
    | false =>
      dsimp only [Bool.false_eq_true, if_false]
      apply Follows.andThen inferInstance
      intro stale
      apply Follows.andThen inferInstance
      intro conflicting
      apply Follows.andThen inferInstance
      intro omitted
      apply Follows.andThen inferInstance
      intro staleToken
      apply Follows.andThen inferInstance
      intro _
      apply Follows.andThen inferInstance
      intro reply
      apply Follows.andThen inferInstance
      intro replay
      cases replay with
      | true => cases reply <;> (dsimp only [if_true]; infer_instance)
      | false => cases reply <;> (dsimp only [Bool.false_eq_true, if_false]; infer_instance)

theorem follows_verb {verb : Verb} (driven : verb ≠ .reset) :
    Follows (Stays own token) verb.run := by
  cases verb with
  | reset => exact absurd rfl driven
  | _ =>
    dsimp only [Verb.run, Verb.Answer, peek, peekMatched, getChunk, chunkStatuses, declareGitCommit,
      escalate, MockRunnerService.decide, ask, pushTranscript, pollAnswer, pause,
        resume, reportEvent,
      reportExternalUsage, reportExternalUsageMiss]
    infer_instance

end Verbs

theorem follows_lever (step : LeverStep) : Follows (Stays own token) (Step.lever step).run :=
  ⟨fun _ => ahead_of_lane rfl⟩

end Runs

/-- What a run keeps of a driver: until its next fact its sequence may stand behind the hub's marks
only at zero. -/
def Stack.Paced (own : String → Prop) (token : Option String) (stack : Stack) : Prop :=
  stack.Sound own token ∧ (stack.runner.runnerSeq ≠ 0 → stack.Ahead own token)

theorem paced_next {own : String → Prop} {token : Option String} (step : Step) (stack : Stack)
    (h : stack.Paced own token) (spared : ∀ op, step = .other op → Spares own op)
    (clear : step.Clear own stack) : (stack.next step).Paced own token := by
  obtain ⟨sound, ahead⟩ := h
  have counted := sound.counted
  cases step with
  | other op =>
    have sound : (stack.next (.other op)).Sound own token :=
      ⟨sound.bearer, sound.spared, counted, sound.judged⟩
    refine ⟨sound, fun numbered => ⟨sound, fun r mine => Int.le_of_lt_add_one ?_⟩⟩
    have past := Int.lt_add_one_of_le ((ahead numbered).ahead r mine)
    have spared : ∀ other ∈ [op], Spares own other := List.forall_mem_singleton.mpr (spared op rfl)
    exact after_spared spared mine (Int.lt_add_one_of_le counted) past
  | lever step =>
    exact ⟨⟨sound.bearer, sound.spared, counted, sound.judged⟩,
      fun numbered => (follows_lever step).follows stack (ahead numbered)⟩
  | verb verb =>
    by_cases driven : verb = .reset
    · cases driven
      exact ⟨⟨sound.bearer, sound.spared, le_refl 0, sound.judged⟩, fun numbered =>
        absurd rfl numbered⟩
    · have ahead : stack.Ahead own token := by
        by_cases numbered : stack.runner.runnerSeq = 0
        · refine ⟨sound, fun r mine => ?_⟩
          have unseen : (Sender.runner r).mark stack.hub = 0 := by
            cases verb <;> first | exact clear numbered r mine | exact absurd rfl driven
          rw [unseen]
          exact counted
        · exact ahead numbered
      have : Follows (Stays own token) verb.run := follows_verb driven
      have stays : Follows (Stays own token) (Step.verb verb).run := by
        simp only [Step.run]
        infer_instance
      have later := stays.follows stack ahead
      exact ⟨later.toSound, fun _ => later⟩

/-- In a run in which nobody else pushes for the driver's runners and the driver never numbers its
facts from one under a mark of the hub, every fact it pushes is judged on its merits. -/
theorem pushes_judged (token : Option String) (name workspaceId : String) (hub : MockHubService)
    (passages : Stream' Passage) (clock : Stream' DateTime) (uuids : Stream' String)
    (steps : List Step) :
    let start := Stack.fresh token name workspaceId hub passages clock uuids
    let final := start.after steps
    Alone final.PushedAs passages steps → start.Meets (Step.Clear final.PushedAs) steps →
      ∀ push ∈ final.pushes, push.Judged token := by
  intro start final alone clear
  have fresh : start.Paced final.PushedAs token := by
    refine ⟨⟨rfl, alone.amid, le_refl 0, fun _ push mem => ?_⟩, fun numbered => absurd rfl numbered⟩
    cases mem
  have paced : final.Paced final.PushedAs token :=
    Machine.invariant (C := fun step stack => (∀ op, step = .other op → Spares final.PushedAs op) ∧
        step.Clear final.PushedAs stack)
      (fun step stack h fits => paced_next step stack h fits.1 fits.2)
      (clear.of_mem fun step mem _ clear =>
        ⟨fun op same => alone.between op (same ▸ mem), clear⟩) fresh
  exact paced.1.judged fun _ => id

end

section

attribute [local instance] Platform.plain

def oneBuild (chunkId : String) : ChunkSpec where
  chunkId := some chunkId
  entry := "build"
  nodes := .ofList [("build", {})]

def twoBuilds : MockHubService :=
  MockHubService.after [.registry (.addRunner "ann" firstTenantId (some "r") (some "t") none none),
    .seedChunk (oneBuild "c"), .seedChunk (oneBuild "d")] (MockHubService.fresh .still)

def ann : Stack :=
  .fresh (some "t") "ann" "w" twoBuilds .direct (fun _ => default) (fun _ => "")

def resetBetween : List Step :=
  [.verb (.register none none []), .verb (.claim "c" []), .verb .reset, .verb (.claim "d" [])]

theorem reset_swallows_lease :
    let final := ann.after resetBetween
    twoBuilds.Reachable ∧ Alone final.PushedAs .direct resetBetween ∧
      (final.pushes.map fun push =>
        (push.fact.kind, push.fact.seq, push.reply.body.map (·.alreadyApplied))) =
        [(leaseMinted, 1, some [1]), (leaseMinted, 1, some [])] ∧
      (final.runner.held.get? "d").map (·.epoch) = some 1 ∧
      (final.hub.chunks.get? "d").map (·.latestEpoch) = some 0 := by
  refine ⟨MockHubService.reachable_run _ _, ⟨?_, ?_⟩, ?_, ?_, ?_⟩
  · intro op mem
    simp [resetBetween] at mem
  · intro _ op mem
    cases mem
  · decide +kernel
  · decide +kernel
  · decide +kernel

def resetTogether : List Step :=
  [.verb (.register none none []), .verb (.claim "c" []), .verb (.pause "bob" none), .verb .reset,
    .other .reset,
    .other (.registry (.addRunner "ann" firstTenantId (some "r") (some "t") none none)),
    .other (.seedChunk (oneBuild "d")), .verb (.register none none []), .verb (.claim "d" [])]

theorem pushes_judged_reset_together :
    let final := ann.after resetTogether
    (final.pushes.map fun push => (push.fact.seq, push.reply.body.map (·.alreadyApplied))) =
        [(1, some []), (2, some []), (1, some [])] ∧
      ∀ push ∈ final.pushes, push.Judged (some "t") := by
  refine ⟨by decide +kernel, pushes_judged (some "t") "ann" "w" twoBuilds .direct
    (fun _ => default) (fun _ => "") resetTogether ⟨?_, ?_⟩ ?_⟩
  · intro op mem r facts _ pushes
    simp [resetTogether, pushes] at mem
  · intro _ op mem
    cases mem
  · refine ⟨fun _ r _ => ?_, fun _ r _ =>
      ?_, ?_, trivial, trivial, trivial, trivial, fun _ r _ => ?_,
      fun _ r _ => ?_, trivial⟩
    · rfl
    · rfl
    · exact fun zero => absurd zero (by decide +kernel)
    · rfl
    · rfl

end

end BlizzardMock.MockRunner
