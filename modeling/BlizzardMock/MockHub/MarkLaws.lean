import BlizzardMock.MockHub.FrameLaws

namespace BlizzardMock.MockHub

open Method MockHubService

namespace Fact

variable [Platform] (fact : Fact) (hub : MockHubService)

def escalates : Bool :=
  match hub.chunks.get? (chunkIdOf fact.payload) with
  | none => true
  | some chunk =>
    match epochOf fact.payload with
    | .ok epoch => if (chunk.fenceRefusal epoch).isSome then false else true
    | .error _ => true

def asks : Bool :=
  if questionIdOf fact.payload = "" ∨ chunkIdOf fact.payload = "" then false
  else match questionFenced hub.store.toHubRows fact.payload with
    | .ok fenced => if fenced then false else true
    | .error _ => true

def delivers : Bool :=
  match hub.questions.get? (questionIdOf fact.payload) with
  | none => false
  | some question => if (question.deliveryRefusal (chunkIdOf fact.payload)).isSome then false else true

def admitted : Bool :=
  if fact.kind = leaseMinted then true
  else if fact.kind = escalationRecorded then fact.escalates hub
  else if fact.kind = questionAsked then fact.asks hub
  else if fact.kind = answerDelivered then fact.delivers hub
  else if fact.kind = runnerLocallyPaused then true
  else if fact.kind = runnerLocallyResumed then true
  else if fact.kind = externalSubscriptionUsageSampled then (slugOf fact.payload).isSome
  else if fact.kind = externalSubscriptionUsageMissed then (slugOf fact.payload).isSome
  else fact.kind = usageRecorded ∨ fact.kind = eventRecorded

omit [Platform] in
def admittedByHost : Bool :=
  match slugOf fact.payload with
  | none => false
  | some _ =>
    if fact.kind = externalSubscriptionUsageSampled then true
    else if fact.kind = externalSubscriptionUsageMissed then
      match strictText (Json.get fact.payload "reason" .null) with
      | none => false
      | some reason => if strip reason = "" then false else true
    else false

variable {fact hub}

theorem yields_escalates :
    Yields (applyEscalationRecorded fact.payload) hub (fact.escalates hub) := by
  apply yields_read
  simp only [escalates]
  cases hub.chunks.get? (chunkIdOf fact.payload) with
  | none => exact yields_pure true
  | some chunk =>
    apply yields_settle
    intro epoch coerced
    rw [coerced]
    exact (yields_pure false).ite yields_last

theorem yields_asks {r : String} :
    Yields (applyQuestionAsked r fact.payload) hub (fact.asks hub) := by
  apply (yields_pure false).ite
  apply yields_read
  apply yields_settle
  intro fenced (coerced : questionFenced hub.store.toHubRows fact.payload = .ok fenced)
  rw [coerced]
  exact (yields_pure false).ite (yields_bind fun _ _ => yields_last)

theorem yields_delivers : Yields (applyAnswerDelivered fact.payload) hub (fact.delivers hub) := by
  apply yields_read
  simp only [delivers]
  cases hub.questions.get? (questionIdOf fact.payload) with
  | none => exact yields_pure false
  | some question =>
    apply (yields_pure false).ite
    split
    · exact yields_pure true
    · exact yields_bind fun _ _ => yields_last

omit [Platform] in
theorem yields_usage {slug : Option String} {g : String → HubM Bool}
    (h : ∀ name, Yields (g name) hub true) :
    Yields (match slug with
      | none => return false
      | some name => g name) hub slug.isSome := by
  cases slug with
  | none => exact yields_pure false
  | some name => exact h name

theorem yields_admitted {r : String} :
    Yields (applyFact r fact.kind fact.payload) hub (fact.admitted hub) := by
  apply Yields.ite (yields_read yields_last)
  apply yields_escalates.ite
  apply yields_asks.ite
  apply yields_delivers.ite
  apply yields_last.ite
  apply yields_last.ite
  apply (yields_usage fun _ => yields_bind fun _ _ => yields_last).ite
  apply (yields_usage fun _ => yields_bind fun _ _ => yields_last).ite
  exact yields_pure _

theorem yields_admittedByHost {h : String} :
    Yields (applyHostFact h fact.kind fact.payload) hub fact.admittedByHost := by
  simp only [applyHostFact, admittedByHost]
  cases slugOf fact.payload with
  | none => exact yields_pure false
  | some slug =>
    apply Yields.ite (yields_bind fun _ _ => yields_bind fun _ _ => yields_last)
    apply Yields.ite
    · cases strictText (Json.get fact.payload "reason" .null) with
      | none => exact yields_pure false
      | some reason =>
        exact (yields_pure false).ite (yields_bind fun _ _ => yields_bind fun _ _ => yields_last)
    · exact yields_pure false

end Fact

/-- A sender of facts: a runner, or a host. -/
inductive Sender
  | runner (runnerId : String)
  | host (hostId : String)
  deriving DecidableEq

namespace Sender

section Lane

variable (hub : MockHubService)

def mark : Sender → Int
  | runner r => hub.factHighWater.getD r 0
  | host h => hub.hostFactHighWater.getD h 0

def marked (mark : Int) : Sender → Dict String Int × Dict String Int →
      Dict String Int × Dict String Int
  | runner r, marks => (marks.1.set r mark, marks.2)
  | host h, marks => (marks.1, marks.2.set h mark)

variable [Platform]

def lane : Sender → Lane.Rule HubError MockHubService Fact
  | runner r => factLane r
  | host h => hostFactLane h

def push (facts : List Fact) : Sender → Op
  | runner r => .ingestFacts r facts
  | host h => .ingestHostFacts h facts

def acknowledges (facts : List Fact) : Sender → Except HubError Lane
  | runner r => (answer (ingestFacts r facts) hub).map fun ack =>
      ⟨ack.highWater, ack.applied, ack.alreadyApplied, ack.rejected⟩
  | host h => (answer (ingestHostFacts h facts) hub).map fun ack =>
      ⟨ack.highWater, ack.applied, ack.alreadyApplied, ack.rejected⟩

def admits (fact : Fact) : Sender → Bool
  | runner _ => fact.admitted hub
  | host _ => fact.admittedByHost

def reached (facts : List Fact) (sender : Sender) : List (Fact × MockHubService) :=
  sender.lane.pushReached facts (sender.mark hub) hub

end Lane

variable [Platform] {sender : Sender} {hub : MockHubService}

theorem rises : sender.lane.Rises := by
  intro mark seq past
  cases sender with
  | runner r => exact max_eq_right past.le
  | host h => rfl

theorem lane_seq (fact : Fact) : sender.lane.seq fact = fact.seq := by
  cases sender with
  | runner => rfl
  | host => rfl

theorem judges : sender.lane.Judges fun fact hub => sender.admits hub fact := by
  intro fact hub accepted h
  cases sender with
  | runner r => exact Fact.yields_admitted accepted h
  | host id => exact Fact.yields_admittedByHost accepted h

end Sender

namespace MockHubService

def marks (hub : MockHubService) : Dict String Int × Dict String Int :=
  (hub.factHighWater, hub.hostFactHighWater)

section Marks

variable {α : Type}

instance (m : HubM α) [h : Keeps besideChunks m] : Keeps marks m :=
  h.comp m fun w => (w.2.factHighWater, w.2.hostFactHighWater)

instance (m : HubM α) [h : Keeps besideQuestions m] : Keeps marks m :=
  h.comp m fun w => (w.2.factHighWater, w.2.hostFactHighWater)

instance (r : String) (records : List TranscriptRecord) :
    Keeps marks (ingestTranscripts r records) :=
  Keeps.comp _ (f := fun hub : MockHubService => hub.work.fences)
    fun w => (w.books.factHighWater, w.books.hostFactHighWater)

variable [Platform]

instance (chunk : ChunkState) (epoch : Int) (r : String) :
    Keeps marks (advanceFence chunk epoch r) := by
  simp only [advanceFence]
  apply Keeps.andThen inferInstance
  intro _
  apply Keeps.andThen inferInstance
  intro _
  exact ⟨fun _ => rfl⟩

instance (r : String) (payload : List (String × Json)) :
    Keeps marks (applyLeaseMinted r payload) := by
  simp only [applyLeaseMinted]
  infer_instance

instance (r kind : String) (payload : List (String × Json)) :
    Keeps marks (applyFact r kind payload) := by
  apply applyFact_cases (P := fun m => Keeps marks m)
  · intro _
    infer_instance
  · intro _
    infer_instance
  · intro _
    infer_instance
  · intro _
    infer_instance
  · intro m _
    infer_instance

end Marks

variable [Platform]

instance (r : String) (facts : List Fact) (mark : Int) :
    Keeps marks ((factLane r).push facts mark) :=
  have (fact : Fact) : Keeps marks ((factLane r).judge fact) :=
    inferInstanceAs (Keeps marks (applyFact r fact.kind fact.payload))
  inferInstance

theorem marks_ingestFacts (r : String) (facts : List Fact) (hub : MockHubService) :
    (Method.after (ingestFacts r facts) hub).marks =
      match answer ((factLane r).push facts (hub.factHighWater.getD r 0)) hub with
      | .ok lane => (hub.factHighWater.set r lane.mark, hub.hostFactHighWater)
      | .error _ => hub.marks := by
  have kept := Keeps.keeps (f := marks)
    (m := (factLane r).push facts (hub.factHighWater.getD r 0)) hub
  simp only [ingestFacts]
  rw [after_bind_of_ok _ rfl]
  change marks (Method.after ((factLane r).push facts (hub.factHighWater.getD r 0) >>= _) hub) = _
  cases swept : answer ((factLane r).push facts (hub.factHighWater.getD r 0)) hub with
  | ok lane =>
    rw [after_bind_of_ok _ swept]
    exact congrArg (fun m : Dict String Int × Dict String Int => (m.1.set r lane.mark, m.2)) kept
  | error e =>
    rw [after_bind_of_error _ swept]
    exact kept

theorem answer_ingestFacts (r : String) (facts : List Fact) (hub : MockHubService) :
    answer (ingestFacts r facts) hub =
      (answer ((factLane r).push facts (hub.factHighWater.getD r 0)) hub).map fun lane =>
        ⟨r, lane.mark, lane.applied, lane.alreadyApplied, lane.rejected⟩ := by
  simp only [ingestFacts]
  rw [answer_bind]
  change answer ((factLane r).push facts (hub.factHighWater.getD r 0) >>= _) hub = _
  rw [answer_bind]
  cases answer ((factLane r).push facts (hub.factHighWater.getD r 0)) hub with
  | ok lane => rfl
  | error e => rfl

instance (h : String) (facts : List Fact) (mark : Int) :
    Keeps marks ((hostFactLane h).push facts mark) :=
  have (fact : Fact) : Keeps marks ((hostFactLane h).judge fact) :=
    inferInstanceAs (Keeps marks (applyHostFact h fact.kind fact.payload))
  inferInstance

omit [Platform] in
theorem after_host (h : String) (hub : MockHubService) : Method.after (host h) hub = hub :=
  Keeps.keeps (f := id) hub

theorem marks_ingestHostFacts {h : String} {row : HostRow} {hub : MockHubService}
    (found : answer (host h) hub = .ok row) (facts : List Fact) :
    (Method.after (ingestHostFacts h facts) hub).marks =
      match answer ((hostFactLane h).push facts (hub.hostFactHighWater.getD h 0)) hub with
      | .ok lane => (hub.factHighWater, hub.hostFactHighWater.set h lane.mark)
      | .error _ => hub.marks := by
  have kept := Keeps.keeps (f := marks)
    (m := (hostFactLane h).push facts (hub.hostFactHighWater.getD h 0)) hub
  simp only [ingestHostFacts]
  rw [after_bind_of_ok _ found, after_host, after_bind_of_ok _ rfl]
  change marks (Method.after
    ((hostFactLane h).push facts (hub.hostFactHighWater.getD h 0) >>= _) hub) = _
  cases swept : answer ((hostFactLane h).push facts (hub.hostFactHighWater.getD h 0)) hub with
  | ok lane =>
    rw [after_bind_of_ok _ swept]
    exact congrArg (fun m : Dict String Int × Dict String Int => (m.1, m.2.set h lane.mark)) kept
  | error e =>
    rw [after_bind_of_error _ swept]
    exact kept

theorem answer_ingestHostFacts {h : String} {row : HostRow} {hub : MockHubService}
    (found : answer (host h) hub = .ok row) (facts : List Fact) :
    answer (ingestHostFacts h facts) hub =
      (answer ((hostFactLane h).push facts (hub.hostFactHighWater.getD h 0)) hub).map fun lane =>
        ⟨h, lane.mark, lane.applied, lane.alreadyApplied, lane.rejected⟩ := by
  simp only [ingestHostFacts]
  rw [answer_bind, found, after_host]
  change answer (readBooks _ >>= _) hub = _
  rw [answer_bind]
  change answer ((hostFactLane h).push facts (hub.hostFactHighWater.getD h 0) >>= _) hub = _
  rw [answer_bind]
  cases answer ((hostFactLane h).push facts (hub.hostFactHighWater.getD h 0)) hub with
  | ok lane => rfl
  | error e => rfl

theorem marks_next {op : Op} (hub : MockHubService) (h : LeavesLanes op) :
    (hub.next op).marks = hub.marks :=
  have := keeps_besideChunks op h
  Keeps.keeps (f := marks) (m := op.run) hub

end MockHubService

namespace Sender

variable [Platform] {sender : Sender} {hub : MockHubService}

theorem marks_push (facts : List Fact) (hub : MockHubService) :
    match sender.acknowledges hub facts with
    | .ok out => answer (sender.lane.push facts (sender.mark hub)) hub = .ok out ∧
        (hub.next (sender.push facts)).marks = sender.marked out.mark hub.marks
    | .error _ => (hub.next (sender.push facts)).marks = hub.marks := by
  cases sender with
  | runner r =>
    have moved := marks_ingestFacts r facts hub
    simp only [acknowledges, answer_ingestFacts]
    cases swept : answer ((factLane r).push facts (hub.factHighWater.getD r 0)) hub with
    | ok out =>
      rw [swept] at moved
      exact ⟨swept, moved⟩
    | error e =>
      rw [swept] at moved
      exact moved
  | host h =>
    simp only [acknowledges]
    cases found : answer (MockHubService.host h) hub with
    | error e =>
      simp only [ingestHostFacts]
      rw [answer_bind, found]
      change (Method.after (ingestHostFacts h facts) hub).marks = hub.marks
      simp only [ingestHostFacts]
      rw [after_bind_of_error _ found, after_host]
    | ok row =>
      have moved := marks_ingestHostFacts found facts
      rw [answer_ingestHostFacts found]
      cases swept : answer ((hostFactLane h).push facts (hub.hostFactHighWater.getD h 0)) hub with
      | ok out =>
        rw [swept] at moved
        exact ⟨swept, moved⟩
      | error e =>
        rw [swept] at moved
        exact moved

omit [Platform] in
theorem mark_of_marks {later : MockHubService} (h : later.marks = hub.marks) :
    sender.mark later = sender.mark hub := by
  cases sender with
  | runner r => exact congrArg (fun m : Dict String Int × Dict String Int => m.1.getD r 0) h
  | host id => exact congrArg (fun m : Dict String Int × Dict String Int => m.2.getD id 0) h

omit [Platform] in
theorem mark_marked {later : MockHubService} {n : Int}
    (h : later.marks = sender.marked n hub.marks) :
    sender.mark later = n := by
  cases sender with
  | runner r =>
    have first : later.factHighWater = hub.factHighWater.set r n := congrArg Prod.fst h
    simp only [mark, first, Dict.getD_set_self]
  | host id =>
    have second : later.hostFactHighWater = hub.hostFactHighWater.set id n := congrArg Prod.snd h
    simp only [mark, second, Dict.getD_set_self]

omit [Platform] in
theorem mark_marked_of_ne {other : Sender} (ne : sender ≠ other) {later : MockHubService} {n : Int}
    (h : later.marks = other.marked n hub.marks) : sender.mark later = sender.mark hub := by
  have first := congrArg Prod.fst h
  have second := congrArg Prod.snd h
  cases sender with
  | runner r =>
    change later.factHighWater = _ at first
    cases other with
    | runner r' =>
      have ne : r ≠ r' := fun same => ne (congrArg runner same)
      simp only [mark, first]
      exact Dict.getD_set_of_ne ne _ _ _
    | host => simp only [mark, first]; rfl
  | host id =>
    change later.hostFactHighWater = _ at second
    cases other with
    | runner => simp only [mark, second]; rfl
    | host id' =>
      have ne : id ≠ id' := fun same => ne (congrArg host same)
      simp only [mark, second]
      exact Dict.getD_set_of_ne ne _ _ _

theorem mark_next {P : Int → Prop} (op : Op) (kept : P (sender.mark hub)) (reset : P 0)
    (pushed : ∀ facts out, op = sender.push facts →
      answer (sender.lane.push facts (sender.mark hub)) hub = .ok out → P out.mark) :
    P (sender.mark (hub.next op)) := by
  have keep (h : (hub.next op).marks = hub.marks) : P (sender.mark (hub.next op)) := by
    rw [mark_of_marks h]
    exact kept
  have push (other : Sender) (facts : List Fact) (same : op = other.push facts) :
      P (sender.mark (hub.next op)) := by
    have moved := other.marks_push facts hub
    rw [← same] at moved
    cases h : other.acknowledges hub facts with
    | ok out =>
      rw [h] at moved
      by_cases own : sender = other
      · rw [← own] at moved same
        rw [mark_marked moved.2]
        exact pushed facts out same moved.1
      · rw [mark_marked_of_ne own moved.2]
        exact kept
    | error e =>
      rw [h] at moved
      exact keep moved
  cases op with
  | ingestFacts r facts => exact push (.runner r) facts rfl
  | ingestHostFacts h facts => exact push (.host h) facts rfl
  | reset =>
    cases sender with
    | runner => exact reset
    | host => exact reset
  | ingestTranscripts r records =>
    exact keep (Keeps.keeps (f := marks) (m := ingestTranscripts r records) hub)
  | answerQuestion q given actor =>
    exact keep (Keeps.keeps (f := marks) (m := answerQuestion q given actor) hub)
  | _ => exact keep (marks_next hub trivial)

theorem reachable_mark_nonneg (reachable : hub.Reachable) : 0 ≤ sender.mark hub := by
  obtain ⟨sources, ops, ran⟩ := reachable
  rw [ran]
  refine Machine.invariant_always (I := fun hub => 0 ≤ sender.mark hub) ?_ ops ?_
  · intro op hub nonneg
    refine mark_next (P := fun mark => 0 ≤ mark) op nonneg (le_refl 0) ?_
    intro facts out _ swept
    exact nonneg.trans (Lane.Rule.push_mark_le rises swept)
  · cases sender with
    | runner => exact le_refl 0
    | host => exact le_refl 0

/-- The sender's pushes admit no fact numbered `n` or more. -/
def AdmitsUnder (n : Int) (sender : Sender) (op : Op) (hub : MockHubService) : Prop :=
  ∀ facts, op = sender.push facts → ∀ fact t, (fact, t) ∈ sender.reached hub facts →
    sender.admits t fact = true → fact.seq < n

theorem push_stays_past {n : Int} {op : Op} {facts : List Fact} {out : Lane}
    (under : sender.AdmitsUnder n op hub) (same : op = sender.push facts)
    (swept : answer (sender.lane.push facts (sender.mark hub)) hub = .ok out)
    (past : sender.mark hub < n) : out.mark < n ∧ n ∉ out.alreadyApplied := by
  refine Lane.Rule.push_stays_past rises judges swept ?_ past
  intro x reached admitted
  rw [lane_seq]
  exact under facts same x.1 x.2 reached admitted

theorem next_stays_past {n : Int} {op : Op} (positive : 0 < n) (past : sender.mark hub < n)
    (under : sender.AdmitsUnder n op hub) : sender.mark (hub.next op) < n := by
  refine mark_next (P := fun mark => mark < n) op past positive ?_
  intro facts out same swept
  exact (push_stays_past under same swept past).1

/-- The mark ends under every number a push refused if and only if the push admits no fact behind a
refused one; and a refused number is not acknowledged as applied while no fact from it on is. -/
theorem refused_holds_mark :
    (∀ (sender : Sender) hub facts out, sender.acknowledges hub facts = .ok out →
      ((∀ n ∈ out.rejected, out.mark < n) ↔ (sender.reached hub facts).Pairwise
        fun x y => sender.admits x.2 x.1 = false → sender.admits y.2 y.1 = false)) ∧
    ∀ (sender : Sender) (hub : MockHubService) facts out n, hub.Reachable →
      sender.acknowledges hub facts = .ok out → n ∈ out.rejected → ∀ later again last,
      Meets (sender.AdmitsUnder n) (sender.push facts :: later ++ [sender.push again]) hub →
      sender.acknowledges (after (sender.push facts :: later) hub) again = .ok last →
      n ∉ last.alreadyApplied := by
  constructor
  · intro sender hub facts out acknowledged
    have pushed := sender.marks_push facts hub
    rw [acknowledged] at pushed
    exact Lane.Rule.push_holds_iff rises judges pushed.1
  · intro sender hub facts out n reachable acknowledged refused later again last run answered
    have pushed := sender.marks_push facts hub
    rw [acknowledged] at pushed
    have past := Lane.Rule.push_mark_lt rises pushed.1 refused
    have positive := (reachable_mark_nonneg reachable).trans_lt past
    obtain ⟨run, final⟩ := (Machine.meets_append _ _ _).mp run
    have past := Machine.invariant (I := fun hub => sender.mark hub < n)
      (fun op hub past under => next_stays_past positive past under) run past
    have pushed := sender.marks_push again (after (sender.push facts :: later) hub)
    rw [answered] at pushed
    exact (push_stays_past final.1 rfl pushed.1 past).2

end Sender

section

attribute [local instance] Platform.plain

def idleRunner : MockHubService :=
  after [.registry (.addRunner "ann" firstTenantId (some "r") (some "t") none none)] (fresh .still)

def unknownFirst : List Fact :=
  [{ seq := 1, kind := "made.up" }, { seq := 2, kind := usageRecorded }]

def unknownLast : List Fact :=
  [{ seq := 1, kind := usageRecorded }, { seq := 2, kind := "made.up" }]

theorem mark_passes_refused :
    idleRunner.Reachable ∧
      answer (ingestFacts "r" unknownFirst) idleRunner = .ok ⟨"r", 2, [2], [], [1]⟩ ∧
      answer (ingestFacts "r" [{ seq := 1, kind := "made.up" }])
        (idleRunner.next (.ingestFacts "r" unknownFirst)) = .ok ⟨"r", 2, [], [1], []⟩ :=
  ⟨reachable_run _ _, rfl, rfl⟩

theorem refused_holds_mark_unknown_last :
    ∃ out last, (Sender.runner "r").acknowledges idleRunner unknownLast = .ok out ∧
      (∀ n ∈ out.rejected, out.mark < n) ∧
      (Sender.runner "r").acknowledges (idleRunner.next (.ingestFacts "r" unknownLast))
        [{ seq := 2, kind := "made.up" }] = .ok last ∧ 2 ∉ last.alreadyApplied := by
  have pushed : (Sender.runner "r").acknowledges idleRunner unknownLast = .ok ⟨1, [1], [], [2]⟩ :=
    rfl
  refine ⟨_, ⟨1, [], [], [2]⟩, pushed, ?_, rfl, ?_⟩
  · refine (Sender.refused_holds_mark.1 (.runner "r") idleRunner unknownLast _ pushed).mpr ?_
    refine List.pairwise_cons.mpr ⟨fun y _ refused => ?_, List.pairwise_singleton _ _⟩
    cases (refused : true = false)
  · refine Sender.refused_holds_mark.2 (.runner "r") idleRunner unknownLast _ 2 (reachable_run _ _)
      pushed (by decide) [] [{ seq := 2, kind := "made.up" }] ⟨1, [], [], [2]⟩ ⟨?_, ?_, trivial⟩ rfl
    · intro facts same fact t mem admitted
      cases same
      cases mem with
      | head => decide
      | tail _ mem =>
        cases List.mem_singleton.mp mem
        cases (admitted : false = true)
    · intro facts same fact t mem admitted
      cases same
      cases List.mem_singleton.mp mem
      cases (admitted : false = true)

end

end BlizzardMock.MockHub
