import BlizzardMock.MockHub.ApiLaws

namespace BlizzardMock.MockHub

open Method

namespace MockHubService

-- a long method's frame is found from those of all its steps at once
set_option synthInstance.maxSize 1000

def Disarmed (hub later : MockHubService) : Prop := hub.levers = ∅ → later.levers = ∅

instance : IsPreorder MockHubService Disarmed where
  refl _ := id
  trans _ _ _ first second := second ∘ first

section Disarmed

variable {α β : Type}

theorem lever_unarmed {hub : MockHubService} (unarmed : hub.levers = ∅) (kind : HubLever)
    (c : Option String) : lever hub.levers kind c = none := by
  rw [unarmed]
  rfl

instance (priority := low) (m : HubM α) [Keeps (·.levers) m] : Follows Disarmed m :=
  Follows.of_keeps fun _ _ same unarmed => same.trans unarmed

instance follows_findLever (kind : HubLever) (c : Option String) (g : Option Lever → HubM α)
    [h : Follows Disarmed (g none)] : Follows Disarmed (findLever kind c >>= g) where
  follows hub unarmed := by
    change (Method.after (g (lever hub.levers kind c)) hub).levers = ∅
    rw [lever_unarmed unarmed]
    exact h.follows hub unarmed

instance (g : Lever → HubM Unit) : Follows Disarmed (whenSome g none) :=
  inferInstanceAs (Follows Disarmed (pure ()))

instance (f : HubRows → α) : Keeps (·.levers) (readStore f) := ⟨fun _ => rfl⟩
instance (f : InMemoryLeverStore → α) : Keeps (·.levers) (readLevers f) := ⟨fun _ => rfl⟩
instance (f : Books → α) : Keeps (·.levers) (readBooks f) := ⟨fun _ => rfl⟩
instance (f : Registry → Registry) : Keeps (·.levers) (setRegistry f) := ⟨fun _ => rfl⟩
instance (f : Books → Books) : Keeps (·.levers) (setBooks f) := ⟨fun _ => rfl⟩
instance (f : Table ChunkState.chunkId → Table ChunkState.chunkId) :
    Keeps (·.levers) (setChunks f) :=
  ⟨fun _ => rfl⟩
instance (chunk : ChunkState) : Keeps (·.levers) (putChunk chunk) := ⟨fun _ => rfl⟩
instance (question : QuestionState) : Keeps (·.levers) (putQuestion question) := ⟨fun _ => rfl⟩
instance (r : String) (f : ReportedRunnerFacts → ReportedRunnerFacts) :
    Keeps (·.levers) (report r f) :=
  ⟨fun _ => rfl⟩
instance : Keeps (·.levers) now := ⟨fun _ => rfl⟩

instance (id : String) : Keeps (·.levers) (require id) := by rw [require]; infer_instance
instance (id : String) : Keeps (·.levers) (added id) := by rw [added]; infer_instance

instance (c : String) : Follows Disarmed (checkPinnedGraph c) := by
  rw [checkPinnedGraph]
  infer_instance

instance (kind : HubLever) (c r detail : String) :
    Follows Disarmed (refuseByClaimLever kind c r detail) := by
  rw [refuseByClaimLever]
  have : Follows Disarmed (whenSome (fun lever : Lever => do
      consumeLever lever
      raise (.claimRunnerLeverRefusal kind.value r detail))
      ((none : Option Lever).filter (claimLeverNames · r))) :=
    inferInstanceAs (Follows Disarmed (pure ()))
  infer_instance

instance (r action : String) : Keeps (·.levers) (refuseRetiredRunner r action) := by
  rw [refuseRetiredRunner]
  infer_instance

instance (c : String) : Follows Disarmed (consultChunkUnknown c) := by
  rw [consultChunkUnknown]
  infer_instance

instance (c r : String) : Keeps (·.levers) (requireRunnerChunk c r) := by
  rw [requireRunnerChunk]
  infer_instance

instance (c r : String) : Keeps (·.levers) (refuseForeignRunnerChunk c r) := by
  rw [refuseForeignRunnerChunk]
  infer_instance

instance (c : String) : Follows Disarmed (popDropAck c) := by
  rw [popDropAck]
  infer_instance

variable [Platform]

instance (c : String) (holder : Option String) : Follows Disarmed (reportedHolder c holder) := by
  rw [reportedHolder]
  infer_instance

instance (chunk : ChunkState) (c r : String) : Follows Disarmed (refuseClaimant chunk c r) := by
  rw [refuseClaimant]
  infer_instance

instance (c r w : String) (es : List String) : Follows Disarmed (claim c r w es) := by
  rw [claim]
  infer_instance

instance (r : String) (version : Option String) : Follows Disarmed (refuseVersion r version) := by
  rw [refuseVersion]
  have : Follows Disarmed (whenSome (fun lever : Lever => do
      consumeLever lever
      raise (.runnerVersionRefused (scriptedVersionRefusal lever version)))
      ((none : Option Lever).filter (namesRunner · r))) :=
    inferInstanceAs (Follows Disarmed (pure ()))
  infer_instance

instance (r : String) (registration : Registration) :
    Follows Disarmed (register r registration) := by
  rw [register]
  infer_instance

instance (r : String) (paused : Bool) : Keeps (·.levers) (setPaused r paused) := by
  rw [setPaused]
  infer_instance

instance (chunk : ChunkState) (openIds : List String) (e : Int) (n choice : String) :
    Follows Disarmed (judgeCompletion chunk openIds e n choice) := by
  simp only [judgeCompletion]
  split
  · infer_instance
  · split <;> infer_instance

instance (c : String) (e : Int) (n choice : String) :
    Follows Disarmed (applyCompletion c e n choice) := by
  rw [applyCompletion]
  infer_instance

instance (c : String) (e : Int) (n : String) : Follows Disarmed (applyDecision c e n) := by
  apply Follows.andThen inferInstance
  intro chunk
  apply Follows.andThen inferInstance
  intro _
  apply Follows.andThen inferInstance
  intro openIds
  split <;> infer_instance

instance (c : String) : Follows Disarmed (pauseChunk c) := by
  rw [pauseChunk]
  infer_instance

instance (c : String) : Follows Disarmed (resumeChunk c) := by
  rw [resumeChunk]
  infer_instance

instance (c : String) : Follows Disarmed (stopChunk c) := by
  rw [stopChunk]
  infer_instance

instance (q given actor : String) : Follows Disarmed (answerQuestion q given actor) := by
  rw [answerQuestion]
  infer_instance

section Facts

variable (payload : List (String × Json))

instance (r : String) : Keeps (·.levers) (applyLeaseMinted r payload) := by
  simp only [applyLeaseMinted, advanceFence]
  infer_instance

instance : Keeps (·.levers) (applyEscalationRecorded payload) := by
  apply Keeps.andThen inferInstance
  intro chunk
  cases chunk <;> infer_instance

instance (r : String) : Keeps (·.levers) (applyQuestionAsked r payload) := by
  rw [applyQuestionAsked]
  infer_instance

instance : Keeps (·.levers) (applyAnswerDelivered payload) := by
  apply Keeps.andThen inferInstance
  intro question
  cases question <;> infer_instance

instance (value : Json) : Keeps (·.levers) (parseInstant value) := by
  apply Keeps.andThen inferInstance
  intro stamp
  cases stamp <;> (rw [instantOr]; infer_instance)

instance (slug : String) : Keeps (·.levers) (usageView payload slug) := by
  rw [usageView]
  infer_instance

instance (slug : String) : Keeps (·.levers) (usageMiss payload slug) := by
  rw [usageMiss]
  infer_instance

instance (r : String) : Keeps (·.levers) (applyUsageSampled r payload) := by
  simp only [applyUsageSampled]
  cases slugOf payload <;> infer_instance

instance (r : String) : Keeps (·.levers) (applyUsageMissed r payload) := by
  simp only [applyUsageMissed]
  cases slugOf payload <;> infer_instance

instance (r kind : String) : Keeps (·.levers) (applyFact r kind payload) := by
  simp only [applyFact, applyLocallyPaused, applyLocallyResumed]
  infer_instance

end Facts

instance (r : String) (facts : List Fact) : Keeps (·.levers) (ingestFacts r facts) := by
  have (fact : Fact) : Keeps (·.levers) ((factLane r).judge fact) :=
    inferInstanceAs (Keeps (·.levers) (applyFact r fact.kind fact.payload))
  simp only [ingestFacts]
  infer_instance

instance (r : String) (records : List TranscriptRecord) :
    Keeps (·.levers) (ingestTranscripts r records) := by
  rw [ingestTranscripts]
  infer_instance

instance (r p : Option String) : Keeps (·.levers) (peekProject r p) := by
  cases r <;> cases p <;> (unfold peekProject; infer_instance)

instance (r p : Option String) : Keeps (·.levers) (peek r p) := by
  rw [peek]
  infer_instance

instance (r : String) (caps : List RunnerCapability) (policy : String) (ps : Option (List String)) :
    Keeps (·.levers) (peekMatched r caps policy ps) := by
  rw [peekMatched]
  infer_instance

instance (c r : String) : Follows Disarmed (chunkDetail c r) := by
  rw [chunkDetail]
  infer_instance

instance (c : String) (chunk : ChunkState) : Follows Disarmed (statusOfChunk c chunk) := by
  rw [statusOfChunk]
  infer_instance

instance (r c : String) : Follows Disarmed (chunkStatus r c) := by
  apply Follows.andThen inferInstance
  intro held
  cases held <;> infer_instance

instance (cs : List String) (r : String) : Follows Disarmed (chunkStatuses cs r) := by
  rw [chunkStatuses]
  infer_instance

instance (q r : String) : Keeps (·.levers) (questionView q r) := by
  rw [questionView]
  infer_instance

def Serves : Op → Prop
  | .registry (.register ..) | .registry (.setPaused ..) | .read (.peek ..) | .read
    (.peekMatched ..)
  | .read (.chunkDetail ..) | .read (.chunkStatuses ..) | .read (.questionView ..) | .claim ..
  | .applyCompletion .. | .applyDecision .. | .ingestFacts .. | .ingestTranscripts ..
      | .pauseChunk _ | .resumeChunk _
  | .stopChunk _ | .answerQuestion .. => True
  | _ => False

theorem disarmed_next {op : Op} (serves : Serves op) (hub : MockHubService) :
    Disarmed hub (hub.next op) := by
  have : Follows Disarmed op.run := by
    cases op with
    | registry op =>
      cases op with
      | register r registration =>
        exact inferInstanceAs (Follows Disarmed (register r registration))
      | setPaused r paused => exact inferInstanceAs (Follows Disarmed (setPaused r paused))
      | _ => exact serves.elim
    | read op =>
      cases op with
      | peek r p => exact inferInstanceAs (Follows Disarmed (peek r p))
      | peekMatched r caps policy ps =>
        exact inferInstanceAs (Follows Disarmed (peekMatched r caps policy ps))
      | chunkDetail c r => exact inferInstanceAs (Follows Disarmed (chunkDetail c r))
      | chunkStatuses cs r => exact inferInstanceAs (Follows Disarmed (chunkStatuses cs r))
      | questionView q r => exact inferInstanceAs (Follows Disarmed (questionView q r))
      | _ => exact serves.elim
    | seedChunk | rekeyRouteToken | release | hubAdvance | retireHostRunner
        | ingestHostFacts | lever
    | reset => exact serves.elim
    | _ =>
      dsimp only [Op.run, Op.Answer]
      infer_instance
  exact this.follows hub

end Disarmed

instance (token : Option String) : Keeps id (principal token) := by
  cases token <;> (rw [principal]; infer_instance)

instance (r action : String) : Keeps id (refuseRetiredRunner r action) := by
  rw [refuseRetiredRunner]
  infer_instance

instance (c r : String) : Keeps id (requireRunnerChunk c r) := by
  rw [requireRunnerChunk]
  infer_instance

instance (c r : String) : Keeps id (refuseForeignRunnerChunk c r) := by
  rw [refuseForeignRunnerChunk]
  infer_instance

instance (r : String) (t : Option String) : Keeps id (refuseForeignTenant r t) := by
  rw [refuseForeignTenant]
  infer_instance

def Rests (hub later : MockHubService) : Prop := hub.levers = ∅ → later = hub

instance : IsPreorder MockHubService Rests where
  refl _ _ := rfl
  trans hub mid _ first second unarmed := by
    have same := first unarmed
    rw [← same] at unarmed
    exact (second unarmed).trans same

section Rests

variable {α β : Type}

instance (priority := low) (m : HubM α) [h : Keeps id m] : Follows Rests m :=
  ⟨fun hub _ => h.keeps hub⟩

instance (kind : HubLever) (c : Option String) (g : Option Lever → HubM α)
    [h : Follows Rests (g none)] :
    Follows Rests (findLever kind c >>= g) where
  follows hub unarmed := by
    change Method.after (g (lever hub.levers kind c)) hub = hub
    rw [lever_unarmed unarmed]
    exact h.follows hub unarmed

instance (g : Lever → HubM Unit) : Follows Rests (whenSome g none) :=
  inferInstanceAs (Follows Rests (pure ()))

instance (c : String) : Follows Rests (checkPinnedGraph c) := by
  rw [checkPinnedGraph]
  infer_instance

instance (kind : HubLever) (c r detail : String) :
    Follows Rests (refuseByClaimLever kind c r detail) := by
  rw [refuseByClaimLever]
  have : Follows Rests (whenSome (fun lever : Lever => do
      consumeLever lever
      raise (.claimRunnerLeverRefusal kind.value r detail))
      ((none : Option Lever).filter (claimLeverNames · r))) :=
    inferInstanceAs (Follows Rests (pure ()))
  infer_instance

instance (chunk : ChunkState) (c r : String) [Platform] :
    Follows Rests (refuseClaimant chunk c r) := by
  rw [refuseClaimant]
  infer_instance

theorem outcome_bind_of_rests {hub : MockHubService} (unarmed : hub.levers = ∅) {m : HubM α}
    [h : Follows Rests m]
    {g : α → HubM β} {P : Except HubError β → MockHubService → Prop}
    (stopped : ∀ e, answer m hub = .error e → P (.error e) hub)
    (continued : ∀ a, answer m hub = .ok a → P (answer (g a) hub) (Method.after (g a) hub)) :
    P (answer (m >>= g) hub) (Method.after (m >>= g) hub) := by
  have same : Method.after m hub = hub := h.follows hub unarmed
  refine outcome_bind (fun e raised => ?_) fun a answered => ?_
  · rw [same]
    exact stopped e raised
  · rw [same]
    exact continued a answered

end Rests

end MockHubService

namespace Api

open MockHubService

variable {α β : Type} {hub : MockHubService} (unarmed : hub.levers = ∅)

include unarmed

/-! Past the levers, and past its gate, a route answers what its method does. -/

theorem run_refuse (status : Nat) (legacy : Option HubLever) (c : Option String)
    (error : HubError) :
    (refuse status legacy c error : HubM (Reply α)).run hub = .ok
      (.refused status (some error)) hub := by
  cases legacy with
  | none => rfl
  | some kind =>
    change EStateM.run (whenSome consumeLever (lever hub.levers kind c) >>= fun _ =>
      pure (Reply.refused status (some error) : Reply α)) hub = _
    rw [lever_unarmed unarmed]
    rfl

theorem run_unreachable (kind : HubLever) (c : Option String) (route : HubM (Reply α)) :
    (unreachable kind c route).run hub = route.run hub := by
  have found : (findLever kind c).run hub = .ok none hub := by
    change EStateM.Result.ok (lever hub.levers kind c) hub = _
    rw [lever_unarmed unarmed]
  rw [unreachable, run_bind_of_run found]

theorem run_sleep (kind : HubLever) (c : Option String) : (sleep kind c).run hub = .ok () hub := by
  change EStateM.run (whenSome _ (lever hub.levers kind c)) hub = _
  rw [lever_unarmed unarmed]
  rfl

theorem run_popDropAck (c : String) : (popDropAck c).run hub = .ok false hub := by
  change EStateM.run (whenSome consumeLever (lever hub.levers .dropAck (some c)) >>= fun _ =>
    pure (lever hub.levers .dropAck (some c)).isSome) hub = _
  rw [lever_unarmed unarmed]
  rfl

theorem run_dispatch (c : Option String) (route : HubM (Reply α)) :
    (dispatch c route).run hub = route.run hub := by
  rw [dispatch, run_unreachable unarmed, run_bind_of_run (run_sleep unarmed _ _)]

theorem run_dispatchTranscripts (route : HubM (Reply α)) :
    (dispatchTranscripts route).run hub = route.run hub := by
  rw [dispatchTranscripts, run_unreachable unarmed, run_unreachable unarmed,
    run_bind_of_run (run_sleep unarmed _ _), run_bind_of_run (run_sleep unarmed _ _)]

theorem run_depends {dependency : HubM α} [kept : Keeps id dependency] (status : Nat)
    (route : α → HubM (Reply β)) :
    (depends dependency status route).run hub = match answer dependency hub with
      | .ok a => (route a).run hub
      | .error error => .ok (.refused status (some error)) hub := by
  have same : after dependency hub = hub := kept.keeps hub
  change EStateM.run (match answer dependency hub with
    | .ok a => route a
    | .error error => refuse status (some .legacyAuthRefusals) none error) (after dependency hub) = _
  rw [same]
  cases answer dependency hub with
  | ok a => rfl
  | error error => exact run_refuse unarmed _ _ _ _

theorem run_serve (status : Nat) (refusal : HubError → Nat × Option HubLever) (c : Option String)
    (handler : HubM α) [disarmed : Follows Disarmed handler] :
    (serve status refusal c handler).run hub = match answer handler hub with
      | .ok body => .ok (.served status body) (after handler hub)
      | .error error => .ok (.refused (refusal error).1 (some error)) (after handler hub) := by
  change EStateM.run (match answer handler hub with
    | .ok body => pure (Reply.served status body)
    | .error error => refuse (refusal error).1 (refusal error).2 c error) (after handler hub) = _
  cases answer handler hub with
  | ok body => rfl
  | error error => exact run_refuse (disarmed.follows hub unarmed) _ _ _ _

theorem run_runnerChunk (c r : String) (route : HubM (Reply α)) :
    (runnerChunk c r route).run hub = match answer (refuseForeignRunnerChunk c r) hub with
      | .ok _ => route.run hub
      | .error error => .ok (.refused (unhandled error) (some error)) hub := by
  have same : after (refuseForeignRunnerChunk c r) hub = hub := Keeps.keeps (f := id) hub
  change EStateM.run (match answer (refuseForeignRunnerChunk c r) hub with
    | .ok _ => route
    | .error error => refuse (unhandled error) _ (some c) error)
    (after (refuseForeignRunnerChunk c r) hub) = _
  rw [same]
  cases answer (refuseForeignRunnerChunk c r) hub with
  | ok _ => rfl
  | error error => exact run_refuse unarmed _ _ _ _

theorem run_fleet (token : Option String) (route : String → HubM (Reply α)) :
    (fleet token route).run hub = match answer (principal token) hub with
      | .error error => .ok (.refused 401 (some error)) hub
      | .ok r => match answer (refuseRetiredRunner r "fleet call") hub with
        | .error error => .ok (.refused 403 (some error)) hub
        | .ok _ => (route r).run hub := by
  rw [fleet, run_depends unarmed]
  cases answer (principal token) hub with
  | error error => rfl
  | ok r =>
    dsimp only
    rw [run_depends unarmed]
    cases answer (refuseRetiredRunner r "fleet call") hub with
    | error error => rfl
    | ok _ =>
      dsimp only
      rw [run_depends unarmed]
      rfl

theorem run_claimGate (token : Option String) (route : String → HubM (Reply α)) :
    (claimGate token route).run hub = match answer (principal token) hub with
      | .error error => .ok (.refused 401 (some error)) hub
      | .ok r => (route r).run hub := by
  rw [claimGate, run_depends unarmed]
  cases answer (principal token) hub with
  | error error => rfl
  | ok r =>
    dsimp only
    rw [run_depends unarmed]
    rfl

section Comes

omit unarmed

variable [Platform]

def Comes (m : HubM α) (allowed : Op → Prop) : Prop :=
  ∀ hub, hub.levers = ∅ → after m hub = hub ∨ ∃ op, allowed op ∧ after m hub = hub.next op

variable {allowed : Op → Prop}

theorem comes_op (op : Op) (fits : allowed op) : Comes op.run allowed := fun _ _ =>
      .inr ⟨op, fits, rfl⟩

theorem Comes.mono {m : HubM α} {other : Op → Prop} (h : Comes m allowed)
    (sub : ∀ op, allowed op → other op) : Comes m other := by
  intro hub unarmed
  refine (h hub unarmed).imp_right fun ⟨op, fits, same⟩ => ⟨op, sub op fits, same⟩

theorem comes_dispatch {c : Option String} {route : HubM (Reply α)} (h : Comes route allowed) :
    Comes (dispatch c route) allowed := by
  intro hub unarmed
  rw [after_of_run (run_dispatch unarmed c route)]
  exact h hub unarmed

theorem comes_dispatchTranscripts {route : HubM (Reply α)} (h : Comes route allowed) :
    Comes (dispatchTranscripts route) allowed := by
  intro hub unarmed
  rw [after_of_run (run_dispatchTranscripts unarmed route)]
  exact h hub unarmed

theorem comes_fleet {token : Option String} {route : String → HubM (Reply α)}
    (h : ∀ r, Comes (route r) allowed) : Comes (fleet token route) allowed := by
  intro hub unarmed
  have run := run_fleet unarmed token route
  cases named : answer (principal token) hub with
  | error error =>
    rw [named] at run
    exact .inl (after_of_run_ok run)
  | ok r =>
    cases active : answer (refuseRetiredRunner r "fleet call") hub with
    | error error =>
      rw [named] at run
      dsimp only at run
      rw [active] at run
      exact .inl (after_of_run_ok run)
    | ok _ =>
      rw [named] at run
      dsimp only at run
      rw [active] at run
      rw [after_of_run run]
      exact h r hub unarmed

theorem comes_claimGate {token : Option String} {route : String → HubM (Reply α)}
    (h : ∀ r, Comes (route r) allowed) : Comes (claimGate token route) allowed := by
  intro hub unarmed
  have run := run_claimGate unarmed token route
  cases named : answer (principal token) hub with
  | error error =>
    rw [named] at run
    exact .inl (after_of_run_ok run)
  | ok r =>
    rw [named] at run
    rw [after_of_run run]
    exact h r hub unarmed

theorem comes_runnerChunk {c r : String} {route : HubM (Reply α)} (h : Comes route allowed) :
    Comes (runnerChunk c r route) allowed := by
  intro hub unarmed
  have run := run_runnerChunk unarmed c r route
  cases shared : answer (refuseForeignRunnerChunk c r) hub with
  | error error =>
    rw [shared] at run
    exact .inl (after_of_run_ok run)
  | ok _ =>
    rw [shared] at run
    rw [after_of_run run]
    exact h hub unarmed

theorem comes_serve {status : Nat} {refusal : HubError → Nat × Option HubLever} {c : Option String}
    {handler : HubM α} [Follows Disarmed handler] (h : Comes handler allowed) :
    Comes (serve status refusal c handler) allowed := by
  intro hub unarmed
  have run := run_serve unarmed status refusal c handler
  have same : Method.after (serve status refusal c handler) hub = Method.after handler hub := by
    cases answered : answer handler hub with
    | error error =>
      rw [answered] at run
      exact after_of_run_ok run
    | ok body =>
      rw [answered] at run
      exact after_of_run_ok run
  rw [same]
  exact h hub unarmed

variable (token : Option String)

theorem comes_registerRunner (registration : Registration) :
    Comes (registerRunner token registration) fun op =>
      ∃ r, op = .registry (.register r registration) :=
  comes_dispatch <| comes_fleet fun r =>
    comes_serve <| comes_op (.registry (.register r registration)) ⟨r, rfl⟩

theorem comes_peekQueue : Comes (peekQueue token) fun op => ∃ r, op = .read (.peek (some r) none) :=
  comes_dispatch <| comes_fleet fun r =>
    comes_serve <| comes_op (.read (.peek (some r) none)) ⟨r, rfl⟩

theorem comes_peekMatchedQueue (caps : List RunnerCapability) (policy : String) :
    Comes (peekMatchedQueue token caps policy) fun op =>
      ∃ r, op = .read (.peekMatched r caps policy none) :=
  comes_dispatch <| comes_fleet fun r =>
    comes_serve <| comes_op (.read (.peekMatched r caps policy none)) ⟨r, rfl⟩

theorem comes_claimRoute (c w : String) (es : List String) :
    Comes (claimRoute token c w es) fun op => ∃ r, op = .claim c r w es := by
  refine comes_dispatch <| comes_claimGate fun r => comes_serve fun hub _ => ?_
  have same : Method.after (refuseForeignRunnerChunk c r) hub = hub := Keeps.keeps (f := id) hub
  cases shared : answer (refuseForeignRunnerChunk c r) hub with
  | error error => exact .inl ((after_bind_of_error _ shared _).trans same)
  | ok _ =>
    refine .inr ⟨.claim c r w es, ⟨r, rfl⟩, ?_⟩
    rw [after_bind_of_ok _ shared, same]
    rfl

theorem run_submitCompletion (c : String) (e : Int) (n choice : String) {hub : MockHubService}
    (unarmed : hub.levers = ∅) : (submitCompletion token c e n choice).run hub =
      (fleet token fun r => runnerChunk c r <|
        serve 200 chunkRefusal (some c) (applyCompletion c e n choice)).run hub := by
  rw [submitCompletion, run_dispatch unarmed, run_fleet unarmed, run_fleet unarmed]
  cases answer (principal token) hub with
  | error error => rfl
  | ok r =>
    dsimp only
    cases answer (refuseRetiredRunner r "fleet call") hub with
    | error error => rfl
    | ok _ =>
      dsimp only
      rw [run_runnerChunk unarmed, run_runnerChunk unarmed]
      cases answer (refuseForeignRunnerChunk c r) hub with
      | error error => rfl
      | ok _ =>
        have run := run_serve unarmed 200 chunkRefusal (some c) (applyCompletion c e n choice)
        have later := Follows.follows (R := Disarmed) (m := applyCompletion c e n choice) hub
        cases answered : answer (applyCompletion c e n choice) hub with
        | error error =>
          rw [answered] at run
          dsimp only
          rw [run_bind_of_run run, run]
          rfl
        | ok response =>
          rw [answered] at run
          dsimp only
          rw [run_bind_of_run run, run]
          exact run_bind_of_run (run_popDropAck (later unarmed) c)

theorem comes_submitCompletion (c : String) (e : Int) (n choice : String) :
    Comes (submitCompletion token c e n choice) (· = .applyCompletion c e n choice) := by
  intro hub unarmed
  rw [after_of_run (run_submitCompletion token c e n choice unarmed)]
  have passed : Comes (fleet token fun r => runnerChunk c r <|
      serve 200 chunkRefusal (some c) (applyCompletion c e n choice))
        (· = .applyCompletion c e n choice) :=
    comes_fleet fun _ =>
      comes_runnerChunk <| comes_serve <| comes_op (.applyCompletion c e n choice) rfl
  exact passed hub unarmed

theorem comes_submitDecision (c : String) (e : Int) (n : String) :
    Comes (submitDecision token c e n) (· = .applyDecision c e n) :=
  comes_dispatch <| comes_fleet fun _ => comes_runnerChunk <| comes_serve <|
    comes_op (.applyDecision c e n) rfl

theorem comes_pushFacts (facts : List Fact) :
    Comes (pushFacts token facts) fun op => ∃ r, op = .ingestFacts r facts :=
  comes_dispatch <| comes_fleet fun r => comes_serve <| comes_op (.ingestFacts r facts) ⟨r, rfl⟩

theorem comes_pushTranscripts (records : List TranscriptRecord) :
    Comes (pushTranscripts token records) fun op => ∃ r, op = .ingestTranscripts r records :=
  comes_dispatchTranscripts <| comes_fleet fun r =>
    comes_serve <| comes_op (.ingestTranscripts r records) ⟨r, rfl⟩

theorem comes_getChunk (c : String) : Comes (getChunk token c) fun op =>
      ∃ r, op = .read (.chunkDetail c r) :=
  comes_dispatch <| comes_fleet fun r => comes_serve <| comes_op (.read (.chunkDetail c r)) ⟨r, rfl⟩

theorem comes_getChunkStatuses (cs : List String) :
    Comes (getChunkStatuses token cs) fun op => ∃ r, op = .read (.chunkStatuses cs r) :=
  comes_dispatch <| comes_fleet fun r =>
    comes_serve <| comes_op (.read (.chunkStatuses cs r)) ⟨r, rfl⟩

theorem comes_getQuestion (q : String) :
    Comes (getQuestion token q) fun op => ∃ r, op = .read (.questionView q r) :=
  comes_dispatch <| comes_fleet fun r =>
    comes_serve <| comes_op (.read (.questionView q r)) ⟨r, rfl⟩

end Comes

end Api

end BlizzardMock.MockHub
