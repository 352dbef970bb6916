import BlizzardMock.MockHub.Api
import BlizzardMock.MockHub.IntakeLaws

namespace BlizzardMock.MockHub.Api

open Method MockHubService

variable {α β : Type}

instance (kind : HubLever) (c : Option String) : Keeps rows (sleep kind c) := by
  rw [sleep]
  infer_instance

instance (status : Nat) (legacy : Option HubLever) (c : Option String) (error : HubError) :
    Keeps rows (refuse status legacy c error : HubM (Reply α)) := by
  rw [refuse]
  infer_instance

instance (r : String) (t : Option String) : Keeps rows (refuseForeignTenant r t) := by
  rw [refuseForeignTenant]
  infer_instance

instance (c r : String) : Keeps rows (refuseForeignRunnerChunk c r) := by
  rw [refuseForeignRunnerChunk]
  infer_instance

theorem answer_refuse (status : Nat) (legacy : Option HubLever) (c : Option String)
    (error : HubError)
    (hub : MockHubService) :
    answer (refuse status legacy c error : HubM (Reply α)) hub = .ok
      (.refused status (some error)) := by
  cases legacy with
  | none => rfl
  | some kind =>
    change answer (whenSome consumeLever (lever hub.levers kind c) >>= fun _ =>
      pure (Reply.refused status (some error) : Reply α)) hub = _
    cases lever hub.levers kind c <;> rfl

section Frames

variable {γ : Type} {f : MockHubService → γ}
  (coarse : ∀ {β : Type} (m : HubM β) [Keeps rows m], Keeps f m)

include coarse

theorem keeps_unreachable (kind : HubLever) (c : Option String) {route : HubM (Reply α)}
    (h : Keeps f route) : Keeps f (unreachable kind c route) := by
  refine Keeps.andThen (coarse _) fun found => ?_
  cases found with
  | none => exact h
  | some lever => exact coarse _

theorem keeps_dispatch (c : Option String) {route : HubM (Reply α)} (h : Keeps f route) :
    Keeps f (dispatch c route) :=
  keeps_unreachable coarse _ _ <| Keeps.andThen (coarse _) fun _ => h

theorem keeps_dispatchTranscripts {route : HubM (Reply α)} (h : Keeps f route) :
    Keeps f (dispatchTranscripts route) :=
  keeps_unreachable coarse _ _ <| keeps_unreachable coarse _ _ <|
    Keeps.andThen (coarse _) fun _ => Keeps.andThen (coarse _) fun _ => h

theorem keeps_depends {dependency : HubM α} [Keeps rows dependency] (status : Nat)
    {route : α → HubM (Reply β)} (h : ∀ a, Keeps f (route a)) :
    Keeps f (depends dependency status route) := by
  refine Keeps.andThen (coarse _) fun outcome => ?_
  cases outcome with
  | ok a => exact h a
  | error error => exact coarse _

theorem keeps_fleet (token : Option String) {route : String → HubM (Reply α)}
    (h : ∀ r, Keeps f (route r)) : Keeps f (fleet token route) :=
  keeps_depends coarse _ fun r => keeps_depends coarse _ fun _ =>
    keeps_depends coarse _ fun _ => h r

theorem keeps_claimGate (token : Option String) {route : String → HubM (Reply α)}
    (h : ∀ r, Keeps f (route r)) : Keeps f (claimGate token route) :=
  keeps_depends coarse _ fun r => keeps_depends coarse _ fun _ => h r

theorem keeps_serve (status : Nat) (refusal : HubError → Nat × Option HubLever) (c : Option String)
    {handler : HubM α} (h : Keeps f handler) : Keeps f (serve status refusal c handler) := by
  refine Keeps.andThen inferInstance fun outcome => ?_
  cases outcome with
  | ok body => infer_instance
  | error error => exact coarse _

theorem keeps_runnerChunk (c r : String) {route : HubM (Reply α)} (h : Keeps f route) :
    Keeps f (runnerChunk c r route) := by
  refine Keeps.andThen (coarse _) fun outcome => ?_
  cases outcome with
  | ok _ => exact h
  | error error => exact coarse _

theorem keeps_read [Platform] (status : Nat) (refusal : HubError → Nat × Option HubLever)
    (c : Option String) (op : ReadOp) : Keeps f (serve status refusal c op.run) :=
  have := keeps_rows_read op
  keeps_serve coarse _ _ _ (coarse _)

end Frames

/-! What is to be shown of whatever a call comes to: it holds of any error and any refusal beside
the rows of the start, and of what the route comes to from them. -/

section Outcomes

variable {hub origin : MockHubService} {P : Except HubError (Reply β) → MockHubService → Prop}

theorem outcome_refuse (same : hub.rows = origin.rows) {status : Nat} {legacy : Option HubLever}
    {c : Option String} {error : HubError}
    (refused : ∀ status error t, t.rows = origin.rows → P (.ok (.refused status error)) t) :
    P (answer (refuse status legacy c error : HubM (Reply β)) hub)
      (after (refuse status legacy c error : HubM (Reply β)) hub) := by
  rw [answer_refuse]
  have kept := Keeps.keeps (f := rows) (m := (refuse status legacy c error : HubM (Reply β))) hub
  exact refused _ _ _ (kept.trans same)

theorem outcome_unreachable {kind : HubLever} {c : Option String} {route : HubM (Reply β)}
    (same : hub.rows = origin.rows)
    (refused : ∀ status error t, t.rows = origin.rows → P (.ok (.refused status error)) t)
    (passed : ∀ t, t.rows = origin.rows → P (answer route t) (after route t)) :
    P (answer (unreachable kind c route) hub) (after (unreachable kind c route) hub) := by
  refine outcome_bind (fun e raised => ?_) fun found _ => ?_
  · cases raised
  · cases found with
    | none => exact passed hub same
    | some lever => exact refused _ _ _ same

theorem outcome_dispatch {c : Option String} {route : HubM (Reply β)}
    (same : hub.rows = origin.rows)
    (raised : ∀ e t, t.rows = origin.rows → P (.error e) t)
    (refused : ∀ status error t, t.rows = origin.rows → P (.ok (.refused status error)) t)
    (passed : ∀ t, t.rows = origin.rows → P (answer route t) (after route t)) :
    P (answer (dispatch c route) hub) (after (dispatch c route) hub) := by
  refine outcome_unreachable same refused fun s same => ?_
  refine outcome_bind_of_keeps (f := rows) same raised fun _ t _ same => ?_
  exact passed t same

theorem outcome_depends {dependency : HubM α} [kept : Keeps rows dependency] {status : Nat}
    {route : α → HubM (Reply β)} (same : hub.rows = origin.rows)
    (refused : ∀ status error t, t.rows = origin.rows → P (.ok (.refused status error)) t)
    (passed : ∀ a t, answer dependency hub = .ok a → t.rows = origin.rows →
      P (answer (route a) t) (after (route a) t)) :
    P (answer (depends dependency status route) hub)
      (after (depends dependency status route) hub) := by
  have same := (kept.keeps hub).trans same
  refine outcome_bind (fun e raised => ?_) fun outcome answered => ?_
  · cases raised
  · cases answered
    cases depended : answer dependency hub with
    | ok a => exact passed a _ depended same
    | error error => exact outcome_refuse same refused

theorem answer_principal_of_rows {s t : MockHubService} (same : s.rows = t.rows)
    (token : Option String) :
    answer (principal token) s = answer (principal token) t := by
  have store : s.store.toHubRows = t.store.toHubRows := congrArg Prod.fst same
  cases token with
  | none => rfl
  | some token =>
    change answer (settle (principalOf s.store.toRegistry token)) s =
      answer (settle (principalOf t.store.toRegistry token)) t
    rw [answer_settle, answer_settle, store]

theorem outcome_fleet {token : Option String} {route : String → HubM (Reply β)}
    (same : hub.rows = origin.rows)
    (refused : ∀ status error t, t.rows = origin.rows → P (.ok (.refused status error)) t)
    (passed : ∀ r t, answer (principal token) origin = .ok r → t.rows = origin.rows →
      P (answer (route r) t) (after (route r) t)) :
    P (answer (fleet token route) hub) (after (fleet token route) hub) := by
  refine outcome_depends same refused fun r s named same₁ => ?_
  refine outcome_depends same₁ refused fun _ t _ same₂ => ?_
  refine outcome_depends same₂ refused fun _ u _ same₃ => ?_
  rw [answer_principal_of_rows same] at named
  exact passed r u named same₃

end Outcomes

section Pushes

variable [Platform]

theorem outcome_pushFacts {token : Option String} {facts : List Fact} {hub : MockHubService}
    {P : Except HubError (Reply RunnerFactAck) → MockHubService → Prop}
    (unserved : ∀ answered t, (∀ status ack, answered ≠ .ok (.served status ack)) →
      t.marks = hub.marks → P answered t)
    (served : ∀ r s ack, answer (principal token) hub = .ok r → s.rows = hub.rows →
      answer (ingestFacts r facts) s = .ok ack →
      P (.ok (.served 200 ack)) (after (ingestFacts r facts) s)) :
    P (answer (pushFacts token facts) hub) (after (pushFacts token facts) hub) := by
  have marks_of_rows {t : MockHubService} (same : t.rows = hub.rows) : t.marks = hub.marks :=
    congrArg (fun rows : HubRows × Books => (rows.2.factHighWater, rows.2.hostFactHighWater)) same
  have refused : ∀ status error t, t.rows = hub.rows → P (.ok (.refused status error)) t :=
    fun _ _ _ same => unserved _ _ (fun _ _ h => by cases h) (marks_of_rows same)
  have raised : ∀ e t, t.rows = hub.rows → P (.error e) t :=
    fun _ _ same => unserved _ _ (fun _ _ h => by cases h) (marks_of_rows same)
  refine outcome_dispatch rfl raised refused fun s same => ?_
  refine outcome_fleet same refused fun r t named same => ?_
  refine outcome_bind (fun e raised => ?_) fun outcome answered => ?_
  · cases raised
  · cases answered
    cases ingested : answer (ingestFacts r facts) t with
    | ok ack => exact served r t ack named same ingested
    | error error =>
      have kept := marks_ingestFacts r facts t
      rw [answer_ingestFacts] at ingested
      cases swept : answer ((factLane r).push facts (t.factHighWater.getD r 0)) t with
      | ok lane =>
        rw [swept] at ingested
        cases ingested
      | error e =>
        rw [swept] at kept
        dsimp only
        rw [answer_refuse]
        refine unserved _ _ (fun _ _ h => by cases h) ?_
        rw [Keeps.keeps (f := marks)]
        exact kept.trans (marks_of_rows same)

end Pushes

section Marks

theorem marks_coarse {β : Type} (m : HubM β) [Keeps rows m] : Keeps marks m := inferInstance

variable [Platform] (token : Option String)

instance (registration : Registration) : Keeps marks (registerRunner token registration) := by
  refine keeps_dispatch marks_coarse _ (keeps_fleet marks_coarse _ fun r => ?_)
  have : Keeps work (register r registration) := keeps_work_registry (.register r registration)
  exact keeps_serve marks_coarse _ _ _ inferInstance

instance : Keeps marks (peekQueue token) :=
  keeps_dispatch marks_coarse _ (keeps_fleet marks_coarse _ fun r =>
    keeps_read marks_coarse _ _ _ (.peek (some r) none))

instance (capabilities : List RunnerCapability) (policy : String) :
    Keeps marks (peekMatchedQueue token capabilities policy) :=
  keeps_dispatch marks_coarse _ (keeps_fleet marks_coarse _ fun r =>
    keeps_read marks_coarse _ _ _ (.peekMatched r capabilities policy none))

instance (c w : String) (es : List String) : Keeps marks (claimRoute token c w es) :=
  keeps_dispatch marks_coarse _ (keeps_claimGate marks_coarse _ fun _ =>
    keeps_serve marks_coarse _ _ _ inferInstance)

instance (c : String) (e : Int) (n choice : String) :
    Keeps marks (submitCompletion token c e n choice) := by
  refine keeps_dispatch marks_coarse _ (keeps_fleet marks_coarse _ fun r => ?_)
  refine keeps_runnerChunk marks_coarse _ _ (Keeps.andThen ?_ fun reply => ?_)
  · exact keeps_serve marks_coarse _ _ _ inferInstance
  · have : Keeps rows (popDropAck c) := keeps_rows_read (.popDropAck c)
    cases reply <;> (dsimp only; infer_instance)

instance (c : String) (e : Int) (n : String) : Keeps marks (submitDecision token c e n) :=
  keeps_dispatch marks_coarse _ (keeps_fleet marks_coarse _ fun _ =>
    keeps_runnerChunk marks_coarse _ _ (keeps_serve marks_coarse _ _ _ inferInstance))

instance (records : List TranscriptRecord) : Keeps marks (pushTranscripts token records) :=
  keeps_dispatchTranscripts marks_coarse (keeps_fleet marks_coarse _ fun _ =>
    keeps_serve marks_coarse _ _ _ inferInstance)

instance (c : String) : Keeps marks (getChunk token c) :=
  keeps_dispatch marks_coarse _ (keeps_fleet marks_coarse _ fun r =>
    keeps_read marks_coarse _ _ _ (.chunkDetail c r))

instance (cs : List String) : Keeps marks (getChunkStatuses token cs) :=
  keeps_dispatch marks_coarse _ (keeps_fleet marks_coarse _ fun r =>
    keeps_read marks_coarse _ _ _ (.chunkStatuses cs r))

instance (q : String) : Keeps marks (getQuestion token q) :=
  keeps_dispatch marks_coarse _ (keeps_fleet marks_coarse _ fun r =>
    keeps_read marks_coarse _ _ _ (.questionView q r))

end Marks

end BlizzardMock.MockHub.Api
