import BlizzardMock.MockHub.ChangeLaws

namespace BlizzardMock.MockHub

open Method MockHubService

namespace Fact

section Shades

variable [Platform]

omit [Platform] in
def mintShade (fact : Fact) (hub : MockHubService) : MockHubService :=
  match hub.chunks.get? (chunkIdOf fact.payload), epochOf fact.payload with
  | some chunk, .ok epoch => { hub with store.chunks := hub.store.chunks.put (chunk.fenced epoch) }
  | _, _ => hub

def questionShade (fact : Fact) (r : String) (hub : MockHubService) : MockHubService :=
  match fact.asks hub, questionOf r fact.payload with
  | true, .ok question => { hub with store.questions := hub.store.questions.put question }
  | _, _ => hub

/-- A hub behind a fact that landed, as far as it bears on how the next ones are judged: a fence
raised, a question asked. -/
def shade (fact : Fact) (r : String) (hub : MockHubService) : MockHubService :=
  if fact.kind = leaseMinted then fact.mintShade hub
  else if fact.kind = escalationRecorded then hub
  else if fact.kind = questionAsked then fact.questionShade r hub
  else hub

def fenceOf (chunk : ChunkState) : Bool × Int := (decide chunk.Ended, chunk.latestEpoch)

def askOf (question : QuestionState) : String × Bool := (question.chunkId, question.answered)

structure Judges (hub other : MockHubService) : Prop where
  runners : hub.store.runners = other.store.runners
  chunks (id : String) : (hub.chunks.get? id).map fenceOf = (other.chunks.get? id).map fenceOf
  questions (id : String) : (hub.questions.get? id).map askOf = (other.questions.get? id).map askOf

omit [Platform] in
theorem alike_of_map {α β : Type} {f : α → β} {x y : Option α} (same : x.map f = y.map f) :
    x = none ∧ y = none ∨ ∃ a b, x = some a ∧ y = some b ∧ f a = f b := by
  cases x with
  | none =>
    cases y with
    | none => exact .inl ⟨rfl, rfl⟩
    | some b => cases same
  | some a =>
    cases y with
    | none => cases same
    | some b => exact .inr ⟨a, b, rfl, rfl, Option.some.inj same⟩

omit [Platform] in
theorem fenceRefusal_isSome {chunk later : ChunkState} (same : fenceOf chunk = fenceOf later)
    (epoch : Int) :
    (chunk.fenceRefusal epoch).isSome = (later.fenceRefusal epoch).isSome := by
  have ended : chunk.Ended ↔ later.Ended := decide_eq_decide.mp (congrArg Prod.fst same)
  have latest : chunk.latestEpoch = later.latestEpoch := congrArg Prod.snd same
  simp only [ChunkState.fenceRefusal, ended, latest]

omit [Platform] in
theorem deliveryRefusal_isSome {question later : QuestionState}
    (same : askOf question = askOf later)
    (chunkId : String) : (question.deliveryRefusal chunkId).isSome =
      (later.deliveryRefusal chunkId).isSome := by
  have chunk : question.chunkId = later.chunkId := congrArg Prod.fst same
  have answered : question.answered = later.answered := congrArg Prod.snd same
  simp only [QuestionState.deliveryRefusal, chunk, answered]
  split
  · rfl
  · split <;> rfl

variable {hub other : MockHubService} {fact : Fact} {r : String}

def Shades (m : HubM Bool) (hub next : MockHubService) : Prop :=
  (answer m hub).isOk = true → Judges (Method.after m hub) next

omit [Platform] in
theorem Shades.ite {c : Prop} [Decidable c] {m n : HubM Bool} {next later : MockHubService}
    (hm : Shades m hub next)
    (hn : Shades n hub later) : Shades (if c then m else n) hub (if c then next else later) := by
  split
  · exact hm
  · exact hn

theorem after_mint_known {chunk : ChunkState} {epoch : Int} {row : RunnerRow}
    (found : hub.chunks.get? (chunkIdOf fact.payload) = some chunk)
    (coerced : epochOf fact.payload = .ok epoch)
    (known : hub.store.runners.get? r = some row) :
    Method.after (applyLeaseMinted r fact.payload) hub =
      Method.after (setBooks fun books => { books with
          epochOwners := books.epochOwners.setdefault (row.tenantId, chunk.chunkId, epoch) r })
        (Method.after (putChunk (chunk.fenced epoch)) hub) := by
  simp only [applyLeaseMinted]
  rw [after_bind_of_ok _ rfl, after_bind_pure]
  change Method.after (whenSome _ (hub.chunks.get? (chunkIdOf fact.payload))) hub = _
  rw [found, coerced]
  exact after_advanceFence_some known chunk epoch

namespace Judges

theorem fenced (judges : Judges hub other) :
    questionFenced hub.store.toHubRows fact.payload =
      questionFenced other.store.toHubRows fact.payload := by
  simp only [questionFenced]
  rcases alike_of_map (judges.chunks (chunkIdOf fact.payload))
      with ⟨none, none'⟩ | ⟨chunk, later, held, there, same⟩
  · rw [none, none']
  · rw [held, there]
    rcases alike_of_map (judges.questions (questionIdOf fact.payload))
        with ⟨none, none'⟩ | ⟨_, _, asked, asked', _⟩
    · rw [none, none']
      simp only [fenceRefusal_isSome same]
    · rw [asked, asked']

theorem escalates (judges : Judges hub other) : fact.escalates hub = fact.escalates other := by
  simp only [Fact.escalates]
  rcases alike_of_map (judges.chunks (chunkIdOf fact.payload))
      with ⟨none, none'⟩ | ⟨chunk, later, held, there, same⟩
  · rw [none, none']
  · rw [held, there]
    simp only [fenceRefusal_isSome same]

theorem delivers (judges : Judges hub other) : fact.delivers hub = fact.delivers other := by
  simp only [Fact.delivers]
  rcases alike_of_map (judges.questions (questionIdOf fact.payload))
      with ⟨none, none'⟩ | ⟨asked, later, held, there, same⟩
  · rw [none, none']
  · rw [held, there]
    simp only [deliveryRefusal_isSome same]

theorem asks (judges : Judges hub other) : fact.asks hub = fact.asks other := by
  simp only [Fact.asks, judges.fenced]

theorem admitted (judges : Judges hub other) : fact.admitted hub = fact.admitted other := by
  simp only [Fact.admitted, judges.escalates, judges.asks, judges.delivers]

theorem lands (judges : Judges hub other) : fact.lands r hub = fact.lands r other := by
  have mint : fact.mintLands r hub = fact.mintLands r other := by
    simp only [mintLands, judges.runners]
    rcases alike_of_map (judges.chunks (chunkIdOf fact.payload))
        with ⟨none, none'⟩ | ⟨_, _, held, there, _⟩
    · rw [none, none']
    · rw [held, there]
  have escalation : fact.escalationLands hub = fact.escalationLands other := by
    simp only [escalationLands]
    rcases alike_of_map (judges.chunks (chunkIdOf fact.payload))
        with ⟨none, none'⟩ | ⟨_, _, held, there, _⟩
    · rw [none, none']
    · rw [held, there]
  have question : fact.questionLands r hub = fact.questionLands r other := by
    simp only [questionLands, judges.fenced]
  simp only [Fact.lands, mint, escalation, question]

omit [Platform] in
theorem of_rows {later : MockHubService} (judges : Judges hub other)
    (same : later.rows = hub.rows) :
    Judges later other := by
  have rows : later.store.toHubRows = hub.store.toHubRows := congrArg Prod.fst same
  have chunks : later.chunks = hub.chunks := congrArg HubRows.chunks rows
  have questions : later.questions = hub.questions := congrArg HubRows.questions rows
  refine ⟨?_, fun id => ?_, fun id => ?_⟩
  · rw [rows]
    exact judges.runners
  · rw [chunks]
    exact judges.chunks id
  · rw [questions]
    exact judges.questions id

omit [Platform] in
theorem put_chunk {later next : MockHubService} (judges : Judges hub other) (chunk row : ChunkState)
    (runners : later.store.runners = next.store.runners)
    (questions : later.questions = hub.questions) (questions' : next.questions = other.questions)
    (put : later.chunks = hub.chunks.put chunk) (put' : next.chunks = other.chunks.put row)
    (filed : chunk.chunkId = row.chunkId) (same : fenceOf chunk = fenceOf row) :
    Judges later next := by
  refine ⟨runners, fun id => ?_, fun id => ?_⟩
  · rw [put, put', Table.get?_put, Table.get?_put, filed]
    split
    case isTrue => exact congrArg some same
    case isFalse => exact judges.chunks id
  · rw [questions, questions']
    exact judges.questions id

omit [Platform] in
theorem keep (judges : Judges hub other) (m : HubM Bool) [Keeps rows m] : Shades m hub other :=
  fun _ => judges.of_rows (Keeps.keeps hub)

theorem mint (judges : Judges hub other) :
    Shades (applyLeaseMinted r fact.payload) hub (fact.mintShade other) := by
  intro landed
  rw [lands_mint] at landed
  simp only [mintLands] at landed
  simp only [mintShade]
  rcases alike_of_map (judges.chunks (chunkIdOf fact.payload))
      with ⟨none, none'⟩ | ⟨chunk, row, filed, there, same⟩
  · rw [none']
    simp only [applyLeaseMinted]
    rw [after_bind_of_ok _ rfl, after_bind_pure]
    change Judges (Method.after (whenSome _ (hub.chunks.get? (chunkIdOf fact.payload))) hub) other
    rw [none]
    exact judges
  · rw [filed, Bool.and_eq_true] at landed
    obtain ⟨coerced, known⟩ := landed
    obtain ⟨runner, known⟩ := Option.isSome_iff_exists.mp known
    rw [there]
    cases minted : epochOf fact.payload with
    | error e =>
      rw [minted] at coerced
      cases coerced
    | ok epoch =>
      have left := after_mint_known filed minted known
      refine judges.put_chunk (chunk.fenced epoch) (row.fenced epoch) ?_ ?_ rfl ?_ rfl ?_ ?_
      · rw [left]
        exact judges.runners
      · rw [left]
        rfl
      · rw [left]
        rfl
      · exact (Table.key_of_get? filed).trans (Table.key_of_get? there).symm
      · have ended : decide chunk.Ended = decide row.Ended := congrArg Prod.fst same
        have latest : chunk.latestEpoch = row.latestEpoch := congrArg Prod.snd same
        exact Prod.ext ended (congrArg (max · epoch) latest)

theorem escalation (judges : Judges hub other) :
    Shades (applyEscalationRecorded fact.payload) hub other := by
  intro landed
  simp only [applyEscalationRecorded] at landed ⊢
  rw [answer_bind_of_ok _ rfl] at landed
  rw [after_bind_of_ok _ rfl]
  dsimp only at landed ⊢
  cases found : hub.chunks.get? (chunkIdOf fact.payload) with
  | none => exact judges
  | some chunk =>
    rw [found] at landed
    dsimp only at landed ⊢
    cases coerced : epochOf fact.payload with
    | error e =>
      rw [coerced] at landed
      cases landed
    | ok epoch =>
      rw [after_bind_of_ok _ rfl]
      split
      case isTrue => exact judges
      case isFalse =>
        have filed := Table.key_of_get? found
        rw [← filed] at found
        refine ⟨judges.runners, fun id => ?_, judges.questions⟩
        let escalated : ChunkState :=
          { chunk with escalation := some (escalationOf fact.payload epoch) }
        exact (Table.map_get?_put found escalated rfl rfl id).trans (judges.chunks id)

theorem question (judges : Judges hub other) :
    Shades (applyQuestionAsked r fact.payload) hub (fact.questionShade r other) := by
  have asked : fact.asks other = fact.asks hub := judges.asks.symm
  simp only [applyQuestionAsked, questionShade, asked]
  simp only [Fact.asks]
  split
  case isTrue => exact fun _ => judges
  case isFalse =>
    intro landed
    rw [answer_bind_of_ok _ rfl] at landed
    rw [after_bind_of_ok _ rfl]
    change (answer (settle (questionFenced hub.store.toHubRows fact.payload) >>= _) hub).isOk =
      true at landed
    change Judges (Method.after
      (settle (questionFenced hub.store.toHubRows fact.payload) >>= _) hub) _
    cases judged : questionFenced hub.store.toHubRows fact.payload with
    | error e =>
      rw [judged] at landed
      cases landed
    | ok fenced =>
      rw [after_bind_of_ok _ rfl]
      cases fenced with
      | true => exact judges
      | false =>
        cases described : questionOf r fact.payload with
        | error e => exact judges
        | ok question =>
          refine ⟨judges.runners, judges.chunks, fun id => ?_⟩
          change ((hub.questions.put question).get? id).map askOf =
            ((other.questions.put question).get? id).map askOf
          rw [Table.get?_put, Table.get?_put]
          split
          case isTrue => rfl
          case isFalse => exact judges.questions id

theorem delivery (judges : Judges hub other) :
    Shades (applyAnswerDelivered fact.payload) hub other := by
  intro _
  simp only [applyAnswerDelivered]
  rw [after_bind_of_ok _ rfl]
  dsimp only
  cases found : hub.questions.get? (questionIdOf fact.payload) with
  | none => exact judges
  | some question =>
    dsimp only
    split
    case isTrue => exact judges
    case isFalse =>
      split
      case isTrue => exact judges
      case isFalse =>
        have filed := Table.key_of_get? found
        refine ⟨judges.runners, judges.chunks, fun id => ?_⟩
        rw [← filed] at found
        let delivered : QuestionState :=
          { question with delivered := true, deliveredAt := hub.sources.clock.head.isoformat }
        exact (Table.map_get?_put found delivered rfl rfl id).trans (judges.questions id)

theorem step (judges : Judges hub other) :
    Shades (applyFact r fact.kind fact.payload) hub (fact.shade r other) := by
  simp only [applyFact, shade]
  apply judges.mint.ite
  apply judges.escalation.ite
  apply judges.question.ite
  split
  case isTrue => exact judges.delivery
  case isFalse => exact judges.keep _

end Judges

end Shades

end Fact

section Sheltered

variable [Platform]

def Fact.markBehind (fact : Fact) (mark : Int) (hub : MockHubService) : Int :=
  if fact.admitted hub then max mark fact.seq else mark

def AllLand (r : String) : List Fact → Int → MockHubService → Prop
  | [], _, _ => True
  | fact :: rest, mark, hub =>
    if fact.seq ≤ mark then AllLand r rest mark hub
    else fact.lands r hub ∧ AllLand r rest (fact.markBehind mark hub) (fact.shade r hub)

/-- Of facts in the order they are taken, none past the mark writes ahead of one that does not land,
nor does that one mint half a lease. -/
def Sheltered (r : String) : List Fact → Int → MockHubService → Prop
  | [], _, _ => True
  | fact :: rest, mark, hub =>
    if fact.seq ≤ mark then Sheltered r rest mark hub
    else if fact.lands r hub then
      (fact.Writes r hub → AllLand r rest (fact.markBehind mark hub) (fact.shade r hub)) ∧
        (¬fact.Writes r hub → Sheltered r rest (fact.markBehind mark hub) hub)
    else ¬fact.HalfMints r hub

variable {r : String} {fact : Fact} {hub : MockHubService}

omit [Platform] in
theorem error_of_not_isOk {α : Type} {x : Except HubError α} (h : ¬x.isOk = true) :
    ∃ e, x = .error e := by
  cases x with
  | ok a => exact absurd rfl h
  | error e => exact ⟨e, rfl⟩

section Loop

variable {lane : Lane} (rest : List Fact)

theorem run_loop_of_seen (seen : fact.seq ≤ lane.mark) (s : MockHubService) :
    ((factLane r).loop (fact :: rest) lane).run s =
      ((factLane r).loop rest (lane.skip fact.seq)).run s := by
  rw [Lane.Rule.loop]
  exact congrArg (EStateM.run · s) (if_pos seen)

theorem run_loop_of_lands (new : ¬fact.seq ≤ lane.mark) (lands : fact.lands r hub = true) :
    ((factLane r).loop (fact :: rest) lane).run hub =
      ((factLane r).loop rest (lane.judged max fact.seq (fact.admitted hub))).run
        (Method.after (applyFact r fact.kind fact.payload) hub) := by
  rw [Lane.Rule.loop]
  refine (congrArg (EStateM.run · hub) (if_neg new)).trans ?_
  apply run_bind_of_run
  change (applyFact r fact.kind fact.payload).run hub = _
  rw [run_eq, Fact.judged_of_lands lands]

theorem loop_of_falls (new : ¬fact.seq ≤ lane.mark) (falls : fact.lands r hub = false) :
    (∃ e, answer ((factLane r).loop (fact :: rest) lane) hub = .error e) ∧
      Method.after ((factLane r).loop (fact :: rest) lane) hub =
        Method.after (applyFact r fact.kind fact.payload) hub := by
  obtain ⟨e, fell⟩ := Fact.raised_of_falls falls
  rw [Lane.Rule.loop, answer_ite, after_ite]
  constructor
  · exact ⟨e, (if_neg new).trans (answer_bind_of_error _ fell _)⟩
  · exact (if_neg new).trans (after_bind_of_error _ fell _)

theorem reached_of_seen (seen : fact.seq ≤ lane.mark) (s : MockHubService) :
    (factLane r).reached (fact :: rest) lane s = (factLane r).reached rest
      (lane.skip fact.seq) s := by
  rw [Lane.Rule.reached]
  exact if_pos seen

theorem head_mem_reached (new : ¬fact.seq ≤ lane.mark) (s : MockHubService) :
    (fact, s) ∈ (factLane r).reached (fact :: rest) lane s := by
  rw [Lane.Rule.reached]
  exact (if_neg new).symm ▸ List.mem_cons_self

theorem mem_reached_of_lands (new : ¬fact.seq ≤ lane.mark) (lands : fact.lands r hub = true)
    {judged : Fact × MockHubService} (mem : judged ∈
      (factLane r).reached rest (lane.judged max fact.seq (fact.admitted hub))
        (Method.after (applyFact r fact.kind fact.payload) hub)) :
    judged ∈ (factLane r).reached (fact :: rest) lane hub := by
  have answered : answer ((factLane r).judge fact) hub = .ok (fact.admitted hub) :=
    Fact.judged_of_lands lands
  rw [Lane.Rule.reached, answered]
  exact (if_neg new).symm ▸ List.mem_cons_of_mem _ mem

theorem mark_judged (lane : Lane) {other : MockHubService} (judges : Fact.Judges hub other) :
    (lane.judged max fact.seq (fact.admitted hub)).mark = fact.markBehind lane.mark other := by
  rw [Fact.markBehind, ← judges.admitted]
  cases fact.admitted hub <;> rfl

end Loop

theorem loop_isOk_iff {other : MockHubService} (facts : List Fact) (lane : Lane)
    (judges : Fact.Judges hub other) :
    (answer ((factLane r).loop facts lane) hub).isOk = true ↔ AllLand r facts lane.mark other := by
  induction facts generalizing lane hub other with
  | nil => exact iff_of_true rfl trivial
  | cons fact rest ih =>
    rw [AllLand]
    split
    case isTrue seen =>
      rw [answer_of_run (run_loop_of_seen rest seen hub)]
      exact ih _ judges
    case isFalse new =>
      rw [← judges.lands]
      cases lands : fact.lands r hub with
      | false =>
        obtain ⟨⟨e, raised⟩, _⟩ := loop_of_falls rest new lands
        rw [raised]
        exact iff_of_false Bool.false_ne_true fun all => Bool.false_ne_true all.1
      | true =>
        have kept := judges.step (congrArg Except.isOk (Fact.judged_of_lands lands))
        rw [answer_of_run (run_loop_of_lands rest new lands), ih _ kept, mark_judged lane judges]
        exact (and_iff_right rfl).symm

omit [Platform] in
theorem of_held {t : MockHubService} (same : t.held = hub.held) :
    ∃ sources, t = { hub with sources := sources } := by
  refine ⟨t.sources, ?_⟩
  cases t
  cases hub
  cases same
  rfl

omit [Platform] in
theorem judges_sources (hub : MockHubService) (sources : Sources) :
    Fact.Judges { hub with sources := sources } hub :=
  ⟨rfl, fun _ => rfl, fun _ => rfl⟩

theorem held_of_idle (lands : fact.lands r hub = true) (idle : ¬fact.Writes r hub) :
    (Method.after (applyFact r fact.kind fact.payload) hub).held = hub.held := by
  have dated : ¬fact.Stampless := fun stampless => idle (Fact.writes_of_stampless stampless)
  have landed := congrArg Except.isOk (Fact.judged_of_lands lands)
  exact not_not.mp (mt (Fact.alters_applyFact dated landed).mp idle)

theorem Sheltered.held_of_raise (facts : List Fact) (lane : Lane) (sources : Sources)
    (sheltered : Sheltered r facts lane.mark hub) {e : HubError}
    (raised : answer ((factLane r).loop facts lane) { hub with sources := sources } = .error e) :
    (Method.after ((factLane r).loop facts lane) { hub with sources := sources }).held =
      hub.held := by
  induction facts generalizing lane sources with
  | nil => cases raised
  | cons fact rest ih =>
    rw [Sheltered] at sheltered
    by_cases seen : fact.seq ≤ lane.mark
    · rw [if_pos seen] at sheltered
      have skipped := run_loop_of_seen (r := r) rest seen { hub with sources := sources }
      rw [answer_of_run skipped] at raised
      rw [after_of_run skipped]
      exact ih _ sources sheltered raised
    rw [if_neg seen] at sheltered
    have judges := judges_sources hub sources
    cases lands : fact.lands r { hub with sources := sources } with
    | true =>
      have stepped := run_loop_of_lands rest seen lands
      rw [← judges.lands, if_pos lands, ← mark_judged lane judges] at sheltered
      rw [answer_of_run stepped] at raised
      rw [after_of_run stepped]
      by_cases writes : fact.Writes r hub
      · have kept := judges.step (congrArg Except.isOk (Fact.judged_of_lands lands))
        have answered := (loop_isOk_iff rest _ kept).mpr (sheltered.1 writes)
        rw [raised] at answered
        cases answered
      · obtain ⟨later, left⟩ := of_held (held_of_idle lands writes)
        rw [left] at raised ⊢
        exact ih _ later (sheltered.2 writes) raised
    | false =>
      rw [← judges.lands, if_neg (Bool.eq_false_iff.mp lands)] at sheltered
      rw [(loop_of_falls rest seen lands).2]
      exact Fact.raise_keeps lands sheltered

theorem writes_of_not_sheltered (facts : List Fact) (lane : Lane) (sources : Sources)
    (bare : ¬Sheltered r facts lane.mark hub) :
    (∃ e, answer ((factLane r).loop facts lane) { hub with sources := sources } = .error e) ∧
      ∃ fact t, (fact, t) ∈ (factLane r).reached facts lane { hub with sources := sources } ∧
        (fact.Stampless ∨ (Method.after (applyFact r fact.kind fact.payload) t).held ≠ t.held) := by
  induction facts generalizing lane sources with
  | nil => exact absurd trivial bare
  | cons fact rest ih =>
    rw [Sheltered] at bare
    by_cases seen : fact.seq ≤ lane.mark
    · rw [if_pos seen] at bare
      rw [answer_of_run (run_loop_of_seen (r := r) rest seen _), reached_of_seen rest seen]
      exact ih _ sources bare
    rw [if_neg seen] at bare
    have judges := judges_sources hub sources
    have met := head_mem_reached (r := r) rest seen { hub with sources := sources }
    cases lands : fact.lands r { hub with sources := sources } with
    | true =>
      have judged := Fact.judged_of_lands lands
      rw [← judges.lands, if_pos lands, ← mark_judged lane judges, not_and_or, Classical.not_imp,
        Classical.not_imp] at bare
      rw [answer_of_run (run_loop_of_lands rest seen lands)]
      rcases bare with ⟨writes, falls⟩ | ⟨idle, bare⟩
      · rw [← loop_isOk_iff rest _ (judges.step (congrArg Except.isOk judged))] at falls
        refine ⟨?_, fact, _, met, or_iff_not_imp_left.mpr fun dated => ?_⟩
        · exact error_of_not_isOk falls
        · exact (Fact.alters_applyFact dated (congrArg Except.isOk judged)).mpr writes
      · obtain ⟨later, left⟩ := of_held (held_of_idle lands idle)
        obtain ⟨raised, other, t, mem, wrote⟩ := ih _ later bare
        rw [← left] at raised mem
        exact ⟨raised, other, t, mem_reached_of_lands rest seen lands mem, wrote⟩
    | false =>
      rw [← judges.lands, if_neg (Bool.eq_false_iff.mp lands), not_not] at bare
      refine ⟨(loop_of_falls rest seen lands).1, fact, _, met, .inr ?_⟩
      exact Fact.mint_raises_epoch (pushes_refl _) bare

end Sheltered

namespace MockHubService

variable [Platform]

theorem after_ingestFacts_of_raise {hub : MockHubService} {r : String} {facts : List Fact}
    {e : HubError}
    (raised : answer ((factLane r).push facts (hub.factHighWater.getD r 0)) hub = .error e) :
    Method.after (ingestFacts r facts) hub =
      Method.after ((factLane r).push facts (hub.factHighWater.getD r 0)) hub := by
  simp only [ingestFacts]
  rw [after_bind_of_ok _ rfl]
  exact after_bind_of_error _ raised _

/-- A push of facts that raises leaves the hub as it was, wherever no fact past the mark writes
ahead of one that does not land, nor mints half a lease; any other push raises, and behind a
judgement that wrote. -/
theorem ingestFacts_atomic (hub : MockHubService) (r : String) (facts : List Fact) :
    (Sheltered r ((factLane r).sorted facts) (hub.factHighWater.getD r 0) hub →
      ∀ e, answer (ingestFacts r facts) hub = .error e →
        (Method.after (ingestFacts r facts) hub).held = hub.held) ∧
    (¬Sheltered r ((factLane r).sorted facts) (hub.factHighWater.getD r 0) hub →
      (∃ e, answer (ingestFacts r facts) hub = .error e) ∧
        ∃ fact t, (fact, t) ∈ (factLane r).pushReached facts (hub.factHighWater.getD r 0) hub ∧
          (fact.Stampless ∨ (Method.after (applyFact r fact.kind fact.payload) t).held ≠
            t.held)) := by
  rw [answer_ingestFacts]
  constructor
  · intro sheltered e raised
    cases pushed : answer ((factLane r).push facts (hub.factHighWater.getD r 0)) hub with
    | ok lane =>
      rw [pushed] at raised
      cases raised
    | error e =>
      rw [after_ingestFacts_of_raise pushed]
      exact sheltered.held_of_raise _ { mark := hub.factHighWater.getD r 0 } hub.sources pushed
  · intro bare
    obtain ⟨⟨e, raised⟩, wrote⟩ :=
      writes_of_not_sheltered _ { mark := hub.factHighWater.getD r 0 } hub.sources bare
    change answer ((factLane r).push facts (hub.factHighWater.getD r 0)) hub = .error e at raised
    rw [raised]
    exact ⟨⟨e, rfl⟩, wrote⟩

end MockHubService

/-! A batch that mints a lease and then names an epoch that is no number. -/

section

attribute [local instance] Platform.plain

open MockHubService

def seededRunner : MockHubService :=
  after [.registry (.addRunner "ann" firstTenantId (some "r") (some "t") none none),
    .seedChunk { chunkId := some "c", entry := "build", nodes := .ofList [("build", {})] }]
      (fresh .still)

def halfBatch : List Fact :=
  [{ seq := 1, kind := leaseMinted, payload := [("chunk_id", .str "c"), ("epoch", .int 1)] },
    { seq := 2, kind := escalationRecorded,
      payload := [("chunk_id", .str "c"), ("epoch", .str "abc")] }]

theorem raising_push_writes :
    seededRunner.Reachable ∧
      (∃ e, answer (ingestFacts "r" halfBatch) seededRunner = .error e) ∧
      (seededRunner.chunks.get? "c").map (·.latestEpoch) = some 0 ∧
      ((seededRunner.next (.ingestFacts "r" halfBatch)).chunks.get? "c").map
        (·.latestEpoch) = some 1 ∧
      (seededRunner.next (.ingestFacts "r" halfBatch)).factHighWater.getD "r" 0 = 0 :=
  ⟨reachable_run _ _, ⟨_, rfl⟩, rfl, rfl, rfl⟩

/-- The fact ahead of the one that raises escalates a chunk that is not there. -/
def idleBatch : List Fact :=
  [{ seq := 1, kind := escalationRecorded, payload := [("chunk_id", .str "x"), ("epoch", .int 1)] },
    { seq := 2, kind := escalationRecorded,
      payload := [("chunk_id", .str "c"), ("epoch", .str "abc")] }]

theorem ingestFacts_atomic_idle :
    (∃ e, answer (ingestFacts "r" idleBatch) seededRunner = .error e) ∧
      (Method.after (ingestFacts "r" idleBatch) seededRunner).held = seededRunner.held := by
  obtain ⟨e, raised⟩ : ∃ e, answer (ingestFacts "r" idleBatch) seededRunner = .error e := ⟨_, rfl⟩
  refine ⟨⟨e, raised⟩, (ingestFacts_atomic seededRunner "r" idleBatch).1 ?_ e raised⟩
  change Sheltered "r" idleBatch 0 seededRunner
  simp only [idleBatch, Sheltered]
  refine ⟨fun writes => ?_, fun _ => ?_⟩
  · obtain ⟨chunk, _, found, _⟩ := writes
    cases found
  · intro half
    exact absurd half.1 (by decide)

end

end BlizzardMock.MockHub
