import BlizzardMock.MockHub.FrameLaws

namespace BlizzardMock.MockHub

open Method

namespace QuestionState

/-- A question stays answered and delivered, with the chunk and the epoch it was asked at. -/
structure Stands (q later : QuestionState) : Prop where
  answered : q.answered = true → later.answered = true
  delivered : q.delivered = true → later.delivered = true
  chunkId : later.chunkId = q.chunkId
  epoch : later.epoch = q.epoch

theorem Stands.refl (q : QuestionState) : q.Stands q := ⟨id, id, rfl, rfl⟩

theorem Stands.trans {q later last : QuestionState} (h : q.Stands later) (h' : later.Stands last) :
    q.Stands last where
  answered := h'.answered ∘ h.answered
  delivered := h'.delivered ∘ h.delivered
  chunkId := h'.chunkId.trans h.chunkId
  epoch := h'.epoch.trans h.epoch

end QuestionState

def Fact.Reasks [Platform] (fact : Fact) (r id : String) : Prop :=
  fact.kind = questionAsked ∧ questionIdOf fact.payload = id ∧ chunkIdOf fact.payload ≠ "" ∧
    (questionOf r fact.payload).isOk = true

namespace MockHubService

def Answers (id : String) (hub later : MockHubService) : Prop :=
  ∀ q, hub.questions.get? id = some q →
    ∃ q', later.questions.get? id = some q' ∧ q.Stands q' ∧ q'.answer = q.answer

section Answers

variable {id : String}

theorem Answers.refl (hub : MockHubService) : Answers id hub hub :=
  fun q held => ⟨q, held, .refl q, rfl⟩

theorem Answers.trans {s t u : MockHubService} (h : Answers id s t) (h' : Answers id t u) :
    Answers id s u := by
  intro q held
  obtain ⟨q₁, held₁, stands₁, same₁⟩ := h q held
  obtain ⟨q₂, held₂, stands₂, same₂⟩ := h' q₁ held₁
  exact ⟨q₂, held₂, stands₁.trans stands₂, same₂.trans same₁⟩

theorem answers_of_questions {hub later : MockHubService} (h : later.questions = hub.questions) :
    Answers id hub later := by
  intro q held
  rw [h]
  exact ⟨q, held, .refl q, rfl⟩

theorem answers_of_put {hub later : MockHubService} {q next : QuestionState}
    (put : later.questions = hub.questions.put next)
    (held : hub.questions.get? next.questionId = some q)
    (stands : q.Stands next) (same : next.answer = q.answer) : Answers id hub later := by
  intro other found
  rw [put, Table.get?_put]
  split
  case isTrue filed =>
    rw [filed, held] at found
    cases found
    exact ⟨next, rfl, stands, same⟩
  case isFalse => exact ⟨other, found, .refl other, rfl⟩

theorem answers_of_put_other {hub later : MockHubService} {next : QuestionState}
    (put : later.questions = hub.questions.put next) (other : next.questionId ≠ id) :
    Answers id hub later := by
  intro q held
  rw [put, Table.get?_put_of_ne other.symm]
  exact ⟨q, held, .refl q, rfl⟩

variable [Platform]

theorem applyAnswerDelivered_answers (payload : List (String × Json)) (hub : MockHubService) :
    Answers id hub (Method.after (applyAnswerDelivered payload) hub) := by
  simp only [applyAnswerDelivered]
  rw [after_bind_of_ok _ rfl]
  change Answers id hub (Method.after _ hub)
  dsimp only
  cases held : hub.questions.get? (questionIdOf payload) with
  | none => exact .refl hub
  | some q =>
    simp only [after_ite]
    split
    · exact .refl hub
    split
    · exact .refl hub
    refine after_bind_of_keeps (f := questions) (o := hub) rfl (fun _ h =>
      answers_of_questions h) ?_
    intro instant t _ same
    rw [← Table.key_of_get? held] at held
    exact answers_of_put (congrArg (Table.put · _) same) held
      ⟨fun h => h, fun _ => rfl, rfl, rfl⟩ rfl

theorem questionOf_filed {r : String} {payload : List (String × Json)} {q : QuestionState}
    (h : questionOf r payload = .ok q) : q.questionId = questionIdOf payload ∧
      q.answered = false := by
  simp only [questionOf] at h
  obtain ⟨_, _, h⟩ := except_bind_ok h
  obtain ⟨_, _, h⟩ := except_bind_ok h
  obtain ⟨_, _, h⟩ := except_bind_ok h
  obtain ⟨_, _, h⟩ := except_bind_ok h
  obtain ⟨_, _, h⟩ := except_bind_ok h
  obtain ⟨_, _, h⟩ := except_bind_ok h
  cases h
  exact ⟨rfl, rfl⟩

theorem applyQuestionAsked_answers (r : String) (payload : List (String × Json))
    (hub : MockHubService)
    (other : questionIdOf payload = id →
      chunkIdOf payload = "" ∨ (questionOf r payload).isOk = false) :
    Answers id hub (Method.after (applyQuestionAsked r payload) hub) := by
  simp only [applyQuestionAsked, after_ite]
  split
  · exact .refl hub
  case isFalse named =>
    rw [after_bind_of_ok _ rfl]
    refine after_bind_of_keeps (f := questions) (o := hub) rfl (fun _ h =>
      answers_of_questions h) ?_
    intro fenced t _ same
    rw [after_ite]
    split
    · exact answers_of_questions same
    refine after_bind_of_keeps (f := questions) (o := hub) same (fun _ h =>
      answers_of_questions h) ?_
    intro q t asked same
    rw [answer_settle] at asked
    refine answers_of_put_other (congrArg (Table.put · q) same) fun filed => ?_
    rw [(questionOf_filed asked).1] at filed
    cases other filed with
    | inl blank => exact named (.inr blank)
    | inr invalid => rw [asked] at invalid; cases invalid

theorem applyFact_answers {r : String} {fact : Fact} (hub : MockHubService)
    (other : ¬ fact.Reasks r id) :
    Answers id hub (Method.after (applyFact r fact.kind fact.payload) hub) := by
  apply applyFact_cases (P := fun m => Answers id hub (Method.after m hub))
  · intro _
    exact answers_of_questions (Keeps.keeps (f := questions) hub)
  · intro _
    exact answers_of_questions (Keeps.keeps (f := questions) hub)
  · intro kind
    apply applyQuestionAsked_answers
    intro named
    cases valid : (questionOf r fact.payload).isOk with
    | false => exact .inr rfl
    | true => exact .inl (not_not.mp fun chunk => other ⟨kind, named, chunk, valid⟩)
  · intro _
    exact applyAnswerDelivered_answers fact.payload hub
  · intro m kept
    exact answers_of_questions (congrArg Work.questions (kept.keeps hub))

theorem ingestFacts_answers {r : String} {facts : List Fact} (hub : MockHubService)
    (other : ∀ fact t, (fact, t) ∈ (factLane r).pushReached facts (hub.factHighWater.getD r 0) hub →
      ¬ fact.Reasks r id) :
    Answers id hub (Method.after (ingestFacts r facts) hub) := by
  simp only [ingestFacts]
  rw [after_bind_of_ok _ rfl]
  have swept := (factLane r).loop_related_of_reached (R := Answers id) .refl .trans
    ((factLane r).sorted facts) { mark := hub.factHighWater.getD r 0 } hub
    fun fact t mem => applyFact_answers t (other fact t mem)
  rw [after_bind]
  split
  · exact swept
  · exact swept

end Answers

/-- No push asks a question over again: none of the facts it reaches does. -/
def KeepsQuestion [Platform] (id : String) (op : Op) (hub : MockHubService) : Prop :=
  match op with
  | .ingestFacts r facts => ∀ fact t,
      (fact, t) ∈ (factLane r).pushReached facts (hub.factHighWater.getD r 0) hub →
        ¬ fact.Reasks r id
  | _ => True

def lastAnswer (id : String) : List Op → Option String → Option String
  | [], answer => answer
  | .answerQuestion q given _ :: ops, answer =>
    lastAnswer id ops (if q = id then some given else answer)
  | _ :: ops, answer => lastAnswer id ops answer

variable [Platform]

theorem questions_next {op : Op} (hub : MockHubService) (h : LeavesLanes op) :
    (hub.next op).questions = hub.questions :=
  congrArg Prod.fst ((keeps_besideChunks op h).keeps hub)

theorem next_questions {op : Op} (hub : MockHubService) (h : match op with
      | .ingestFacts .. | .answerQuestion .. | .reset => False
      | _ => True) : (hub.next op).questions = hub.questions := by
  cases op with
  | ingestFacts => exact h.elim
  | answerQuestion => exact h.elim
  | reset => exact h.elim
  | ingestHostFacts host facts =>
    exact congrArg Work.questions (Keeps.keeps (f := fun hub : MockHubService =>
      hub.work.besideHostMarks) (m := ingestHostFacts host facts) hub)
  | ingestTranscripts r records =>
    exact congrArg Work.questions (Keeps.keeps (f := fun hub : MockHubService => hub.work.fences)
      (m := ingestTranscripts r records) hub)
  | _ => exact questions_next hub trivial

omit [Platform] in
theorem lastAnswer_cons (id : String) (op : Op) (ops : List Op) (answer : Option String) :
    lastAnswer id (op :: ops) answer = lastAnswer id ops (lastAnswer id [op] answer) := by
  cases op <;> rfl

omit [Platform] in
theorem answerQuestion_puts {hub : MockHubService} {named : String} {question : QuestionState}
    (found : hub.questions.get? named = some question) (given actor : String) :
    ∃ row : QuestionState, (Method.after (answerQuestion named given actor) hub).questions =
        hub.questions.put row ∧ row.questionId = named ∧ row.answer = some given ∧
      question.Stands row := by
  simp only [answerQuestion]
  rw [after_bind_of_ok _ rfl, after_bind_of_ok _ (orRaise_ok.mpr found), after_orRaise,
    after_bind_of_ok _ rfl]
  have filed : question.questionId = named := Table.key_of_get? found
  constructor
  constructor
  · rfl
  · exact ⟨filed, rfl, fun _ => rfl, id, rfl, rfl⟩

omit [Platform] in
theorem answerQuestion_stands {id : String} {hub : MockHubService} {q : QuestionState}
    (held : hub.questions.get? id = some q) (named given actor : String) :
    ∃ later, (Method.after (answerQuestion named given actor) hub).questions.get? id = some later ∧
      q.Stands later ∧ later.answer = if named = id then some given else q.answer := by
  cases found : hub.questions.get? named with
  | none =>
    have other : named ≠ id := fun same => by
      rw [same, held] at found
      cases found
    have kept : Method.after (answerQuestion named given actor) hub = hub := by
      simp only [answerQuestion]
      rw [after_bind_of_ok _ rfl]
      change Method.after (orRaise _ (hub.questions.get? named) >>= _) hub = hub
      rw [found]
      rfl
    rw [kept, if_neg other]
    exact ⟨q, held, .refl q, rfl⟩
  | some question =>
    obtain ⟨row, put, filed, answer, stands⟩ := answerQuestion_puts found given actor
    rw [put, Table.get?_put, filed]
    split
    case isTrue same =>
      rw [← same, held] at found
      cases found
      exact ⟨row, rfl, stands, by rw [if_pos same.symm, answer]⟩
    case isFalse other => exact ⟨q, held, .refl q, (if_neg (Ne.symm other)).symm⟩

theorem next_stands {id : String} {op : Op} {hub : MockHubService} {q : QuestionState}
    (held : hub.questions.get? id = some q) (stays : op ≠ .reset)
    (keeps : KeepsQuestion id op hub) :
    ∃ later, (hub.next op).questions.get? id = some later ∧ q.Stands later ∧
      later.answer = lastAnswer id [op] q.answer := by
  cases op with
  | ingestFacts r facts => exact ingestFacts_answers hub keeps q held
  | answerQuestion named given actor => exact answerQuestion_stands held named given actor
  | reset => exact absurd rfl stays
  | _ =>
    rw [next_questions hub trivial]
    exact ⟨q, held, .refl q, rfl⟩

/-- In a run whose pushes ask no question over again, an answered question stays as it is; only an
operator's answer changes what it is answered. -/
theorem answered_question_stands {hub : MockHubService} {id : String} {q : QuestionState}
    (held : hub.questions.get? id = some q) (answered : q.answered = true) {ops : List Op}
    (run : Meets (fun op hub => op ≠ .reset ∧ KeepsQuestion id op hub) ops hub) :
    ∃ later, (after ops hub).questions.get? id = some later ∧ later.answered = true ∧
      q.Stands later ∧ later.answer = lastAnswer id ops q.answer := by
  induction ops generalizing hub q with
  | nil => exact ⟨q, held, answered, .refl q, rfl⟩
  | cons op ops ih =>
    obtain ⟨next, hnext, stands, given⟩ := next_stands held run.1.1 run.1.2
    obtain ⟨later, hlater, answered, stands', last⟩ := ih hnext (stands.answered answered) run.2
    rw [given, ← lastAnswer_cons] at last
    exact ⟨later, hlater, answered, stands.trans stands', last⟩

end MockHubService

section

attribute [local instance] Platform.plain

open MockHubService

def asking (seq : Int) : Fact where
  seq := seq
  kind := questionAsked
  payload := [("chunk_id", .str "c"), ("question_id", .str "q"), ("epoch", .int 1)]

def delivering (seq : Int) : Fact where
  seq := seq
  kind := answerDelivered
  payload := [("chunk_id", .str "c"), ("question_id", .str "q")]

def answeredQuestion : MockHubService :=
  after [.registry (.addRunner "ann" firstTenantId (some "r") (some "t") none none),
    .seedChunk { chunkId := some "c", entry := "build", nodes := .ofList [("build", {})] },
    .ingestFacts "r" [asking 1], .answerQuestion "q" "yes" "bob"] (fresh .still)

theorem asked_again_unanswered :
    answeredQuestion.Reachable ∧
      ((answeredQuestion.questions.get? "q").map fun q => (q.answered, q.answer)) =
        some (true, some "yes") ∧
      (((answeredQuestion.next (.ingestFacts "r" [asking 2])).questions.get? "q").map
        fun q => (q.answered, q.answer)) = some (false, none) := by
  refine ⟨reachable_run _ _, ?_, ?_⟩ <;> rfl

theorem delivering_not_reasks (seq : Int) : ¬ (delivering seq).Reasks "r" "q" := by
  intro asks
  have kind : answerDelivered = questionAsked := asks.1
  exact absurd kind (by decide)

theorem answered_question_stands_delivered :
    ∃ later, (after [.ingestFacts "r" [delivering 2], .ingestFacts "r" [delivering 3]]
        answeredQuestion).questions.get? "q" = some later ∧ later.answered = true ∧
      later.answer = some "yes" := by
  have held : answeredQuestion.questions.get? "q" = some _ := rfl
  have run : Meets (fun op hub => op ≠ .reset ∧ KeepsQuestion "q" op hub)
      [.ingestFacts "r" [delivering 2], .ingestFacts "r" [delivering 3]] answeredQuestion := by
    refine ⟨⟨nofun, ?_⟩, ⟨nofun, ?_⟩, trivial⟩
    · intro fact t mem
      cases List.mem_singleton.mp mem
      exact delivering_not_reasks 2
    · intro fact t mem
      cases List.mem_singleton.mp mem
      exact delivering_not_reasks 3
  obtain ⟨later, found, answered, _, answer⟩ := answered_question_stands held rfl run
  exact ⟨later, found, answered, answer⟩

end

end BlizzardMock.MockHub
