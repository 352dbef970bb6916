import BlizzardMock.Harness.OpenCode2.InterruptLaws

namespace BlizzardMock.OpenCode2

theorem countP_eraseP {α : Type} {p q : α → Bool} {l : List α} {a : α}
    (first : l.find? q = some a) :
    l.countP p = (l.eraseP q).countP p + if p a then 1 else 0 := by
  induction l with
  | nil => cases first
  | cons b rest ih =>
    rw [List.find?_cons] at first
    split at first
    case h_1 here =>
      cases first
      rw [List.eraseP_cons_of_pos here, List.countP_cons]
    case h_2 away =>
      rw [List.eraseP_cons_of_neg (by simp [away]), List.countP_cons, List.countP_cons, ih first]
      omega

theorem eq_of_countP_le_one {α : Type} {p : α → Bool} {l : List α} {a b : α} (le : l.countP p ≤ 1)
    (a_mem : a ∈ l) (a_p : p a = true) (b_mem : b ∈ l) (b_p : p b = true) : a = b := by
  rw [List.countP_eq_length_filter] at le
  have a_in := List.mem_filter.mpr ⟨a_mem, a_p⟩
  have b_in := List.mem_filter.mpr ⟨b_mem, b_p⟩
  generalize l.filter p = kept at le a_in b_in
  match kept, le with
  | [only], _ => rw [List.mem_singleton.mp a_in, List.mem_singleton.mp b_in]

/-- What a session accepts: a prompt, a steer or a compaction, or the result of a child. -/
inductive Request
  | queued (item : Item)
  | heard (entry : Entry)

namespace Request

def ticket : Request → Nat
  | .queued item => item.ticket
  | .heard entry => entry.ticket

def message : Request → Message
  | .queued item =>
    if item.kind = .compact then .compaction item.ticket else .user item.text item.ticket
  | .heard entry => .synthetic entry

end Request

def Message.starts (ticket : Nat) : Message → Bool
  | .user _ started => started = ticket
  | .synthetic entry => entry.ticket = ticket
  | .compaction started => started = ticket
  | .idle _ _ => false

def Worker.inHand (ticket : Nat) : Worker → Nat
  | .taken item => if item.ticket = ticket then 1 else 0
  | .compacting held | .summarizing held => if held = ticket then 1 else 0
  | _ => 0

theorem inHand_back {ticket : Nat} (top : Prop) [Decidable top] :
    (if top then Worker.looping else .settling).inHand ticket = 0 := by
  split <;> rfl

namespace Session

variable {session later : Session} {stored : String → Bool} {request ticket : Nat} {step : Section}

def requests (session : Session) : List Request :=
  session.pending.map .queued ++ session.inbox.map .heard

def waiting (session : Session) (ticket : Nat) : Nat := session.requests.countP (·.ticket = ticket)

def started (session : Session) (ticket : Nat) : Nat := session.messages.countP (·.starts ticket)

def Serves (session : Session) (ticket : Nat) : Prop :=
  (∃ stage, session.worker = .turn ticket stage) ∨ ∃ outcome,
    .idle outcome ticket ∈ session.messages

/-- A step that loses a request: an interrupted turn's idle empties the queue, or a compaction meets
the flag. -/
def Drops (session : Session) (step : Section) (ticket : Nat) : Prop :=
  match session.worker, step with
  | .turn _ (.ending .interrupted), .idle => session.pending ≠ []
  | .compacting held, .wait => held = ticket ∧ session.cancel = true
  | _, _ => False

theorem waiting_eq : session.waiting ticket =
    session.pending.countP (·.ticket = ticket) + session.inbox.countP (·.ticket = ticket) := by
  simp only [waiting, requests, List.countP_append, List.countP_map]
  rfl

theorem requests_subset (pending : later.pending ⊆ session.pending)
    (inbox : later.inbox ⊆ session.inbox) :
    later.requests ⊆ session.requests := by
  intro accepted mem
  cases List.mem_append.mp mem with
  | inl queued => exact List.mem_append_left _ (List.map_subset _ pending queued)
  | inr heard => exact List.mem_append_right _ (List.map_subset _ inbox heard)

theorem Acts.tally (acts : session.Acts stored request step later)
    (keeps : ¬ session.Drops step ticket) :
    later.waiting ticket + later.worker.inHand ticket + later.started ticket =
      session.waiting ticket + session.worker.inHand ticket + session.started ticket := by
  cases acts with
  | elsewhere => rfl
  | took place first =>
    simp only [waiting_eq, Worker.inHand, started, place, first, List.countP_cons,
      decide_eq_true_eq]
    omega
  | tookCompaction place first =>
    simp only [waiting_eq, Worker.inHand, started, place, first, List.countP_cons,
      decide_eq_true_eq]
    omega
  | opened place =>
    simp only [waiting_eq, Worker.inHand, started, place, List.countP_append, List.countP_singleton,
      Message.starts, decide_eq_true_eq]
    omega
  | steered place first =>
    simp only [waiting_eq, Worker.inHand, started, place, countP_eraseP first, decide_eq_true_eq]
    omega
  | @stopped held place flag =>
    have other : held ≠ ticket := by
      rintro rfl
      exact keeps (by simp [Drops, place, flag])
    simp [waiting_eq, Worker.inHand, started, place, other]
  | compacted place =>
    simp only [waiting_eq, Worker.inHand, started, place, List.countP_append, List.countP_singleton,
      Message.starts, decide_eq_true_eq]
    omega
  | delivered place first =>
    simp only [waiting_eq, Worker.inHand, started, place, first, List.countP_append,
      List.countP_cons,
      List.countP_nil, Message.starts, decide_eq_true_eq]
    omega
  | @idled _ outcome place =>
    have emptied : (if outcome = .interrupted then [] else session.pending) = session.pending := by
      split
      case isTrue broken =>
        subst broken
        simpa [Drops, place, eq_comm] using keeps
      case isFalse => rfl
    simp only [waiting_eq, started, emptied, inHand_back]
    simp [place, Worker.inHand, List.countP_append, Message.starts]
  | _ => simp [waiting_eq, Worker.inHand, started, *]

theorem serves_begun {held : Nat} {stage : Stage} (begun : later.worker = .turn held stage)
    (ended : ∀ outcome, .idle outcome ticket ∈ later.messages →
      .idle outcome ticket ∈ session.messages)
    (serves : later.Serves ticket) : session.Serves ticket ∨ held = ticket := by
  cases serves with
  | inl turn =>
    obtain ⟨stage', turn⟩ := turn
    cases begun.symm.trans turn
    exact .inr rfl
  | inr before =>
    obtain ⟨outcome, mem⟩ := before
    exact .inl (.inr ⟨outcome, ended outcome mem⟩)

theorem serves_before (serves : later.Serves ticket)
    (off : ∀ held stage, later.worker ≠ .turn held stage)
    (same : later.messages = session.messages) : session.Serves ticket := by
  cases serves with
  | inl turn =>
    obtain ⟨stage, turn⟩ := turn
    exact absurd turn (off ticket stage)
  | inr before => exact .inr (same ▸ before)

theorem Acts.opens (acts : session.Acts stored request step later) (ticket : Nat) :
    later.waiting ticket + later.worker.inHand ticket ≤
      session.waiting ticket + session.worker.inHand ticket ∧
      (later.Serves ticket → session.Serves ticket ∨
        later.waiting ticket + later.worker.inHand ticket <
          session.waiting ticket + session.worker.inHand ticket) := by
  cases acts with
  | elsewhere => exact ⟨Nat.le_refl _, .inl⟩
  | took place first =>
    simp only [waiting_eq, Worker.inHand, place, first, List.countP_cons, decide_eq_true_eq]
    exact ⟨by omega, fun serves => .inl (serves_before serves (by simp) rfl)⟩
  | tookCompaction place first =>
    simp only [waiting_eq, Worker.inHand, place, first, List.countP_cons, decide_eq_true_eq]
    exact ⟨by omega, fun serves => .inl (serves_before serves (by simp) rfl)⟩
  | opened place =>
    simp only [waiting_eq, Worker.inHand, place]
    refine ⟨by omega, fun serves => ?_⟩
    refine (serves_begun rfl (by simp) serves).imp_right ?_
    rintro rfl
    simp
  | steered place first =>
    simp only [waiting_eq, Worker.inHand, place, countP_eraseP first, decide_eq_true_eq]
    exact ⟨by omega, fun serves => .inl (serves_before serves (by simp) rfl)⟩
  | stopped place =>
    simp only [waiting_eq, Worker.inHand, place]
    refine ⟨by omega, fun serves => ?_⟩
    refine (serves_begun rfl (by simp) serves).imp_right ?_
    rintro rfl
    simp
  | compacted place =>
    simp only [waiting_eq, Worker.inHand, place]
    refine ⟨by omega, fun serves => ?_⟩
    refine (serves_begun rfl (by simp) serves).imp_right ?_
    rintro rfl
    simp
  | delivered place first =>
    simp only [waiting_eq, Worker.inHand, place, first, List.countP_cons, decide_eq_true_eq]
    refine ⟨by omega, fun serves => ?_⟩
    refine (serves_begun rfl (by simp) serves).imp_right ?_
    rintro rfl
    simp
  | declined place =>
    simp only [waiting_eq, Worker.inHand, place]
    exact ⟨Nat.le_refl _, fun serves => .inl (serves_before serves (by simp) rfl)⟩
  | @idled held outcome place =>
    simp only [waiting_eq, inHand_back]
    constructor
    · split
      case isTrue => simp [Worker.inHand, place]
      case isFalse => simp [Worker.inHand, place]
    · rintro (⟨stage, turn⟩ | ⟨other, mem⟩)
      · dsimp only at turn
        split at turn <;> cases turn
      · refine .inl ?_
        cases List.mem_append.mp mem with
        | inl before => exact .inr ⟨other, before⟩
        | inr now =>
          cases List.mem_singleton.mp now
          exact .inl ⟨_, place⟩
  | _ => simp [waiting_eq, Worker.inHand, Serves, *]

structure Accounted (session : Session) (tickets : Nat) : Prop where
  sound : session.Sound
  once : ∀ ticket,
    session.waiting ticket + session.worker.inHand ticket + session.started ticket ≤ 1
  fresh : ∀ ticket, tickets ≤ ticket →
    session.waiting ticket + session.worker.inHand ticket + session.started ticket = 0 ∧
      ¬ session.Serves ticket
  closed : ∀ ticket, session.Serves ticket →
    session.waiting ticket + session.worker.inHand ticket = 0

theorem Acts.started_le (acts : session.Acts stored request step later) (ticket : Nat) :
    later.waiting ticket + later.worker.inHand ticket + later.started ticket ≤
      session.waiting ticket + session.worker.inHand ticket + session.started ticket := by
  by_cases drops : session.Drops step ticket
  case neg => exact Nat.le_of_eq (acts.tally drops)
  case pos =>
    have opens := (acts.opens ticket).1
    have same : later.started ticket = session.started ticket := by
      cases acts with
      | idled place => simp [started, Message.starts]
      | stopped place => rfl
      | elsewhere => rfl
      | _ => simp [Drops, *] at drops
    omega

theorem Accounted.acts {tickets : Nat} (accounted : session.Accounted tickets)
    (acts : session.Acts stored request step later) : later.Accounted tickets := by
  have closed : ∀ ticket, later.Serves ticket →
    later.waiting ticket + later.worker.inHand ticket = 0 := by
    intro ticket serves
    have opens := acts.opens ticket
    have once := accounted.once ticket
    cases opens.2 serves with
    | inl before =>
      have closed := accounted.closed ticket before
      omega
    | inr less => omega
  refine ⟨acts.sound accounted.sound, ?_, ?_, closed⟩
  · exact fun ticket => Nat.le_trans (acts.started_le ticket) (accounted.once ticket)
  · intro ticket new
    obtain ⟨none', unserved⟩ := accounted.fresh ticket new
    have le := acts.started_le ticket
    refine ⟨by omega, ?_⟩
    intro serves
    cases (acts.opens ticket).2 serves with
    | inl before => exact unserved before
    | inr less => omega

def Wakes (session later : Session) : Prop :=
  later.worker = session.worker ∨ session.worker = .absent ∧ later.worker = .looping

theorem Wakes.inHand (wakes : session.Wakes later) (ticket : Nat) :
    later.worker.inHand ticket = session.worker.inHand ticket := by
  cases wakes with
  | inl same => rw [same]
  | inr up => rw [up.1, up.2]; rfl

theorem Wakes.serves (wakes : session.Wakes later) (same : later.messages = session.messages)
    (serves : later.Serves ticket) : session.Serves ticket := by
  cases wakes with
  | inl here => simpa only [Serves, here, same] using serves
  | inr up => exact serves_before serves (by simp [up.2]) same

theorem Sound.wakes (sound : session.Sound) : session.Wakes session.start := by
  rw [Session.start]
  split
  case isTrue => exact .inl rfl
  case isFalse idle => exact .inr ⟨by_contra fun up => idle (sound.live up), rfl⟩

theorem Accounted.restock {tickets drawn : Nat} (accounted : session.Accounted tickets)
    (sound : later.Sound) (wakes : session.Wakes later) (same : later.messages = session.messages)
    (le : tickets ≤ drawn)
    (waiting : ∀ ticket, later.waiting ticket ≤
      session.waiting ticket + if tickets = ticket ∧ ticket < drawn then 1 else 0) :
    later.Accounted drawn := by
  have started : later.started = session.started := by
    funext ticket
    simp only [Session.started, same]
  have inHand := wakes.inHand
  refine ⟨sound, ?_, ?_, ?_⟩
  · intro ticket
    have more := waiting ticket
    have once := accounted.once ticket
    have new := accounted.fresh ticket
    rw [inHand, started]
    split at more <;> omega
  · intro ticket beyond
    have more := waiting ticket
    obtain ⟨none', unserved⟩ := accounted.fresh ticket (by omega)
    rw [if_neg (by omega)] at more
    rw [inHand, started]
    exact ⟨by omega, fun serves => unserved (wakes.serves same serves)⟩
  · intro ticket serves
    have before := wakes.serves same serves
    have more := waiting ticket
    have closed := accounted.closed ticket before
    have old : tickets ≠ ticket := by
      rintro rfl
      exact (accounted.fresh _ (Nat.le_refl _)).2 before
    rw [if_neg fun new => old new.1] at more
    rw [inHand]
    omega

theorem requests_accept (item : Item) {other : Request}
    (mem : other ∈ (session.accept item).requests) :
    other ∈ session.requests ∨ other = .queued item := by
  simp only [accept, start] at mem
  split at mem <;> simp [requests] at mem ⊢ <;> grind

theorem requests_hear (entry : Entry) {other : Request}
    (mem : other ∈ (session.hear entry).requests) :
    other ∈ session.requests ∨ other = .heard entry := by
  simp only [hear, start] at mem
  split at mem <;> simp [requests] at mem ⊢ <;> grind

theorem waiting_accept (item : Item) : (session.accept item).waiting ticket =
    session.waiting ticket + if item.ticket = ticket then 1 else 0 := by
  simp only [accept, start]
  split <;> simp [waiting_eq, List.countP_append, List.countP_singleton] <;> omega

theorem waiting_hear (entry : Entry) : (session.hear entry).waiting ticket =
    session.waiting ticket + if entry.ticket = ticket then 1 else 0 := by
  simp only [hear, start]
  split <;> simp [waiting_eq, List.countP_append, List.countP_singleton] <;> omega

theorem messages_start : session.start.messages = session.messages := by
  rw [start]
  split <;> rfl

theorem messages_accept (item : Item) : (session.accept item).messages = session.messages :=
  messages_start

theorem messages_hear (entry : Entry) : (session.hear entry).messages = session.messages :=
  messages_start

theorem Sound.wakes_accept (sound : session.Sound) (item : Item) :
    session.Wakes (session.accept item) :=
  have queued : Sound { session with pending := session.pending ++ [item] } :=
    ⟨sound.live, sound.asked⟩
  queued.wakes

theorem Sound.wakes_hear (sound : session.Sound) (entry : Entry) :
    session.Wakes (session.hear entry) :=
  have heard : Sound { session with inbox := session.inbox ++ [entry] } := ⟨sound.live, sound.asked⟩
  heard.wakes

theorem Accounted.accept {tickets drawn : Nat} (accounted : session.Accounted tickets) (item : Item)
    (ticket : item.ticket = tickets) (one : drawn = tickets + 1) :
    (session.accept item).Accounted drawn := by
  refine accounted.restock (accounted.sound.accept item) (accounted.sound.wakes_accept item)
    (messages_accept item) (by omega) ?_
  intro other
  rw [waiting_accept]
  split <;> split <;> omega

theorem Accounted.hear {tickets drawn : Nat} (accounted : session.Accounted tickets) (entry : Entry)
    (ticket : entry.ticket = tickets) (one : drawn = tickets + 1) :
    (session.hear entry).Accounted drawn := by
  refine accounted.restock (accounted.sound.hear entry) (accounted.sound.wakes_hear entry)
    (messages_hear entry) (by omega) ?_
  intro other
  rw [waiting_hear]
  split <;> split <;> omega

theorem Accounted.mono {tickets drawn : Nat} (accounted : session.Accounted tickets)
    (le : tickets ≤ drawn) :
    session.Accounted drawn :=
  accounted.restock accounted.sound (.inl rfl) rfl le fun _ => Nat.le_add_right _ _

theorem Accounted.cancelled {tickets : Nat} (accounted : session.Accounted tickets) :
    session.cancelled.Accounted tickets :=
  accounted.restock accounted.sound.cancelled (.inl rfl) rfl (Nat.le_refl _) fun _ => Nat.zero_le _

theorem Accounted.replied {tickets : Nat} (accounted : session.Accounted tickets) (request : Nat)
    (decision : String) (message : Option String) :
    (session.replied request decision message).Accounted tickets := by
  have sound := accounted.sound.replied request decision message
  rw [Session.replied] at sound ⊢
  split
  case h_1 => exact accounted
  case h_2 held =>
    rw [held] at sound
    exact accounted.restock sound (.inl rfl) rfl (Nat.le_refl _) fun _ => Nat.le_add_right _ _

theorem accounted_new (tickets : Nat) (worker : session.worker = .absent)
    (messages : session.messages = [])
    (pending : session.pending = []) (inbox : session.inbox = []) : session.Accounted tickets := by
  have unserved : ∀ ticket, ¬ session.Serves ticket := by simp [Serves, worker, messages]
  have none' : ∀ ticket,
      session.waiting ticket + session.worker.inHand ticket + session.started ticket = 0 := by
    simp [waiting_eq, started, Worker.inHand, worker, messages, pending, inbox]
  refine ⟨⟨fun here => absurd worker here, by simp [worker]⟩, ?_, ?_, ?_⟩
  · exact fun ticket => Nat.le_trans (Nat.le_of_eq (none' ticket)) (Nat.zero_le 1)
  · exact fun ticket _ => ⟨none' ticket, unserved ticket⟩
  · exact fun ticket serves => absurd serves (unserved ticket)

/-- Whatever a session has of a ticket is of the request that drew it. -/
structure Tells (session : Session) (accepted : Request) : Prop where
  requests : ∀ other ∈ session.requests, other.ticket = accepted.ticket → accepted = other
  taken : ∀ item, session.worker = .taken item → item.ticket = accepted.ticket →
    accepted.message = .user item.text item.ticket
  compacting : ∀ held, session.worker = .compacting held ∨ session.worker = .summarizing held →
    held = accepted.ticket → accepted.message = .compaction held
  messages : ∀ message ∈ session.messages, message.starts accepted.ticket = true →
    message = accepted.message

theorem messages_snoc {accepted : Request} {last : Message} (tells : session.Tells accepted)
    (told : last.starts accepted.ticket = true → last = accepted.message) :
    ∀ message ∈ session.messages ++ [last], message.starts accepted.ticket = true →
      message = accepted.message := by
  intro message mem starts
  cases List.mem_append.mp mem with
  | inl before => exact tells.messages message before starts
  | inr now =>
    cases List.mem_singleton.mp now
    exact told starts

theorem Tells.queued {accepted : Request} {item : Item} (tells : session.Tells accepted)
    (mem : item ∈ session.pending) (same : item.ticket = accepted.ticket) :
    accepted = .queued item :=
  tells.requests _ (List.mem_append_left _ (List.mem_map_of_mem mem)) same

theorem Tells.heard {accepted : Request} {entry : Entry} (tells : session.Tells accepted)
    (mem : entry ∈ session.inbox) (same : entry.ticket = accepted.ticket) :
    accepted = .heard entry :=
  tells.requests _ (List.mem_append_right _ (List.mem_map_of_mem mem)) same

theorem Tells.subset {accepted : Request} (tells : session.Tells accepted)
    (pending : later.pending ⊆ session.pending) (inbox : later.inbox ⊆ session.inbox) :
    ∀ other ∈ later.requests, other.ticket = accepted.ticket → accepted = other :=
  fun other mem => tells.requests other (requests_subset pending inbox mem)

theorem Acts.tells {accepted : Request} (acts : session.Acts stored request step later)
    (tells : session.Tells accepted) : later.Tells accepted := by
  cases acts with
  | elsewhere => exact tells
  | took place first kind =>
    refine ⟨tells.subset (by simp [first]) (List.Subset.refl _), ?_, by simp, tells.messages⟩
    rintro _ ⟨⟩ same
    rw [tells.queued (by simp [first]) same]
    exact if_neg kind
  | tookCompaction place first kind =>
    refine ⟨tells.subset (by simp [first]) (List.Subset.refl _), by simp, ?_, tells.messages⟩
    rintro _ (⟨⟨⟩⟩ | ⟨⟨⟩⟩) same
    rw [tells.queued (by simp [first]) same]
    exact if_pos kind
  | opened place =>
    refine ⟨tells.requests, by simp, by simp, messages_snoc tells ?_⟩
    exact fun starts => (tells.taken _ place (of_decide_eq_true starts)).symm
  | @steered ticket item place first =>
    refine ⟨tells.subset List.eraseP_subset (List.Subset.refl _), ?_, by simp, tells.messages⟩
    rintro _ ⟨⟩ same
    have kind : item.kind = .steer := by simpa using List.find?_some first
    rw [tells.queued (List.mem_of_find?_eq_some first) same, Request.message, kind]
    rfl
  | waited place =>
    refine ⟨tells.requests, by simp, ?_, tells.messages⟩
    rintro _ (⟨⟨⟩⟩ | ⟨⟨⟩⟩)
    exact tells.compacting _ (.inl place)
  | compacted place =>
    refine ⟨tells.requests, by simp, by simp, messages_snoc tells ?_⟩
    exact fun starts => (tells.compacting _ (.inr place) (of_decide_eq_true starts)).symm
  | delivered place first =>
    refine ⟨tells.subset (List.Subset.refl _)
      (by simp [first]), by simp, by simp, messages_snoc tells ?_⟩
    intro starts
    rw [tells.heard (by simp [first]) (of_decide_eq_true starts)]
    rfl
  | @idled held outcome place =>
    refine ⟨tells.subset ?_ (List.Subset.refl _), ?_, ?_, messages_snoc tells fun starts =>
      nomatch starts⟩
    · dsimp only
      split
      case isTrue => exact List.nil_subset _
      case isFalse => exact (List.Subset.refl _)
    · by_cases top : session.parentId = none
      case pos => simp [top]
      case neg => simp [top]
    · by_cases top : session.parentId = none
      case pos => simp [top]
      case neg => simp [top]
  | spawned place => exact ⟨tells.requests, tells.taken, tells.compacting, tells.messages⟩
  | wrote place => exact ⟨tells.requests, tells.taken, tells.compacting, tells.messages⟩
  | _ => exact ⟨tells.requests, by simp, by simp, tells.messages⟩

theorem Tells.restock {accepted : Request} (tells : session.Tells accepted)
    (wakes : session.Wakes later)
    (same : later.messages = session.messages)
    (requests : ∀ other ∈ later.requests, other.ticket = accepted.ticket →
      other ∈ session.requests) :
    later.Tells accepted where
  requests other mem ticket := tells.requests other (requests other mem ticket) ticket
  taken item place := by
    cases wakes with
    | inl here => exact tells.taken item (here.symm.trans place)
    | inr up => cases up.2.symm.trans place
  compacting held place := by
    cases wakes with
    | inl here => exact tells.compacting held (by rwa [here] at place)
    | inr up => simp [up.2] at place
  messages message mem := tells.messages message (same ▸ mem)

theorem waiting_of_mem {accepted : Request} (mem : accepted ∈ session.requests) :
    0 < session.waiting accepted.ticket :=
  List.countP_pos_iff.mpr ⟨accepted, mem, decide_eq_true rfl⟩

theorem Accounted.tells {tickets : Nat} {accepted : Request} (accounted : session.Accounted tickets)
    (awaits : accepted ∈ session.requests) : session.Tells accepted := by
  have once := accounted.once accepted.ticket
  have waits := waiting_of_mem awaits
  refine ⟨?_, ?_, ?_, ?_⟩
  · intro other mem same
    have most : session.waiting accepted.ticket ≤ 1 := by omega
    exact eq_of_countP_le_one most awaits (decide_eq_true rfl) mem (decide_eq_true same)
  · intro item place same
    simp only [place, Worker.inHand, same, if_true] at once
    omega
  · rintro held (place | place) same
    · simp only [place, Worker.inHand, same, if_true] at once
      omega
    · simp only [place, Worker.inHand, same, if_true] at once
      omega
  · intro message mem starts
    have begun : 0 < session.started accepted.ticket :=
      List.countP_pos_iff.mpr ⟨message, mem, starts⟩
    omega

theorem Tells.accept {accepted : Request} (tells : session.Tells accepted) (sound : session.Sound)
    (item : Item) (new : item.ticket ≠ accepted.ticket) : (session.accept item).Tells accepted := by
  refine tells.restock (sound.wakes_accept item) (messages_accept item) ?_
  intro other mem same
  cases requests_accept item mem with
  | inl before => exact before
  | inr now =>
    cases now
    exact absurd same new

theorem Tells.hear {accepted : Request} (tells : session.Tells accepted) (sound : session.Sound)
    (entry : Entry) (new : entry.ticket ≠ accepted.ticket) :
    (session.hear entry).Tells accepted := by
  refine tells.restock (sound.wakes_hear entry) (messages_hear entry) ?_
  intro other mem same
  cases requests_hear entry mem with
  | inl before => exact before
  | inr now =>
    cases now
    exact absurd same new

theorem Tells.replied {accepted : Request} (tells : session.Tells accepted) (request : Nat)
    (decision : String) (message : Option String) :
    (session.replied request decision message).Tells accepted := by
  rw [Session.replied]
  split
  case h_1 => exact tells
  case h_2 => exact ⟨tells.requests, tells.taken, tells.compacting, tells.messages⟩

theorem starts_message (accepted : Request) : accepted.message.starts accepted.ticket = true := by
  cases accepted with
  | queued item =>
    simp only [Request.message]
    split <;> exact decide_eq_true rfl
  | heard entry => exact decide_eq_true rfl

theorem Tells.count_message {accepted : Request} (tells : session.Tells accepted) :
    session.messages.count accepted.message = session.started accepted.ticket := by
  apply List.countP_congr
  intro message mem
  constructor
  · intro same
    rw [eq_of_beq same]
    exact starts_message accepted
  · exact fun starts => beq_iff_eq.mpr (tells.messages message mem starts)

/-- An interrupted turn goes idle over an empty queue, and no flag stands as a compaction is taken
or the result of a child that is still stored is delivered. -/
def Orderly (session : Session) (stored : String → Bool) (step : Section) : Prop :=
  match session.worker, step with
  | .turn _ (.ending .interrupted), .idle => session.pending = []
  | .looping, .pop => session.pending.head?.any (·.kind = .compact) = true → session.cancel = false
  | .handing, .deliverInbox =>
    session.inbox.head?.any (stored ·.childId) = true → session.cancel = false
  | _, _ => True

/-- Nothing is about to break the request off. -/
def Calm (session : Session) (ticket : Nat) : Prop :=
  match session.worker with
  | .compacting held => held = ticket → session.cancel = false
  | .turn held (.ending outcome) => held = ticket → outcome ≠ .interrupted
  | .turn held (.asking request) => held = ticket → session.cancel = false ∧
      ∀ ask, session.asks.get? request = some ask → ask.answered = true → ask.decision ≠ none
  | .turn held (.woken ask) => held = ticket → session.cancel = false ∧ ask.decision ≠ none
  | .turn held _ => held = ticket → session.cancel = false
  | _ => True

/-- A request that was accepted and not withdrawn: it waits, is in the worker's hands or is started,
once, and its turn is not broken off. -/
structure Kept (session : Session) (ticket : Nat) : Prop where
  once : session.waiting ticket + session.worker.inHand ticket + session.started ticket = 1
  unbroken : .idle .interrupted ticket ∉ session.messages
  calm : session.Calm ticket

theorem Accounted.kept {tickets : Nat} (accounted : session.Accounted tickets)
    (waits : 0 < session.waiting ticket) : session.Kept ticket := by
  have once := accounted.once ticket
  have unserved : ¬ session.Serves ticket := by
    intro serves
    have closed := accounted.closed ticket serves
    omega
  refine ⟨by omega, ?_, ?_⟩
  · exact fun mem => unserved (.inr ⟨_, mem⟩)
  · simp only [Calm]
    split
    case h_1 place =>
      rintro rfl
      simp only [place, Worker.inHand, if_true] at once
      omega
    case h_6 => trivial
    all_goals
      rintro rfl
      exact absurd (.inl ⟨_, ‹_›⟩) unserved

theorem Orderly.keeps (orderly : session.Orderly stored step) (calm : session.Calm ticket) :
    ¬ session.Drops step ticket := by
  intro drops
  simp only [Drops] at drops
  split at drops
  case h_1 place =>
    simp only [Orderly, place] at orderly
    exact drops orderly
  case h_2 place =>
    simp only [Calm, place] at calm
    exact Bool.noConfusion (drops.2.symm.trans (calm drops.1))
  case h_3 => exact drops

theorem Acts.unbroken (acts : session.Acts stored request step later) (calm : session.Calm ticket)
    (unbroken : .idle .interrupted ticket ∉ session.messages) :
    .idle .interrupted ticket ∉ later.messages := by
  cases acts with
  | opened place => simpa using unbroken
  | compacted place => simpa using unbroken
  | delivered place => simpa using unbroken
  | idled place =>
    simp only [Calm, place] at calm
    intro mem
    cases List.mem_append.mp mem with
    | inl before => exact unbroken before
    | inr now =>
      cases List.mem_singleton.mp now
      exact calm rfl rfl
  | _ => exact unbroken

theorem Acts.calm (acts : session.Acts stored request step later)
    (orderly : session.Orderly stored step)
    (calm : session.Calm ticket) : later.Calm ticket := by
  cases acts with
  | elsewhere => exact calm
  | tookCompaction place first kind =>
    simp only [Orderly, place, first] at orderly
    exact fun _ => orderly (by simp [kind])
  | opened place => exact fun _ => rfl
  | asked place =>
    simp only [Calm, place] at calm
    refine fun same => ⟨calm same, ?_⟩
    intro ask held answered
    rw [Dict.get?_set_self] at held
    cases held
    cases answered
  | woke place held answered =>
    simp only [Calm, place] at calm
    exact fun same => ⟨(calm same).1, (calm same).2 _ held answered⟩
  | gaveUp place broken =>
    simp only [Calm, place] at calm
    intro same
    obtain ⟨clear, decided⟩ := calm same
    exact absurd broken (by simp [clear, decided])
  | refused place clear => exact fun _ => clear
  | allowed place clear => exact fun _ => clear
  | noticed place flag =>
    simp only [Calm, place] at calm
    exact fun same => absurd flag (by simp [calm same])
  | finished place => exact fun _ => by split <;> simp
  | stopped place flag =>
    simp only [Calm, place] at calm
    exact fun same => absurd flag (by simp [calm same])
  | compacted place => exact fun _ => by simp
  | @delivered entry rest place first =>
    simp only [Orderly, place, first] at orderly
    cases there : stored entry.childId with
    | true => exact fun _ => orderly (by simp [there])
    | false => exact fun _ => by simp
  | idled place =>
    by_cases top : session.parentId = none
    case pos => simp [Calm, top]
    case neg => simp [Calm, top]
  | spawned place => exact calm
  | wrote place => exact calm
  | _ => trivial

theorem Acts.kept (acts : session.Acts stored request step later)
    (orderly : session.Orderly stored step)
    (kept : session.Kept ticket) : later.Kept ticket where
  once := (acts.tally (orderly.keeps kept.calm)).trans kept.once
  unbroken := acts.unbroken kept.calm kept.unbroken
  calm := acts.calm orderly kept.calm

theorem Calm.start (calm : session.Calm ticket) : session.start.Calm ticket := by
  rw [Session.start]
  split
  case isTrue => exact calm
  case isFalse => trivial

theorem Kept.restock (kept : session.Kept ticket) (wakes : session.Wakes later)
    (same : later.messages = session.messages)
    (waiting : later.waiting ticket = session.waiting ticket)
    (calm : later.Calm ticket) : later.Kept ticket where
  once := by
    rw [waiting, wakes.inHand, started, same]
    exact kept.once
  unbroken := same ▸ kept.unbroken
  calm := calm

theorem Kept.accept (kept : session.Kept ticket) (sound : session.Sound) (item : Item)
    (other : item.ticket ≠ ticket) : (session.accept item).Kept ticket := by
  refine kept.restock (sound.wakes_accept item) (messages_accept item) ?_ (Calm.start kept.calm)
  rw [waiting_accept, if_neg other, Nat.add_zero]

theorem Kept.hear (kept : session.Kept ticket) (sound : session.Sound) (entry : Entry)
    (other : entry.ticket ≠ ticket) : (session.hear entry).Kept ticket := by
  refine kept.restock (sound.wakes_hear entry) (messages_hear entry) ?_ (Calm.start kept.calm)
  rw [waiting_hear, if_neg other, Nat.add_zero]

theorem Kept.replied (kept : session.Kept ticket) (request : Nat) (decision : String)
    (message : Option String) : (session.replied request decision message).Kept ticket := by
  rw [Session.replied]
  split
  case h_1 => exact kept
  case h_2 =>
    refine kept.restock (.inl rfl) rfl rfl ?_
    have calm := kept.calm
    cases place : session.worker with
    | turn held stage =>
      cases stage with
      | asking asked =>
        simp only [Calm, place] at calm ⊢
        refine fun same => ⟨(calm same).1, ?_⟩
        intro ask held answered
        rw [Dict.get?_set] at held
        split at held
        case isTrue =>
          cases held
          simp
        case isFalse => exact (calm same).2 ask held answered
      | _ => simpa only [Calm, place] using calm
    | compacting held => simpa only [Calm, place] using calm
    | _ => simp [Calm]

end Session

namespace Engine

variable {engine : Engine}

theorem accounted_move {op : Op} {x tickets : Nat} {session : Session}
    (le : engine.tickets ≤ tickets)
    (accounted : (engine.objects x).Accounted engine.tickets)
    (move : engine.Move x tickets op session) : session.Accounted tickets := by
  cases move with
  | stays => exact accounted.mono le
  | created => exact Session.accounted_new _ rfl rfl rfl rfl
  | accepted ticket drawn => exact accounted.accept _ ticket drawn
  | told _ ticket drawn => exact accounted.hear _ ticket drawn
  | toldItself ticket drawn => exact (accounted.hear _ ticket drawn).acts Session.acts
  | worked => exact (accounted.mono le).acts Session.acts
  | cancelled => exact (accounted.mono le).cancelled
  | replied => exact (accounted.mono le).replied _ _ _

theorem accounted_after (ops : List Op) (interruptIgnored : Bool) (x : Nat) :
    ((Machine.after next ops (fresh interruptIgnored)).objects x).Accounted
      (Machine.after next ops (fresh interruptIgnored)).tickets := by
  refine everywhere (P := Session.Accounted) ops interruptIgnored ?_ ?_ x
  · exact Session.accounted_new 0 rfl rfl rfl rfl
  · exact accounted_move

/-- A step that loses no request of a session. -/
def Orderly (r : Nat) : Op → Engine → Prop
  | .work x step, engine =>
    x = r → (engine.objects r).Orderly (fun sid => decide (sid ∈ engine.sessions)) step
  | _, _ => True

structure Keeping (r : Nat) (accepted : Request) (engine : Engine) : Prop where
  filed : engine.Filed
  made : r < engine.made
  drawn : accepted.ticket < engine.tickets
  sound : (engine.objects r).Sound
  kept : (engine.objects r).Kept accepted.ticket
  tells : (engine.objects r).Tells accepted

theorem kept_move {op : Op} {r tickets : Nat} {accepted : Request} {session : Session}
    (keeping : engine.Keeping r accepted) (uncovered : ¬ engine.Covers r op)
    (orderly : Orderly r op engine)
    (move : engine.Move r tickets op session) :
    session.Kept accepted.ticket ∧ session.Tells accepted := by
  obtain ⟨_, made, drawn, sound, kept, tells⟩ := keeping
  cases move with
  | stays => exact ⟨kept, tells⟩
  | created new => omega
  | accepted new => exact ⟨kept.accept sound _ (by omega), tells.accept sound _ (by omega)⟩
  | told _ new => exact ⟨kept.hear sound _ (by omega), tells.hear sound _ (by omega)⟩
  | @toldItself entry new =>
    have other : entry.ticket ≠ accepted.ticket := by omega
    have kept' := kept.hear sound entry other
    have tells' := tells.hear sound entry other
    exact ⟨Session.acts.kept (by simp [Session.Orderly]) kept', Session.acts.tells tells'⟩
  | worked => exact ⟨Session.acts.kept (orderly rfl) kept, Session.acts.tells tells⟩
  | cancelled covers => exact absurd covers uncovered
  | replied => exact ⟨kept.replied _ _ _, tells.replied _ _ _⟩

theorem Keeping.next {op : Op} {r : Nat} {accepted : Request} (keeping : engine.Keeping r accepted)
    (uncovered : ¬ engine.Covers r op) (orderly : Orderly r op engine) :
    (Engine.next op engine).Keeping r accepted where
  filed := filed_next op keeping.filed
  made := Nat.lt_of_lt_of_le keeping.made (grows keeping.filed op).made
  drawn := Nat.lt_of_lt_of_le keeping.drawn (grows keeping.filed op).tickets
  sound := sound_move keeping.sound (moves keeping.filed op r)
  kept := (kept_move keeping uncovered orderly (moves keeping.filed op r)).1
  tells := (kept_move keeping uncovered orderly (moves keeping.filed op r)).2

/-- A request that waits on a session, and that no interrupt or removal withdraws, goes on to wait,
to be in the worker's hands or to be started, once, and no turn of it ends interrupted. -/
theorem requests_stand (ops more : List Op) (interruptIgnored : Bool) {engine : Engine}
    (sid : String)
    (r : Nat) (accepted : Request)
    (reached : Machine.after next ops (fresh interruptIgnored) = engine)
    (stored : engine.sessions.get? sid = some r) (waits : accepted ∈ (engine.objects r).requests)
    (orderly : Machine.Meets next (fun op engine =>
      ¬ engine.Covers r op ∧ Orderly r op engine) more engine) :
    let session := (Machine.after next more engine).objects r
    session.waiting accepted.ticket + session.worker.inHand accepted.ticket +
        session.messages.count accepted.message = 1 ∧
      .idle .interrupted accepted.ticket ∉ session.messages := by
  subst reached
  have filed := filed_after ops interruptIgnored
  have accounted := accounted_after ops interruptIgnored r
  have waiting := Session.waiting_of_mem waits
  have drawn : accepted.ticket < (Machine.after next ops (fresh interruptIgnored)).tickets := by
    by_contra beyond
    have none' := (accounted.fresh accepted.ticket (by omega)).1
    omega
  have keeping := Machine.invariant (I := Keeping r accepted)
    (fun op engine kept condition => kept.next condition.1 condition.2) orderly
    ⟨filed, (filed sid r stored).2, drawn, accounted.sound, accounted.kept waiting,
      accounted.tells waits⟩
  intro session
  rw [keeping.tells.count_message]
  exact ⟨keeping.kept.once, keeping.kept.unbroken⟩

/-- A session was interrupted with its child, and takes its next prompt while the child is
interrupted again. -/
def resumed : List Op :=
  [.create "a" "" "", .create "b" "a" "", .prompt "b" "side" none,
    .prompt "a" "go" none, .work 0 .pop,
    .work 0 .userMessage, .interrupt "a", .work 0 .notice, .work 0 .idle, .prompt "a" "on" none]

theorem requests_stand_resumed :
    let engine := Machine.after next resumed (fresh false)
    let session := (Machine.after next
      [.work 0 .pop, .interrupt "b", .work 0 .userMessage, .work 0 (.finish false),
        .work 0 .idle] engine).objects 0
    session.waiting 2 + session.worker.inHand 2 + session.messages.count (.user "on" 2) = 1 ∧
      .idle .interrupted 2 ∉ session.messages := by
  refine requests_stand resumed
    [.work 0 .pop, .interrupt "b", .work 0 .userMessage, .work 0 (.finish false), .work 0 .idle]
    false "a" 0 (.queued ⟨.prompt, "on", 2⟩) rfl rfl List.mem_cons_self
    ⟨⟨?_, ?_⟩, ⟨?_, trivial⟩, ⟨?_, fun _ => trivial⟩, ⟨?_, fun _ => trivial⟩,
      ⟨?_, fun _ => trivial⟩, trivial⟩
  · exact fun covers => nomatch covers
  · exact fun _ taken => nomatch taken
  · intro covers
    cases covers with
    | interrupt found running stored above =>
      have top : _ = "a" :=
        (filed_next (.work 0 .pop) (filed_after resumed false) _ 0 stored).1.symm
      cases above with
      | self => exact absurd top (by decide)
      | child named =>
        rw [top] at named
        cases named
  · exact fun covers => nomatch covers
  · exact fun covers => nomatch covers
  · exact fun covers => nomatch covers

/-- A prompt comes in after an interrupt was answered, and goes with the idle of the interrupted
turn; a compaction comes in so, and is ended as if it was interrupted itself. -/
theorem requests_fall :
    let interrupted := Machine.after next
      [.create "a" "" "", .prompt "a" "go" none, .work 0 .pop, .work 0 .userMessage, .interrupt "a",
        .prompt "a" "on" none] (fresh false)
    let finished := Machine.after next
      [.create "a" "" "", .prompt "a" "go" none, .work 0 .pop, .work 0 .userMessage,
        .work 0 (.finish false),
        .interrupt "a", .compact "a"] (fresh false)
    ((interrupted.objects 0).requests = [.queued ⟨.prompt, "on", 1⟩] ∧
      ((Machine.after next [.work 0 .notice, .work 0 .idle] interrupted).objects 0).requests = [] ∧
      ((Machine.after next [.work 0 .notice, .work 0 .idle] interrupted).objects 0).messages =
        [.user "go" 0, .idle .interrupted 0]) ∧
    ((finished.objects 0).requests = [.queued ⟨.compact, "", 1⟩] ∧
      ((Machine.after next
        [.work 0 .idle, .work 0 .pop, .work 0 .wait, .work 0 .idle] finished).objects
        0).messages = [.user "go" 0, .idle .succeeded 0, .idle .interrupted 1]) :=
  ⟨⟨rfl, rfl, rfl⟩, rfl, rfl⟩

end Engine

end BlizzardMock.OpenCode2
