import BlizzardMock.Harness.Transcript

namespace BlizzardMock.Harness.Transcript

open Method

/-- A part stays as it is, but for a pending tool call that is completed. -/
def Part.Grows (p q : Part) : Prop :=
  q = p ∨ ∃ callId tool state, p.fields = .tool callId tool state ∧ state.completed = none ∧
    ∃ completion,
      q = { p with fields := .tool callId tool { state with completed := some completion } }

theorem Part.Grows.trans {p q r : Part} (h : p.Grows q) (h' : q.Grows r) : p.Grows r := by
  obtain rfl | ⟨callId, tool, state, fields, pending, completion, rfl⟩ := h
  · exact h'
  · obtain rfl | ⟨_, _, _, fields', pending', -⟩ := h'
    · exact .inr ⟨callId, tool, state, fields, pending, completion, rfl⟩
    · cases fields'
      cases pending'

instance : IsPreorder Part Part.Grows where
  refl _ := .inl rfl
  trans _ _ _ := Part.Grows.trans

/-- A message stays what it is, and its parts stay at their places. -/
structure Message.Grows (m n : Message) : Prop where
  id : n.id = m.id
  sessionId : n.sessionId = m.sessionId
  role : n.role = m.role
  created : n.created = m.created
  parts : Grown Part.Grows m.parts n.parts

instance : IsPreorder Message Message.Grows where
  refl m := ⟨rfl, rfl, rfl, rfl, .refl m.parts⟩
  trans _ _ _ h h' := ⟨h'.id.trans h.id, h'.sessionId.trans h.sessionId, h'.role.trans h.role,
    h'.created.trans h.created, h.parts.trans h'.parts⟩

/-- A document stays that of its session, and its messages stay at their places. -/
structure Document.Grows (d e : Document) : Prop where
  id : e.id = d.id
  messages : Grown Message.Grows d.messages e.messages

instance : IsPreorder Document Document.Grows where
  refl d := ⟨rfl, .refl d.messages⟩
  trans _ _ _ h h' := ⟨h'.id.trans h.id, h.messages.trans h'.messages⟩

def Message.Names (sessionId : String) (message : Message) : Prop :=
  message.sessionId = sessionId ∧ ∀ part ∈ message.parts, part.sessionId = sessionId

/-- Every message and part of a document names the document's own session. -/
def Document.Named (doc : Document) : Prop := ∀ message ∈ doc.messages, message.Names doc.id

theorem Message.grows_append (message : Message) (part : Part) :
    message.Grows (message.append part) :=
  ⟨rfl, rfl, rfl, rfl, .append _ _⟩

theorem Message.Names.append {sessionId : String} {message : Message} {part : Part}
    (h : message.Names sessionId)
    (own : part.sessionId = sessionId) : (message.append part).Names sessionId := by
  refine ⟨h.1, fun other mem => ?_⟩
  obtain held | new := List.mem_append.mp mem
  · exact h.2 other held
  · rw [List.mem_singleton.mp new]
    exact own

theorem Message.grows_finish (tokens : Tokens) (cost : Json) (message : Message) :
    message.Grows (message.finish tokens cost) :=
  ⟨rfl, rfl, rfl, rfl, .refl message.parts⟩

theorem Message.names_reply {sessionId : String} {message : Message} {parts : List Part}
    (own : message.sessionId = sessionId)
    (each : ∀ part ∈ parts, part.sessionId = sessionId) (tokens : Tokens) (cost : Json) :
    ({ message with parts }.finish tokens cost).Names sessionId :=
  ⟨own, each⟩

theorem Document.grows_append (doc : Document) (messages : List Message) :
    doc.Grows (doc.append messages) :=
  ⟨rfl, .append _ _⟩

theorem Document.Named.append {doc : Document} {messages : List Message} (h : doc.Named)
    (own : ∀ message ∈ messages, message.Names doc.id) : (doc.append messages).Named := by
  intro message mem
  exact (List.mem_append.mp mem).elim (h message) (own message)

theorem Document.grows_modify {f : Message → Message}
    (h : ∀ message : Message, message.Grows (f message))
    (doc : Document) (place : Nat) : doc.Grows (doc.modify place f) :=
  ⟨rfl, .modify h _ _⟩

theorem Document.Named.modify {f : Message → Message} {doc : Document} (h : doc.Named) (place : Nat)
    (own : ∀ message : Message, message.Names doc.id → (f message).Names doc.id) :
    (doc.modify place f).Named := by
  intro message mem
  obtain ⟨i, found⟩ := List.mem_iff_getElem?.mp mem
  rw [Document.modify, List.getElem?_modify, Option.map_eq_map, Option.map_eq_some_iff] at found
  obtain ⟨before, held, rfl⟩ := found
  have named := h before (List.mem_of_getElem? held)
  split
  · exact own before named
  · exact named

theorem replaceLast_forall₂ {α β : Type} {R : α → α → Prop} {f : α → Option (α × β)}
    (refl : ∀ a, R a a)
    (h : ∀ a b c, f a = some (b, c) → R a b) {xs ys : List α} {c : β}
    (replaced : replaceLast f xs = some (ys, c)) :
    List.Forall₂ R xs ys := by
  induction xs generalizing ys with
  | nil => cases replaced
  | cons a rest ih =>
    rw [replaceLast] at replaced
    cases later : replaceLast f rest with
    | some found =>
      rw [later] at replaced
      cases replaced
      exact .cons (refl a) (ih later)
    | none =>
      rw [later] at replaced
      obtain ⟨found, taken, same⟩ := Option.map_eq_some_iff.mp replaced
      cases same
      exact .cons (h a _ _ taken) (List.forall₂_same.mpr fun a _ => refl a)

theorem Part.grows_answered {part answered : Part} {toolUseId output : String} {now : Nat}
    (h : part.answered toolUseId output now = some answered) :
    part.Grows answered ∧ answered.sessionId = part.sessionId := by
  rw [Part.answered] at h
  cases fields : part.fields with
  | tool callId tool state =>
    rw [fields] at h
    dsimp only at h
    split at h
    case isTrue pending =>
      cases h
      exact ⟨.inr ⟨callId, tool, state, fields, Option.isNone_iff_eq_none.mp pending.2, _, rfl⟩,
        rfl⟩
    case isFalse => cases h
  | text text time => rw [fields] at h; cases h
  | stepStart => rw [fields] at h; cases h
  | stepFinish reason tokens cost => rw [fields] at h; cases h

theorem Message.grows_answered {message answered : Message} {part : Part}
    {toolUseId output : String} {now : Nat}
    (h : message.answered toolUseId output now = some (answered, part)) :
    message.Grows answered ∧ ∀ sessionId, message.Names sessionId → answered.Names sessionId := by
  obtain ⟨found, replaced, same⟩ := Option.map_eq_some_iff.mp h
  obtain ⟨parts, last⟩ := found
  cases same
  have each : List.Forall₂ (fun p q : Part =>
    p.Grows q ∧ q.sessionId = p.sessionId) message.parts parts := by
    refine replaceLast_forall₂ (fun p => ⟨.inl rfl, rfl⟩) (fun p q r taken => ?_) replaced
    obtain ⟨answered, held, same⟩ := Option.map_eq_some_iff.mp taken
    cases same
    exact Part.grows_answered held
  refine ⟨⟨rfl, rfl, rfl, rfl, .of_forall₂ (each.imp fun _ _ h => h.1)⟩, fun sessionId names =>
    ⟨names.1, ?_⟩⟩
  intro q mem
  obtain ⟨p, held, -, same⟩ := exists_of_forall₂ each mem
  exact same.trans (names.2 p held)

theorem Document.grows_answered {doc : Document} {messages : List Message} {part : Part}
    {toolUseId output : String}
    {now : Nat} (h : replaceLast (·.answered toolUseId output now) doc.messages = some
      (messages, part)) :
    doc.Grows { doc with messages } ∧ (doc.Named → ({ doc with messages } : Document).Named) := by
  have each : List.Forall₂ (fun m n : Message =>
    m.Grows n ∧ ∀ sessionId, m.Names sessionId → n.Names sessionId)
      doc.messages messages :=
    replaceLast_forall₂ (fun m => ⟨refl_of Message.Grows m, fun _ names => names⟩) (fun _ _ _ =>
      Message.grows_answered) h
  refine ⟨⟨rfl, .of_forall₂ (each.imp fun _ _ h => h.1)⟩, fun named n mem => ?_⟩
  obtain ⟨m, held, -, names⟩ := exists_of_forall₂ each mem
  exact names _ (named m held)

section Recordings

variable [TranscriptHost]

/-- A writer of a session holds all that the session's file does, and every version of a file was
written of the file's own session, and holds all that those before did. -/
structure Sound (own : String) (recording : Recording) : Prop where
  session : recording.writer.sessionId = own
  doc : recording.writer.doc.id = own
  named : recording.writer.doc.Named
  grows : recording.versions.Grows Document.Grows
  kept : ∀ entry ∈ recording.versions, entry.2.Named ∧
    TranscriptHost.documentPath entry.2.id = some entry.1
  ahead : ∀ doc, recording.load own = some doc → doc.Grows recording.writer.doc

def Adds (s t : Recording) : Prop := s.versions <:+ t.versions

instance : IsPreorder Recording Adds where
  refl _ := List.suffix_rfl
  trans _ _ _ := List.IsSuffix.trans

abbrev Goes (own : String) : Recording → Recording → Prop := Along (Sound own) Adds

def core (recording : Recording) : Versions TranscriptHost.File Document × Writer :=
  (recording.versions, recording.writer)

instance : Keeps core nowMs := ⟨fun _ => rfl⟩
instance (kind : String) : Keeps core (newId kind) := ⟨fun _ => rfl⟩

instance (ms : Option Nat) : Keeps core (nowUnless ms) := by
  cases ms with
  | none => exact inferInstanceAs (Keeps core nowMs)
  | some ms => exact inferInstanceAs (Keeps core (pure ms : RecordM Nat))

instance (startedAt : Option Nat) : Keeps core (span startedAt) := by unfold span; infer_instance

instance (role : Role) (sessionId : Option String) (createdAt : Option Nat) :
    Keeps core (newMessage role sessionId createdAt) := by
  unfold newMessage
  infer_instance

instance (messageId : String) (fields : PartFields) (sessionId : Option String) :
    Keeps core (newPart messageId fields sessionId) := by
  unfold newPart
  infer_instance

theorem sound_of_core {own : String} {s t : Recording} (same : core t = core s) (h : Sound own s) :
    Sound own t := by
  obtain ⟨versions, writer⟩ := Prod.mk.inj same
  obtain ⟨session, doc, named, grows, kept, ahead⟩ := h
  refine ⟨?_, ?_, ?_, ?_, ?_, ?_⟩
  · rw [writer]
    exact session
  · rw [writer]
    exact doc
  · rw [writer]
    exact named
  · rw [versions]
    exact grows
  · rw [versions]
    exact kept
  · rw [Recording.load, versions, writer]
    exact ahead

theorem goes_of_core {own : String} {s t : Recording} (same : core t = core s) : Goes own s t := by
  have kept : s.versions <:+ t.versions := (Prod.mk.inj same).1.symm ▸ List.suffix_rfl
  exact fun sound => ⟨sound_of_core same sound, kept⟩

instance (priority := low) {own : String} {α : Type} (m : RecordM α) [Keeps core m] :
    Follows (Goes own) m :=
  ⟨fun s => goes_of_core (Keeps.keeps s)⟩

theorem newMessage_names {role : Role} {sessionId : Option String} {createdAt : Option Nat}
    {s : Recording}
    {message : Message} (h : answer (newMessage role sessionId createdAt) s = .ok message) :
    message.Names (sessionId.getD s.writer.sessionId) := by
  obtain ⟨own, held, h⟩ := answer_bind_ok h
  obtain ⟨id, -, h⟩ := answer_bind_ok h
  obtain ⟨created, -, h⟩ := answer_bind_ok h
  cases held
  cases h
  exact ⟨rfl, nofun⟩

theorem newPart_sessionId {messageId : String} {fields : PartFields} {sessionId : Option String}
    {s : Recording}
    {part : Part} (h : answer (newPart messageId fields sessionId) s = .ok part) :
    part.sessionId = sessionId.getD s.writer.sessionId := by
  obtain ⟨own, held, h⟩ := answer_bind_ok h
  obtain ⟨id, -, h⟩ := answer_bind_ok h
  cases held
  cases h
  rfl

section Own

variable {own : String}

theorem follows_newMessage {role : Role} {createdAt : Option Nat} {α : Type}
    {g : Message → RecordM α}
    (h : ∀ message : Message, message.Names own → Follows (Goes own) (g message)) :
    Follows (Goes own) (newMessage role none createdAt >>= g) :=
  follows_of_answer (fun _ _ sound found => sound.session ▸ newMessage_names found) h

theorem follows_newPart {messageId : String} {fields : PartFields} {α : Type} {g : Part → RecordM α}
    (h : ∀ part : Part, part.sessionId = own → Follows (Goes own) (g part)) :
    Follows (Goes own) (newPart messageId fields none >>= g) :=
  follows_of_answer (fun _ _ sound found => (newPart_sessionId found).trans sound.session) h

theorem goes_setDoc {f : Document → Document} {s : Recording}
    (h : Sound own s → s.writer.doc.Grows (f s.writer.doc) ∧ (f s.writer.doc).Named) :
    Goes own s (after (setDoc f) s) := by
  intro sound
  obtain ⟨grows, named⟩ := h sound
  refine ⟨⟨sound.session, grows.id.trans sound.doc, named, sound.grows, sound.kept, ?_⟩,
    List.suffix_rfl⟩
  exact fun doc held => trans_of Document.Grows (sound.ahead doc held) grows

theorem follows_setDoc {f : Document → Document}
    (h : ∀ doc : Document, doc.id = own → doc.Named → doc.Grows (f doc) ∧ (f doc).Named) :
    Follows (Goes own) (setDoc f) :=
  ⟨fun s => goes_setDoc fun sound => h s.writer.doc sound.doc sound.named⟩

theorem follows_append {messages : List Message} (h : ∀ message ∈ messages, message.Names own) :
    Follows (Goes own) (setDoc (·.append messages)) :=
  follows_setDoc fun doc same named => ⟨doc.grows_append messages, named.append (same.symm ▸ h)⟩

theorem follows_appendPart {part : Part} (h : part.sessionId = own) (place : Nat) :
    Follows (Goes own) (setDoc (·.modify place (·.append part))) :=
  follows_setDoc fun doc same named =>
    ⟨doc.grows_modify (fun message => message.grows_append part) place,
    named.modify place fun _ names => names.append (h.trans same.symm)⟩

instance (tokens : Tokens) (cost : Json) (place : Nat) :
    Follows (Goes own) (setDoc (·.modify place (·.finish tokens cost))) :=
  follows_setDoc fun doc _ named => ⟨doc.grows_modify (Message.grows_finish tokens cost) place,
    named.modify place fun _ names => names⟩

instance (openAssistant : Option MessageRef) :
    Follows (Goes own) (setWriter fun writer => { writer with openAssistant }) where
  follows _ sound :=
    ⟨⟨sound.session, sound.doc, sound.named, sound.grows, sound.kept, sound.ahead⟩, List.suffix_rfl⟩

omit own in
theorem after_writeText (sessionId : String) (doc : Document) (s : Recording) :
    after (writeText sessionId doc) s =
    (TranscriptHost.documentPath sessionId).elim s fun file =>
      { s with versions := s.versions.save file doc } := by
  rw [writeText, after_bind, answer_orRaise, after_orRaise]
  cases TranscriptHost.documentPath sessionId with
  | none => rfl
  | some file => rfl

instance : Follows (Goes own) writeOwn where
  follows s sound := by
    have written : after writeOwn s = after (writeText s.writer.sessionId s.writer.doc) s := rfl
    rw [written, after_writeText, sound.session]
    cases path : TranscriptHost.documentPath own with
    | none => exact ⟨sound, List.suffix_rfl⟩
    | some file =>
      have holds : ∀ doc ∈ s.versions.load file, doc.Grows s.writer.doc := by
        intro doc held
        exact sound.ahead doc (by rw [Recording.load, path]; exact held)
      refine ⟨⟨sound.session, sound.doc, sound.named, sound.grows.save holds, ?_, ?_⟩,
        List.suffix_cons _ _⟩
      · rintro entry mem
        obtain rfl | mem := List.mem_cons.mp mem
        · exact ⟨sound.named, sound.doc.symm ▸ path⟩
        · exact sound.kept entry mem
      · intro doc held
        rw [Recording.load, path] at held
        cases (Versions.load_save_self _ _ _).symm.trans held
        exact refl_of Document.Grows _

instance : Follows (Goes own) assistantMessage := by
  unfold assistantMessage
  refine Follows.andThen inferInstance fun writer => ?_
  cases writer.openAssistant with
  | some ref => exact inferInstanceAs (Follows (Goes own) (pure ref : RecordM MessageRef))
  | none =>
    refine follows_newMessage fun message names => follows_newPart fun part ours => ?_
    refine Follows.andThen (follows_append fun other mem => ?_) fun _ => inferInstance
    rw [List.mem_singleton.mp mem]
    exact names.append ours

instance (text : String) : Follows (Goes own) (recordUser text) := by
  unfold recordUser
  refine Follows.andThen inferInstance fun _ => follows_newMessage fun message names => ?_
  refine Follows.andThen inferInstance fun _ => follows_newPart fun part ours => ?_
  refine Follows.andThen (follows_append fun other mem => ?_) fun _ => inferInstance
  rw [List.mem_singleton.mp mem]
  exact names.append ours

instance (result : RunResult) : Follows (Goes own) (recordResult result) := by
  unfold recordResult
  refine Follows.andThen inferInstance fun ref => Follows.andThen inferInstance fun _ => ?_
  refine follows_newPart fun part ours =>
    Follows.andThen (follows_appendPart ours ref.place) fun _ => ?_
  refine Follows.andThen inferInstance fun _ => follows_newPart fun finish ours => ?_
  exact Follows.andThen (follows_appendPart ours ref.place) fun _ => inferInstance

theorem goes_completeCall {messages : List Message} {part : Part} {s : Recording}
    (h : s.writer.doc.Grows { s.writer.doc with messages } ∧
      (s.writer.doc.Named → ({ s.writer.doc with messages } : Document).Named)) :
    Goes own s (after (completeCall (some (messages, part))) s) := by
  have ticked : Goes own s (after nowMs s) := Follows.follows s
  have set : Goes own (after nowMs s) (after (setDoc ({ · with messages })) (after nowMs s)) :=
    goes_setDoc fun sound => ⟨h.1, h.2 sound.named⟩
  have written := Follows.follows (R := Goes own) (m := writeOwn)
    (after (setDoc ({ · with messages })) (after nowMs s))
  have whole : after (completeCall (some (messages, part))) s =
      after writeOwn (after (setDoc ({ · with messages })) (after nowMs s)) :=
    after_bind_pure _ writeOwn fun _ => if part.isTask then some part else none
  rw [whole]
  exact trans_of (Goes own) (trans_of (Goes own) ticked set) written

instance (toolUseId output : String) : Follows (Goes own) (recordToolResult toolUseId output) where
  follows s := by
    have read : after (recordToolResult toolUseId output) s = after (completeCall
        (replaceLast (·.answered toolUseId output s.clock.head) s.writer.doc.messages)) s := rfl
    rw [read]
    cases found : replaceLast (·.answered toolUseId output s.clock.head) s.writer.doc.messages with
    | none => exact refl_of (Goes own) s
    | some answered => exact goes_completeCall (Document.grows_answered found)

/-- A session can be recorded beside the writer's own: in another file, with no other session's
document in it. -/
def Apart (child : String) (recording : Recording) : Prop :=
  ∀ file, TranscriptHost.documentPath child = some file →
    TranscriptHost.documentPath recording.writer.sessionId ≠ some file ∧
      ∀ doc, recording.versions.load file = some doc → doc.id = child

instance (childId : String) (startedAt : Nat) (messageId : String) (call : Json) :
    Keeps core (callPart childId startedAt messageId call) := by
  unfold callPart
  infer_instance

instance (childId prompt : String) (childCalls : List Json) (startedAt : Nat) :
    Keeps core (childTurns childId prompt childCalls startedAt) := by
  unfold childTurns
  infer_instance

theorem childMessage_names {role : Role} {childId : String} {createdAt : Option Nat} {s : Recording}
    {message : Message}
    (h : answer (newMessage role (some childId) createdAt) s = .ok message) :
    message.Names childId :=
  newMessage_names h

theorem childPart_sessionId {messageId childId : String} {fields : PartFields}
    {s : Recording} {part : Part}
    (h : answer (newPart messageId fields (some childId)) s = .ok part) :
    part.sessionId = childId :=
  newPart_sessionId h

theorem callPart_sessionId {childId messageId : String} {startedAt : Nat} {call : Json}
    {s : Recording} {part : Part}
    (h : answer (callPart childId startedAt messageId call) s = .ok part) :
    part.sessionId = childId := by
  obtain ⟨callId, -, h⟩ := answer_bind_ok h
  obtain ⟨⟨tool, input, output⟩, -, h⟩ := answer_bind_ok h
  exact childPart_sessionId h

theorem callParts_sessionId {childId messageId : String} {startedAt : Nat} {calls : List Json}
    {s : Recording}
    {parts : List Part}
    (h : answer (collect (fun call => some <$> callPart childId startedAt messageId call) calls) s =
      .ok parts) :
    ∀ part ∈ parts, part.sessionId = childId := by
  induction calls generalizing s parts with
  | nil =>
    cases h
    nofun
  | cons call rest ih =>
    obtain ⟨first, drawn, h⟩ := answer_bind_ok h
    obtain ⟨others, later, h⟩ := answer_bind_ok h
    cases h
    rw [answer_map] at drawn
    cases held : answer (callPart childId startedAt messageId call) s with
    | error e =>
      rw [held] at drawn
      cases drawn
    | ok part =>
      rw [held] at drawn
      cases drawn
      intro other mem
      obtain rfl | mem := List.mem_cons.mp mem
      · exact callPart_sessionId held
      · exact ih later other mem

theorem childTurns_names {childId prompt : String} {childCalls : List Json} {startedAt : Nat}
    {s : Recording}
    {turns : List Message}
    (h : answer (childTurns childId prompt childCalls startedAt) s = .ok turns) :
    ∀ message ∈ turns, message.Names childId := by
  obtain ⟨user, asking, h⟩ := answer_bind_ok h
  obtain ⟨_, -, h⟩ := answer_bind_ok h
  obtain ⟨asked, asks, h⟩ := answer_bind_ok h
  obtain ⟨assistant, answering, h⟩ := answer_bind_ok h
  obtain ⟨calls, called, h⟩ := answer_bind_ok h
  obtain ⟨_, -, h⟩ := answer_bind_ok h
  obtain ⟨reply, replies, h⟩ := answer_bind_ok h
  obtain ⟨finish, finishes, h⟩ := answer_bind_ok h
  cases h
  intro message mem
  obtain rfl | mem := List.mem_cons.mp mem
  · exact (childMessage_names asking).append (childPart_sessionId asks)
  · rw [List.mem_singleton.mp mem]
    refine Message.names_reply (childMessage_names answering).1 (fun part held => ?_) _ _
    obtain call | last := List.mem_append.mp held
    · exact callParts_sessionId called part call
    · obtain rfl | last := List.mem_cons.mp last
      · exact childPart_sessionId replies
      · rw [List.mem_singleton.mp last]
        exact childPart_sessionId finishes

theorem goes_writeText {child : String} {doc : Document} {s : Recording} (apart : Apart child s)
    (same : doc.id = child)
    (named : doc.Named) (grows : ∀ held, s.load child = some held → held.Grows doc) :
    Goes own s (after (writeText child doc) s) := by
  intro sound
  rw [after_writeText]
  cases path : TranscriptHost.documentPath child with
  | none => exact ⟨sound, List.suffix_rfl⟩
  | some file =>
    have holds : ∀ held ∈ s.versions.load file, held.Grows doc := by
      intro held found
      exact grows held (by rw [Recording.load, path]; exact found)
    have elsewhere := (apart file path).1
    refine ⟨⟨sound.session, sound.doc, sound.named, sound.grows.save holds, ?_, ?_⟩,
      List.suffix_cons _ _⟩
    · rintro entry mem
      obtain rfl | mem := List.mem_cons.mp mem
      · exact ⟨named, same.symm ▸ path⟩
      · exact sound.kept entry mem
    · intro held found
      refine sound.ahead held ?_
      rw [sound.session] at elsewhere
      cases home : TranscriptHost.documentPath own with
      | none =>
        rw [Recording.load, home] at found
        cases found
      | some ours =>
        have other : file ≠ ours := fun same => elsewhere (home.trans (congrArg some same.symm))
        rw [Recording.load, home] at found ⊢
        exact (Versions.load_save_of_ne _ other _).symm.trans found

omit own in
theorem load_of_core {s t : Recording} (same : core t = core s) (sessionId : String) :
    t.load sessionId = s.load sessionId := by
  rw [Recording.load, Recording.load, (Prod.mk.inj same).1]

omit own in
theorem apart_of_core {child : String} {s t : Recording} (same : core t = core s)
    (h : Apart child s) :
    Apart child t := by
  obtain ⟨versions, writer⟩ := Prod.mk.inj same
  intro file path
  rw [versions, writer]
  exact h file path

theorem child_held {child cwd title : String} {parentId : Option String} {doc : Document}
    {s : Recording}
    (sound : Sound own s) (apart : Apart child s)
    (read : (s.load child).getD (newDocument child cwd title parentId) = doc) :
    doc.id = child ∧ doc.Named ∧ ∀ held, s.load child = some held → held = doc := by
  cases held : s.load child with
  | none =>
    rw [held] at read
    cases read
    exact ⟨rfl, nofun, nofun⟩
  | some found =>
    rw [held] at read
    cases read
    obtain ⟨file, path, found⟩ := Option.bind_eq_some_iff.mp held
    exact ⟨(apart file path).2 _ found, (sound.kept _ (Versions.mem_of_load found)).1, fun _ same =>
      (Option.some.inj same).symm⟩

theorem goes_writeChildSession {child : String} {toolInput : List (String × Json)}
    {childCalls : List Json}
    {startedAt : Nat} {s : Recording} (apart : Apart child s) :
    Goes own s (after (writeChildSession child toolInput childCalls startedAt) s) := by
  intro sound
  have turning : after (writeChildSession child toolInput childCalls startedAt) s =
      after (childTurns child (Json.get toolInput "prompt" (.str "")).text childCalls startedAt >>=
        fun turns =>
        writeText child (((s.load child).getD
          (newDocument child s.writer.cwd "mock-opencode child session"
          (some s.writer.sessionId))).append turns)) s := rfl
  rw [turning]
  generalize read : (s.load child).getD
    (newDocument child s.writer.cwd "mock-opencode child session"
    (some s.writer.sessionId)) = doc
  obtain ⟨id, named, held⟩ := child_held sound apart read
  refine after_bind_of_keeps (f := core) (P := fun t => Sound own t ∧ Adds s t) rfl
    (fun t same => goes_of_core same sound) fun turns t turned same => ?_
  have names := childTurns_names turned
  have extended : (doc.append turns).Named := named.append (id.symm ▸ names)
  have goes : Goes own t (after (writeText child (doc.append turns)) t) := by
    refine goes_writeText (apart_of_core same apart) id extended fun found loaded => ?_
    rw [load_of_core same] at loaded
    rw [held found loaded]
    exact doc.grows_append turns
  exact trans_of (Goes own) (goes_of_core same) goes sound

omit own in
def Spare (recording : Recording) : Prop :=
  ∀ n, Apart (idOf "ses" (recording.uuids.get n)) recording

omit own in
def Free (toolInput : List (String × Json)) (recording : Recording) : Prop :=
  (namedChild toolInput).elim (Spare recording) (Apart · recording)

omit own in
structure Draws (s t : Recording) : Prop where
  versions : t.versions = s.versions
  session : t.writer.sessionId = s.writer.sessionId
  uuids : ∃ n, t.uuids = s.uuids.drop n

instance : IsPreorder Recording Draws where
  refl _ := ⟨rfl, rfl, 0, rfl⟩
  trans _ _ _ h h' := by
    obtain ⟨n, first⟩ := h.uuids
    obtain ⟨k, second⟩ := h'.uuids
    refine ⟨h'.versions.trans h.versions, h'.session.trans h.session, n + k, ?_⟩
    rw [second, first, Stream'.drop_drop, Nat.add_comm]

instance : Follows Draws nowMs := ⟨fun _ => ⟨rfl, rfl, 0, rfl⟩⟩
instance (kind : String) : Follows Draws (newId kind) := ⟨fun _ => ⟨rfl, rfl, 1, rfl⟩⟩

instance (ms : Option Nat) : Follows Draws (nowUnless ms) := by
  cases ms with
  | none => exact inferInstanceAs (Follows Draws nowMs)
  | some ms => exact inferInstanceAs (Follows Draws (pure ms : RecordM Nat))

instance (role : Role) (sessionId : Option String) (createdAt : Option Nat) :
    Follows Draws (newMessage role sessionId createdAt) := by
  unfold newMessage
  infer_instance

instance (messageId : String) (fields : PartFields) (sessionId : Option String) :
    Follows Draws (newPart messageId fields sessionId) := by
  unfold newPart
  infer_instance

instance (f : Document → Document) : Follows Draws (setDoc f) := ⟨fun _ => ⟨rfl, rfl, 0, rfl⟩⟩

instance (openAssistant : Option MessageRef) :
    Follows Draws (setWriter fun writer => { writer with openAssistant }) :=
  ⟨fun _ => ⟨rfl, rfl, 0, rfl⟩⟩

instance : Follows Draws assistantMessage := by
  unfold assistantMessage
  refine Follows.andThen inferInstance fun writer => ?_
  cases writer.openAssistant with
  | some ref => exact inferInstanceAs (Follows Draws (pure ref : RecordM MessageRef))
  | none => infer_instance

omit own in
theorem Apart.draws {child : String} {s t : Recording} (h : Apart child s) (drawn : Draws s t) :
    Apart child t := by
  intro file path
  rw [drawn.versions, drawn.session]
  exact h file path

omit own in
theorem Free.draws {toolInput : List (String × Json)} {s t : Recording} (h : Free toolInput s)
    (drawn : Draws s t) :
    Free toolInput t := by
  rw [Free] at h ⊢
  cases named : namedChild toolInput with
  | some child =>
    rw [named] at h
    exact h.draws drawn
  | none =>
    rw [named] at h
    intro n
    obtain ⟨k, same⟩ := drawn.uuids
    rw [same, Stream'.get_drop]
    exact (h _).draws drawn

theorem goes_bind {α β : Type} {m : RecordM α} {g : α → RecordM β} {s : Recording}
    (first : Goes own s (after m s))
    (rest : ∀ a, Follows (Goes own) (g a)) : Goes own s (after (m >>= g) s) := by
  rw [after_bind]
  cases answer m s with
  | ok a => exact trans_of (Goes own) first (Follows.follows _)
  | error e => exact first

theorem goes_bind_of_draws {α β : Type} {toolInput : List (String × Json)} {m : RecordM α}
    {g : α → RecordM β}
    [hm : Follows (Goes own) m] [hd : Follows Draws m] {s : Recording} (free : Free toolInput s)
    (rest : ∀ a t, Free toolInput t → Goes own t (after (g a) t)) :
    Goes own s (after (m >>= g) s) := by
  rw [after_bind]
  cases answer m s with
  | ok a => exact trans_of (Goes own) (hm.follows s) (rest a _ (free.draws (hd.follows s)))
  | error e => exact hm.follows s

instance (toolInput : List (String × Json)) : Keeps core (childIdOf toolInput) := by
  unfold childIdOf
  cases namedChild toolInput with
  | some child => exact inferInstanceAs (Keeps core (pure child : RecordM String))
  | none => exact inferInstanceAs (Keeps core (newId "ses"))

omit own in
theorem apart_childIdOf {toolInput : List (String × Json)} {s : Recording} {child : String}
    (free : Free toolInput s)
    (h : answer (childIdOf toolInput) s = .ok child) : Apart child s := by
  rw [Free] at free
  rw [childIdOf] at h
  cases named : namedChild toolInput with
  | some other =>
    rw [named] at h free
    cases h
    exact free
  | none =>
    rw [named] at h free
    cases h
    exact free 0

theorem goes_recordTask {toolInput recorded : List (String × Json)} {started : Nat} {s : Recording}
    (free : Free toolInput s) : Goes own s (after (recordTask toolInput recorded started) s) := by
  intro sound
  refine after_bind_of_keeps (f := core) (P := fun t => Sound own t ∧ Adds s t) rfl
    (fun t same => goes_of_core same sound) fun child t found same => ?_
  have apart := apart_of_core same (apart_childIdOf free found)
  refine trans_of (Goes own) (goes_of_core same) ?_ sound
  cases called : childCallsOf toolInput with
  | error e => exact refl_of (Goes own) t
  | ok calls =>
    have written : Goes own t (after (writeChildSession child recorded calls started >>= fun _ =>
        pure ({ parentSessionId := t.writer.sessionId, sessionId := child } : TaskMetadata)) t) :=
      goes_bind (goes_writeChildSession apart) fun _ => inferInstance
    exact written

theorem follows_recorded (ref : MessageRef) (fields : PartFields) (callId : String) :
    Follows (Goes own) (do
      let part ← newPart ref.id fields none
      setDoc (·.modify ref.place (·.append part))
      writeOwn
      return callId) :=
  follows_newPart fun _ ours =>
    Follows.andThen (follows_appendPart ours ref.place) fun _ => inferInstance

theorem goes_recordToolCall {name : String} {toolInput : List (String × Json)} {s : Recording}
    (free : name = "task" → Free toolInput s) :
    Goes own s (after (recordToolCall name toolInput) s) := by
  by_cases task : name = "task"
  · rw [recordToolCall]
    refine goes_bind_of_draws (free task) fun ref t free => ?_
    refine goes_bind_of_draws free fun callId t free => ?_
    refine goes_bind_of_draws free fun started t free => ?_
    dsimp only
    rw [if_pos task]
    refine goes_bind ?_ fun metadata => follows_recorded ref _ callId
    rw [after_map]
    exact goes_recordTask free
  · have plain : Follows (Goes own) (recordToolCall name toolInput) := by
      unfold recordToolCall
      refine Follows.andThen inferInstance fun ref => Follows.andThen inferInstance fun callId => ?_
      refine Follows.andThen inferInstance fun started => ?_
      dsimp only
      rw [if_neg task]
      exact Follows.andThen inferInstance fun metadata => follows_recorded ref _ callId
    exact plain.follows s

end Own

/-- A writer opens no other session's document, and a task call records in no file but its child's.
-/
def Op.Clear : Op → Recording → Prop
  | .openWriter sessionId _ _, recording =>
    ∀ doc, recording.load sessionId = some doc → doc.id = sessionId
  | .recordToolCall name toolInput, recording => name = "task" → Free toolInput recording
  | _, _ => True

theorem sound_openWriter {sessionId cwd : String} {billedZero : Bool} {own : String} {s : Recording}
    (sound : Sound own s)
    (clear : ∀ doc, s.load sessionId = some doc → doc.id = sessionId) :
    Sound sessionId (after (openWriter sessionId cwd billedZero) s) := by
  have opened : after (openWriter sessionId cwd billedZero) s = { s with writer := {
      sessionId, cwd, billedZero,
      doc := (s.load sessionId).getD (newDocument sessionId cwd "mock-opencode session" none) } } :=
        rfl
  rw [opened]
  cases held : s.load sessionId with
  | none =>
    refine ⟨rfl, rfl, nofun, sound.grows, sound.kept, fun doc found => ?_⟩
    cases held.symm.trans found
  | some doc =>
    obtain ⟨file, path, found⟩ := Option.bind_eq_some_iff.mp held
    refine ⟨rfl, clear doc held, (sound.kept _ (Versions.mem_of_load found)).1, sound.grows,
      sound.kept, fun other found => ?_⟩
    cases held.symm.trans found
    exact refl_of Document.Grows doc

theorem Sound.follows {own : String} {s : Recording} (sound : Sound own s) {α : Type}
    (m : RecordM α)
    [h : Follows (Goes own) m] : Sound own (after m s) :=
  (h.follows s sound).1

theorem next_sound {op : Op} {s : Recording} (sound : Sound s.writer.sessionId s)
    (clear : op.Clear s) :
    Sound (next op s).writer.sessionId (next op s) := by
  have stays {own : String} {t : Recording} (sound : Sound own t) : Sound t.writer.sessionId t :=
    sound.session.symm ▸ sound
  cases op with
  | openWriter sessionId cwd billedZero => exact stays (sound_openWriter sound clear)
  | recordUser text => exact stays (sound.follows (recordUser text))
  | recordResult result => exact stays (sound.follows (recordResult result))
  | recordToolCall name toolInput => exact stays (goes_recordToolCall clear sound).1
  | recordToolResult toolUseId output =>
    exact stays (sound.follows (recordToolResult toolUseId output))

/-- As long as no session is recorded in another's file, every version of a document holds what the
versions before it did, at the same places, and names its own session. -/
theorem documents_grow {sessionId cwd : String} {billedZero : Bool} {clock : Stream' Nat}
    {uuids : Stream' String}
    {ops : List Op} (clear :
    Machine.Meets next Op.Clear ops (.fresh sessionId cwd billedZero clock uuids)) :
    let last := Machine.after next ops (.fresh sessionId cwd billedZero clock uuids)
    last.versions.Grows Document.Grows ∧
      ∀ entry ∈ last.versions, entry.2.Named ∧
        TranscriptHost.documentPath entry.2.id = some entry.1 := by
  have fresh : Sound sessionId (Recording.fresh sessionId cwd billedZero clock uuids) := by
    refine ⟨rfl, rfl, nofun, Versions.grows_nil, nofun, fun doc found => ?_⟩
    obtain ⟨file, -, none⟩ := Option.bind_eq_some_iff.mp found
    cases none
  have sound := Machine.invariant (I := fun s => Sound s.writer.sessionId s) (fun _ _ =>
    next_sound) clear fresh
  exact ⟨sound.grows, sound.kept⟩

end Recordings

section

attribute [local instance] TranscriptHost.plain

def opened : Recording := .fresh "s" "/" false (fun n => n) (fun n => toString n)

def continued : List Op :=
  [.recordUser "go",
    .recordToolCall "task" [("task_id", .str "kid"), ("prompt", .str "dig")],
    .recordToolCall "task" [("task_id", .str "kid"), ("prompt", .str "again")],
    .recordToolResult "call_4" "ok",
    .openWriter "kid" "/" false,
    .recordUser "back"]

theorem documents_grow_continued : let last := Machine.after next continued opened
    last.versions.Grows Document.Grows ∧
      ∀ entry ∈ last.versions, entry.2.Named ∧
        TranscriptHost.documentPath entry.2.id = some entry.1 := by
  apply documents_grow
  refine ⟨trivial, fun _ => ?_, fun _ => ?_, trivial, fun doc found => ?_, trivial, trivial⟩
  · rintro file ⟨⟩
    exact ⟨by decide, nofun⟩
  · rintro file ⟨⟩
    refine ⟨by decide, fun doc found => ?_⟩
    exact Option.some.inj ((congrArg (Option.map Document.id) found).symm.trans rfl)
  · exact Option.some.inj ((congrArg (Option.map Document.id) found).symm.trans rfl)

def selfTask : Recording :=
  Machine.after next [.recordUser "go",
    .recordToolCall "task" [("task_id", .str "s"), ("prompt", .str "dig")]] opened

theorem self_task_forgets : (selfTask.versions.map (·.2.messages.length)) = [2, 3, 1] ∧
    ¬ selfTask.versions.Grows Document.Grows := by
  refine ⟨rfl, fun grows => ?_⟩
  have later := List.pairwise_iff_getElem.mp grows 0 1 (by decide) (by decide) (by decide) rfl
  obtain ⟨message, found, -⟩ := later.messages 2 _ rfl
  cases found

end

end BlizzardMock.Harness.Transcript
