import BlizzardMock.Data.Machine
import BlizzardMock.Harness.Codex.AppServer

namespace BlizzardMock.Harness.Codex

open JsonText

section Laws

variable [Codecs]

/-- A rotation's writer and the text it renamed over the file. -/
structure Write where
  pid : Nat
  text : String

/-- Rotations one upon another, from one text to the last. -/
inductive Chain (start : String) : List Write → String → Prop
  | nil : Chain start [] start
  | snoc {writes : List Write} {current text : String} {draws : Draws}
      {account : Option String} (pid : Nat) :
    Chain start writes current → rotateLocked draws (some current) = some (text, account) →
      Chain start (writes ++ [⟨pid, text⟩]) text

/-- A line of the audit log for each write, in its place. -/
def Audits [Digests] (writes : List Write) (audit : List String) : Prop :=
  List.Forall₂ (fun write line => ∃ time, line = auditLine write.pid write.text time) writes audit

namespace Phase

/-- Holding the lock. -/
def Inside : Phase → Prop
  | .idle | .waiting _ => False
  | _ => True

def unaudited : Phase → Option String
  | .renamed _ text _ => some text
  | _ => none

end Phase

namespace World

variable {w later : World} {pid p : Nat}

omit [Codecs] in
@[simp] theorem phase_moved (phase : Phase) (messages : List Json) :
    (w.moved pid phase messages).phase p = if p = pid then phase else w.phase p := by
  simp [moved, Function.update_apply]

omit [Codecs] in
@[simp] theorem sent_moved (phase : Phase) (messages : List Json) :
    (w.moved pid phase messages).sent p = if p = pid then w.sent pid ++ messages else w.sent p := by
  simp [moved, Function.update_apply]

omit [Codecs] in
@[simp] theorem holder_moved (phase : Phase) (messages : List Json) :
    (w.moved pid phase messages).holder = w.holder := rfl

omit [Codecs] in
@[simp] theorem file_moved (phase : Phase) (messages : List Json) :
    (w.moved pid phase messages).file = w.file := rfl

omit [Codecs] in
@[simp] theorem audit_moved (phase : Phase) (messages : List Json) :
    (w.moved pid phase messages).audit = w.audit := rfl

omit [Codecs] in
@[simp] theorem inbox_moved (phase : Phase) (messages : List Json) :
    (w.moved pid phase messages).inbox = w.inbox := rfl

inductive Steps [Digests] (w : World) : World → Prop
  | stays : Steps w w
  | read {pid : Nat} {line : String} {rest : List String} (was : w.phase pid = .idle)
    (next : w.inbox pid = line :: rest) :
    Steps w ({ w with inbox := Function.update w.inbox pid rest }.moved pid
      (handle w.file (request line)).1
      (handle w.file (request line)).2)
  | acquired {pid : Nat} {id : Json} (was : w.phase pid = .waiting id) (free : w.holder = none) :
    Steps w ({ w with holder := some pid }.moved pid (.locked id) [])
  | staged {pid : Nat} {id : Json} {draws : Draws} {text : String} {account : Option String}
    (was : w.phase pid = .locked id) (made : rotateLocked draws w.file = some (text, account)) :
    Steps w (w.moved pid (.staged id text account) [])
  | barren {pid : Nat} {id : Json} {draws : Draws} (was : w.phase pid = .locked id)
    (bare : rotateLocked draws w.file = none) : Steps w (w.moved pid (.leaving id none) [])
  | renamed {pid : Nat} {id : Json} {text : String} {account : Option String}
    (was : w.phase pid = .staged id text account) :
    Steps w ({ w with file := some text }.moved pid (.renamed id text account) [])
  | audited {pid : Nat} {id : Json} {text : String} {account : Option String}
    (was : w.phase pid = .renamed id text account) (time : Double) :
    Steps w ({ w with audit := w.audit ++ [auditLine pid text time] }.moved pid
      (.leaving id account) [])
  | left {pid : Nat} {id : Json} {account : Option String}
      (was : w.phase pid = .leaving id account) :
    Steps w ({ w with holder := none }.moved pid .idle [reply id (accountResult account)])

variable [Digests]

theorem next_steps (act : Act) (w : World) : w.Steps (next act w) := by
  cases act with
  | readLine pid =>
    simp only [next]
    split
    case h_1 was line => exact .read was line
    case h_2 => exact .stays
  | acquire pid =>
    simp only [next]
    split
    case h_1 was free => exact .acquired was free
    case h_2 => exact .stays
  | load pid draws =>
    simp only [next]
    split
    case h_1 was =>
      split
      case h_1 made => exact .staged was made
      case h_2 bare => exact .barren was bare
    case h_2 => exact .stays
  | rename pid =>
    simp only [next]
    split
    case h_1 was => exact .renamed was
    case h_2 => exact .stays
  | append pid time =>
    simp only [next]
    split
    case h_1 was => exact .audited was time
    case h_2 => exact .stays
  | release pid =>
    simp only [next]
    split
    case h_1 was => exact .left was
    case h_2 => exact .stays

omit [Digests] in
theorem inside_handle (file : Option String) (request : Request) :
    ¬ (handle file request).1.Inside ∧ (handle file request).1.unaudited = none ∧
      ∀ id text account, (handle file request).1 ≠ .staged id text account := by
  fun_cases handle file request <;> simp [Phase.Inside, Phase.unaudited]

def Held (w : World) : Prop := ∀ p, w.holder = some p ↔ (w.phase p).Inside

omit [Codecs] [Digests] in
theorem Held.alone (held : w.Held) (one : (w.phase pid).Inside) (other : (w.phase p).Inside) :
    p = pid :=
  Option.some.inj (((held p).mpr other).symm.trans ((held pid).mpr one))

omit [Codecs] [Digests] in
theorem Held.moved {phase : Phase} (held : w.Held) (same : phase.Inside ↔ (w.phase pid).Inside)
    (holder : later.holder = w.holder) (phases : later.phase = Function.update w.phase pid phase) :
    later.Held := by
  intro p
  rw [holder, phases, Function.update_apply, held p]
  split
  case isTrue here => rw [here, same]
  case isFalse => rfl

theorem Held.step (held : w.Held) (step : w.Steps later) : later.Held := by
  cases step with
  | stays => exact held
  | @read pid line rest was next =>
    refine held.moved ?_ rfl rfl
    rw [was]
    exact iff_of_false (inside_handle w.file (request line)).1 id
  | @acquired pid id was free =>
    intro p
    simp only [holder_moved, phase_moved, Option.some.injEq]
    split
    case isTrue here => simp [here, Phase.Inside]
    case isFalse other =>
      have outside := (held p).not.mp (by simp [free])
      exact iff_of_false (fun same => other same.symm) outside
  | staged was => exact held.moved (by rw [was]; exact Iff.rfl) rfl rfl
  | barren was => exact held.moved (by rw [was]; exact Iff.rfl) rfl rfl
  | renamed was => exact held.moved (by rw [was]; exact Iff.rfl) rfl rfl
  | audited was => exact held.moved (by rw [was]; exact Iff.rfl) rfl rfl
  | @left pid id account was =>
    intro p
    have inside : (w.phase pid).Inside := by rw [was]; trivial
    simp only [holder_moved, phase_moved]
    split
    case isTrue => simp [Phase.Inside]
    case isFalse other =>
      exact iff_of_false (fun same => by cases same) fun here => other (held.alone inside here)

def Current (w : World) : Prop := ∀ p id text account, w.phase p = .staged id text account →
  ∃ draws, rotateLocked draws w.file = some (text, account)

theorem Current.step (current : w.Current) (held : w.Held) (step : w.Steps later) :
    later.Current := by
  have moved {pid : Nat} {phase : Phase} (file : later.file = w.file)
      (phases : later.phase = Function.update w.phase pid phase)
      (now : ∀ id text account, phase = .staged id text account →
        ∃ draws, rotateLocked draws w.file = some (text, account)) : later.Current := by
    intro p id text account there
    rw [phases, Function.update_apply] at there
    rw [file]
    split at there
    case isTrue => exact now id text account there
    case isFalse => exact current p id text account there
  cases step with
  | stays => exact current
  | @read pid line rest was next =>
    exact moved rfl rfl fun id text account same =>
      absurd same ((inside_handle w.file _).2.2 id text account)
  | acquired | barren | audited | left => exact moved rfl rfl fun _ _ _ same => by cases same
  | @staged pid id draws text account was made =>
    refine moved rfl rfl fun _ _ _ same => ?_
    cases same
    exact ⟨draws, made⟩
  | @renamed pid id text account was =>
    intro p id' text' account' there
    rw [phase_moved] at there
    split at there
    case isTrue => cases there
    case isFalse other =>
      have inside : (w.phase pid).Inside := by rw [was]; trivial
      exact absurd (held.alone inside (by rw [show w.phase p = _ from there]; trivial)) other

def Owes (w : World) (pending : List Write) : Prop :=
  (∀ p, (w.phase p).unaudited = none) ∧ pending = [] ∨
    ∃ p text, (w.phase p).unaudited = some text ∧ pending = [⟨p, text⟩]

omit [Codecs] [Digests] in
theorem Owes.moved {phase : Phase} {pending : List Write} (owes : w.Owes pending)
    (was : (w.phase pid).unaudited = none) (now : phase.unaudited = none)
    (phases : later.phase = Function.update w.phase pid phase) : later.Owes pending := by
  have same (p : Nat) : (later.phase p).unaudited = (w.phase p).unaudited := by
    rw [phases, Function.update_apply]
    split
    case isTrue here => rw [here, was, now]
    case isFalse => rfl
  simpa only [Owes, same] using owes

omit [Codecs] [Digests] in
theorem inside_of_unaudited {text : String} (h : (w.phase p).unaudited = some text) :
    (w.phase p).Inside := by
  cases there : w.phase p <;> simp_all [Phase.unaudited, Phase.Inside]

omit [Codecs] [Digests] in
theorem Owes.of_inside {pending : List Write} (owes : w.Owes pending) (held : w.Held)
    (inside : (w.phase pid).Inside) :
    pending = ((w.phase pid).unaudited.map fun text => (⟨pid, text⟩ : Write)).toList := by
  rcases owes with ⟨none, rfl⟩ | ⟨p, text, owed, rfl⟩
  · simp [none]
  · cases held.alone inside (inside_of_unaudited owed)
    simp [owed]

def Written (start : String) (w : World) : Prop :=
  ∃ audited pending current, w.file = some current ∧ Chain start (audited ++ pending) current ∧
    Audits audited w.audit ∧ w.Owes pending

theorem Written.step {start : String} (written : w.Written start) (held : w.Held)
    (current : w.Current)
    (step : w.Steps later) : later.Written start := by
  obtain ⟨audited, pending, text, file, chain, audits, owes⟩ := written
  have moved {pid : Nat} {phase : Phase} (was : (w.phase pid).unaudited = none)
    (now : phase.unaudited = none)
      (same : later.file = w.file) (log : later.audit = w.audit)
      (phases : later.phase = Function.update w.phase pid phase) : later.Written start :=
    ⟨audited, pending, text, same.trans file, chain, log ▸ audits, owes.moved was now phases⟩
  cases step with
  | stays => exact ⟨audited, pending, text, file, chain, audits, owes⟩
  | read was => exact moved (by rw [was]; rfl) (inside_handle w.file _).2.1 rfl rfl rfl
  | acquired was | staged was | barren was | left was =>
    exact moved (by rw [was]; rfl) rfl rfl rfl rfl
  | @renamed pid id written account was =>
    have none : pending = [] := by
      rw [owes.of_inside held (show (w.phase pid).Inside by rw [was]; trivial), was]
      rfl
    subst none
    obtain ⟨draws, made⟩ := current pid id written account was
    rw [file] at made
    refine ⟨audited, [⟨pid, written⟩], written, rfl, ?_, audits, .inr ⟨pid, written, ?_, rfl⟩⟩
    · rw [List.append_nil] at chain
      exact chain.snoc pid made
    · simp [Phase.unaudited]
  | @audited pid id written account was time =>
    have inside : (w.phase pid).Inside := by rw [was]; trivial
    have owed : pending = [⟨pid, written⟩] := by
      rw [owes.of_inside held inside, was]
      rfl
    subst owed
    refine ⟨audited ++ [⟨pid, written⟩], [], text,
      file, by rwa [List.append_nil], ?_, .inl ⟨fun p => ?_, rfl⟩⟩
    · exact List.rel_append audits (.cons ⟨time, rfl⟩ .nil)
    · rw [phase_moved]
      split
      case isTrue => rfl
      case isFalse other =>
        cases quiet : (w.phase p).unaudited with
        | none => rfl
        | some owed => exact absurd (held.alone inside (inside_of_unaudited quiet)) other

/-- Before any process has read a line. -/
def Fresh (start : String) (w : World) : Prop :=
  w.file = some start ∧ w.audit = [] ∧ w.holder = none ∧ (∀ p, w.phase p = .idle) ∧
    ∀ p, w.sent p = []

structure Orderly (start : String) (w : World) : Prop where
  held : w.Held
  current : w.Current
  written : w.Written start

theorem Fresh.orderly {start : String} (fresh : w.Fresh start) : w.Orderly start := by
  obtain ⟨file, audit, holder, phase, _⟩ := fresh
  refine ⟨fun p => ?_, fun p id text account there => ?_,
    [], [], start, file, .nil, audit ▸ .nil, .inl ⟨fun p => ?_, rfl⟩⟩
  · simp [holder, phase, Phase.Inside]
  · cases (phase p).symm.trans there
  · rw [phase]
    rfl

theorem Orderly.next {start : String} (orderly : w.Orderly start) (act : Act) :
    (next act w).Orderly start :=
  have step := next_steps act w
  ⟨orderly.held.step step, orderly.current.step orderly.held step,
    orderly.written.step orderly.held orderly.current step⟩

theorem orderly_run {start : String} (fresh : w.Fresh start) (acts : List Act) :
    (Machine.after World.next acts w).Orderly start :=
  Machine.invariant_always (fun act _ orderly => orderly.next act) acts fresh.orderly

theorem last_audit {start current : String} {writes : List Write} {audit : List String}
    (chain : Chain start writes current)
    (audits : Audits writes audit) : ∀ line ∈ audit.getLast?, ∃ p time,
      line = auditLine p current time := by
  intro line last
  obtain ⟨earlier, same⟩ := List.getLast?_eq_some_iff.mp last
  subst same
  cases chain with
  | nil =>
    cases h : earlier <;> (subst h; cases audits)
  | snoc p chain made =>
    have back := List.forall₂_reverse_iff.mpr audits
    simp only [List.reverse_append, List.reverse_singleton, List.singleton_append] at back
    obtain ⟨⟨time, same⟩, _⟩ := List.forall₂_cons.mp back
    exact ⟨p, time, same⟩

/-- In any order of the steps of any number of processes, rotations come one after another: the text
in the file was made of the start by them, each upon what the one before it wrote, and the audit log
has a line for each, in order, once no process is on its way to the log; the last line is then that
of the file. -/
theorem rotations_serialized {start : String} (fresh : w.Fresh start) (acts : List Act) :
    let later := Machine.after World.next acts w
    (∀ p q, (later.phase p).Inside → (later.phase q).Inside → p = q) ∧
      ∃ writes current, later.file = some current ∧ Chain start writes current ∧
        ((∀ p, (later.phase p).unaudited = none) → Audits writes later.audit ∧
          ∀ line ∈ later.audit.getLast?, ∃ p time, line = auditLine p current time) := by
  obtain ⟨held, _, audited, pending, current, file, chain, audits, owes⟩ := orderly_run fresh acts
  refine ⟨fun p q one other => held.alone other one, _, current, file, chain, fun settled => ?_⟩
  rcases owes with ⟨_, rfl⟩ | ⟨p, text, owed, _⟩
  · rw [List.append_nil] at chain ⊢
    exact ⟨audits, last_audit chain audits⟩
  · rw [settled p] at owed
    cases owed

end World

end Laws

section

@[reducible] def bareCodecs : Codecs where
  isPrintable _ := false
  decoded _ := none
  double _ := .nan
  surrogate _ := '?'

@[reducible] def bareDigests : Digests := ⟨id⟩

attribute [local instance] bareCodecs bareDigests

def acctCredentials : List (String × Json) := [("tokens", .obj [("account_id", .str "acct")])]

def refreshLine (pid : Nat) : String :=
  (Json.obj [("method", .str "account/read"), ("id", .int pid),
    ("params", .obj [("refreshToken", .bool true)])]).dumps

def twoRefreshers : World where
  file := some (Json.obj acctCredentials).dumps
  inbox pid := if pid < 2 then [refreshLine pid] else []

theorem fresh_twoRefreshers : twoRefreshers.Fresh (Json.obj acctCredentials).dumps :=
  ⟨rfl, rfl, rfl, fun _ => rfl, fun _ => rfl⟩

def oneDraw (token : String) : Draws := ⟨token, .nan, .nan, readable_nan⟩

def raced : List Act :=
  [.readLine 0, .readLine 1, .acquire 1, .acquire 0, .load 1 (oneDraw "b"), .rename 1,
    .append 1 .nan, .acquire 0,
    .release 1, .acquire 0, .load 0 (oneDraw "a"), .rename 0, .append 0 .nan, .release 0]

theorem rotations_raced :
    let later := Machine.after World.next raced twoRefreshers
    (∀ p q, (later.phase p).Inside → (later.phase q).Inside → p = q) ∧
      ∃ writes current, later.file = some current ∧
        Chain (Json.obj acctCredentials).dumps writes current ∧
        ((∀ p, (later.phase p).unaudited = none) → Audits writes later.audit ∧
          ∀ line ∈ later.audit.getLast?, ∃ p time, line = auditLine p current time) :=
  World.rotations_serialized fresh_twoRefreshers raced

end

end BlizzardMock.Harness.Codex
