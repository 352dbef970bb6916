import BlizzardMock.Harness.Codex.RotationLaws

namespace BlizzardMock.Harness.Codex

open JsonText

section Laws

variable [Codecs]

/-- A text that holds credentials of an account. -/
def Holds (account text : String) : Prop :=
  ∃ data tokens, credentials (some text) = some (data, tokens) ∧ Readable (.obj data) ∧
    accountIdOf tokens = some account

theorem credentials_some {text : String} {data tokens : List (String × Json)} :
    credentials (some text) = some (data, tokens) ↔
      loadsText text = .ok (.obj data) ∧ Json.lookup "tokens" data = some (.obj tokens) := by
  simp only [credentials, Option.map_some]
  constructor
  · intro h
    split at h
    case h_1 data' read =>
      split at h
      case h_1 tokens' found =>
        cases h
        exact ⟨Option.some.inj read, found⟩
      case h_2 => cases h
    case h_2 => cases h
  · rintro ⟨read, found⟩
    rw [read]
    simp only [found]

theorem loadsText_dumps {fields : List (String × Json)} (readable : Readable (.obj fields)) :
    loadsText (Json.obj fields).dumps = .ok (.obj fields) := by
  rw [loadsText, if_neg, parse_dumps readable]
  rw [toList_obj]
  simp

omit [Codecs] in
theorem lookup_assign_ne {key other : String} (ne : other ≠ key) (v : Json)
    (l : List (String × Json)) :
    Json.lookup other (Dict.assign key v l) = Json.lookup other l := by
  rw [lookup_eq_findEntry, Dict.findEntry_assign, if_neg ne, lookup_eq_findEntry]

theorem accountIdOf_renewed (draws : Draws) (tokens : List (String × Json)) :
    accountIdOf (renewed draws tokens) = accountIdOf tokens := by
  simp only [accountIdOf, renewed]
  rw [lookup_assign_ne (by decide), lookup_assign_ne (by decide)]

theorem lookup_rotated (draws : Draws) (data tokens : List (String × Json)) :
    Json.lookup "tokens" (rotated draws data tokens) = some (.obj (renewed draws tokens)) := by
  rw [rotated, lookup_assign_ne (by decide), lookup_eq_findEntry, Dict.findEntry_assign, if_pos rfl]

theorem readable_rotated (draws : Draws) {data tokens : List (String × Json)}
    (readable : Readable (.obj data))
    (found : Json.lookup "tokens" data = some (.obj tokens)) :
    Readable (.obj (rotated draws data tokens)) := by
  have inner : Readable (.obj (renewed draws tokens)) :=
    ((readable.of_lookup found).assign (v := .str _) trivial).assign (v := .str _) trivial
  exact (readable.assign inner).assign (v := .float _) draws.refreshed.readable

theorem Holds.rotate {account text written : String} {found : Option String} {draws : Draws}
    (holds : Holds account text) (made : rotateLocked draws (some text) = some (written, found)) :
    found = some account ∧ Holds account written := by
  obtain ⟨data, tokens, read, readable, id⟩ := holds
  have there := (credentials_some.mp read).2
  have whole := readable_rotated draws readable there
  rw [rotateLocked, read] at made
  cases made
  refine ⟨id, _, _, credentials_some.mpr ⟨loadsText_dumps whole, lookup_rotated draws data tokens⟩,
    whole, ?_⟩
  rw [accountIdOf_renewed, id]

theorem Holds.rotates {account text : String} (holds : Holds account text) (draws : Draws) :
    (rotateLocked draws (some text)).isSome := by
  obtain ⟨data, tokens, read, _⟩ := holds
  simp [rotateLocked, read]

theorem Holds.readAccount {account text : String} (holds : Holds account text)
    (named : account ≠ "") :
    readAccount (some text) = some account := by
  obtain ⟨data, tokens, read, _, id⟩ := holds
  simp [Codex.readAccount, read, id, named]

/-- A message that tells of no other account. -/
inductive Tells (account : String) : Json → Prop
  | plain (id : Json) : Tells account (reply id [])
  | notice (method : String) : Tells account (notify method)
  | told (id : Json) : Tells account (reply id (accountResult (some account)))

def Phase.Serves (account : String) : Phase → Prop
  | .staged _ text found => Holds account text ∧ found = some account
  | .renamed _ _ found | .leaving _ found => found = some account
  | _ => True

namespace World

variable {w later : World} {account : String}

structure Serving (account : String) (w : World) : Prop where
  holds : ∃ text, w.file = some text ∧ Holds account text
  phase : ∀ p, (w.phase p).Serves account
  sent : ∀ p, ∀ message ∈ w.sent p, Tells account message

theorem tells_handle {text : String} (holds : Holds account text) (named : account ≠ "")
    (request : Request) :
    (handle (some text) request).1.Serves account ∧
      ∀ message ∈ (handle (some text) request).2, Tells account message := by
  fun_cases handle (some text) request with
  | case3 id => simp [Phase.Serves, holds.readAccount named, Tells.told]
  | _ => simp [Phase.Serves, Tells.plain, Tells.notice]

theorem Serving.moved {pid : Nat} {phase : Phase} {messages : List Json}
    (serving : w.Serving account)
    (holds : ∃ text, w.file = some text ∧ Holds account text) (serves : phase.Serves account)
    (tells : ∀ message ∈ messages, Tells account message) :
    (w.moved pid phase messages).Serving account := by
  refine ⟨holds, fun p => ?_, fun p message mem => ?_⟩
  · rw [phase_moved]
    split
    case isTrue => exact serves
    case isFalse => exact serving.phase p
  · rw [sent_moved] at mem
    split at mem
    case isTrue => exact (List.mem_append.mp mem).elim (serving.sent pid message) (tells message)
    case isFalse => exact serving.sent p message mem

variable [Digests]

theorem Serving.step (serving : w.Serving account) (named : account ≠ "") (step : w.Steps later) :
    later.Serving account := by
  obtain ⟨text, file, holds⟩ := serving.holds
  have silent : ∀ message ∈ ([] : List Json), Tells account message := by simp
  cases step with
  | stays => exact serving
  | @read pid line rest was next =>
    have told := tells_handle holds named (request line)
    rw [← file] at told
    exact Serving.moved ⟨serving.holds, serving.phase, serving.sent⟩ serving.holds told.1 told.2
  | acquired =>
    exact Serving.moved ⟨serving.holds, serving.phase, serving.sent⟩ serving.holds trivial silent
  | staged was made =>
    rw [file] at made
    obtain ⟨found, written⟩ := holds.rotate made
    exact serving.moved serving.holds ⟨written, found⟩ silent
  | @barren pid id draws was bare =>
    have rotates := holds.rotates draws
    rw [← file, bare] at rotates
    cases rotates
  | @renamed pid id written found was =>
    have served := serving.phase pid
    rw [was] at served
    exact Serving.moved ⟨⟨written, rfl, served.1⟩, serving.phase, serving.sent⟩
      ⟨written, rfl, served.1⟩ served.2 silent
  | @audited pid id written found was time =>
    have served := serving.phase pid
    rw [was] at served
    exact Serving.moved ⟨serving.holds, serving.phase, serving.sent⟩ serving.holds served silent
  | @left pid id found was =>
    have served : found = some account := by
      have served := serving.phase pid
      rwa [was] at served
    subst served
    refine Serving.moved ⟨serving.holds, serving.phase, serving.sent⟩ serving.holds trivial ?_
    simpa using Tells.told id

/-- Whatever the interleaving, no process is told another account than the one the file was begun
with, nor that there is none, and the file holds its credentials throughout. -/
theorem account_kept {start : String} (fresh : w.Fresh start) (holds : Holds account start)
    (named : account ≠ "")
    (acts : List Act) :
    let later := Machine.after World.next acts w
    readAccount later.file = some account ∧ ∀ p, ∀ message ∈ later.sent p,
      Tells account message := by
  have first : w.Serving account := by
    obtain ⟨file, _, _, idle, quiet⟩ := fresh
    exact ⟨⟨start, file, holds⟩, fun p => by rw [idle]; trivial, fun p => by simp [quiet]⟩
  obtain ⟨⟨text, file, held⟩, _, sent⟩ := Machine.invariant_always
    (fun act w (serving : w.Serving account) => serving.step named (next_steps act w)) acts first
  refine ⟨?_, sent⟩
  rw [file]
  exact held.readAccount named

end World

def Request.asks : Request → List Json
  | .handshake id | .accountRead id _ => [id]
  | .other .null | .ignored => []
  | .other id => [id]

def responds : Json → List Json
  | .obj message => (Json.lookup "id" message).toList
  | _ => []

def Phase.pending : Phase → List Json
  | .idle => []
  | .waiting id | .locked id | .staged id _ _ | .renamed id _ _ | .leaving id _ => [id]

namespace World

variable {w later : World} {p : Nat}

def requests (w : World) (p : Nat) : List Json :=
  (w.sent p).flatMap responds ++ (w.phase p).pending ++ (w.inbox p).flatMap fun line =>
    (request line).asks

theorem responds_handle (file : Option String) (request : Request) :
    (handle file request).2.flatMap responds ++ (handle file request).1.pending = request.asks := by
  fun_cases handle file request with
  | case5 id not_null =>
    simp only [Request.asks]
    rfl
  | _ => rfl

theorem requests_moved {pid : Nat} {phase : Phase} {messages : List Json}
    (was : (w.phase pid).pending = messages.flatMap responds ++ phase.pending) :
    (w.moved pid phase messages).requests p = w.requests p := by
  simp only [requests, phase_moved, sent_moved, inbox_moved]
  split
  case isTrue here => simp [here, was]
  case isFalse => rfl

variable [Digests]

theorem requests_step (step : w.Steps later) (p : Nat) : later.requests p = w.requests p := by
  cases step with
  | stays => rfl
  | @read pid line rest was next =>
    have told := responds_handle w.file (request line)
    simp only [requests, phase_moved, sent_moved, inbox_moved, Function.update_apply]
    split
    case isTrue here =>
      rw [here, was, next]
      simp [Phase.pending, ← told]
    case isFalse => rfl
  | acquired was | staged was made | barren was | renamed was | audited was | left was =>
    exact requests_moved (by rw [was]; rfl)

theorem requests_run (acts : List Act) (p : Nat) :
    (Machine.after World.next acts w).requests p = w.requests p :=
  Machine.invariant_always (I := fun later : World => later.requests p = w.requests p)
    (fun act _ same => (requests_step (next_steps act _) p).trans same) acts rfl

theorem Inside.steps (inside : (w.phase p).Inside) : ∃ act, next act w ≠ w := by
  have changed {act : Act} {phase : Phase} (now : (next act w).phase p = phase)
    (other : w.phase p ≠ phase) :
      next act w ≠ w := fun same => other (by rw [← now, same])
  cases was : w.phase p with
  | idle | waiting =>
    rw [was] at inside
    cases inside
  | locked id =>
    let draws : Draws := ⟨"", .nan, .nan, readable_nan⟩
    cases made : rotateLocked draws w.file with
    | some found => exact ⟨.load p draws, changed (by simp [next, was, made]; rfl) (by simp [was])⟩
    | none => exact ⟨.load p draws, changed (by simp [next, was, made]; rfl) (by simp [was])⟩
  | staged id text account => exact ⟨.rename p, changed (by simp [next, was]; rfl) (by simp [was])⟩
  | renamed id text account =>
    exact ⟨.append p .nan, changed (by simp [next, was]; rfl) (by simp [was])⟩
  | leaving id account => exact ⟨.release p, changed (by simp [next, was]; rfl) (by simp [was])⟩

theorem idle_of_stuck (held : w.Held) (stuck : ∀ act, next act w = w) (p : Nat) :
    w.phase p = .idle ∧ w.inbox p = [] := by
  have outside (q : Nat) : ¬ (w.phase q).Inside := by
    intro inside
    obtain ⟨act, moves⟩ := Inside.steps inside
    exact moves (stuck act)
  have free : w.holder = none := by
    cases holder : w.holder with
    | none => rfl
    | some q => exact absurd ((held q).mp holder) (outside q)
  cases was : w.phase p with
  | idle =>
    refine ⟨rfl, ?_⟩
    cases lines : w.inbox p with
    | nil => rfl
    | cons line rest =>
      have same := congrFun (congrArg World.inbox (stuck (.readLine p))) p
      simp [next, was, lines] at same
  | waiting id =>
    have same := congrFun (congrArg World.phase (stuck (.acquire p))) p
    simp [next, was, free] at same
  | _ => exact absurd (show (w.phase p).Inside by rw [was]; trivial) (outside p)

/-- Every process answers what it was asked, each request once and in order: what it has answered,
has in hand and has not read yet is at every point what it was given; and once no process has a step
left, it has answered it all. -/
theorem answered_in_order {start : String} (fresh : w.Fresh start) (acts : List Act) :
    let later := Machine.after World.next acts w
    (∀ p, (later.sent p).flatMap responds ++ (later.phase p).pending ++
        ((later.inbox p).flatMap fun line => (request line).asks) =
          (w.inbox p).flatMap fun line => (request line).asks) ∧
      ((∀ act, next act later = later) →
        ∀ p, (later.sent p).flatMap responds = (w.inbox p).flatMap fun line =>
          (request line).asks) := by
  have kept (p : Nat) : (Machine.after World.next acts w).requests p =
      (w.inbox p).flatMap fun line => (request line).asks := by
    obtain ⟨_, _, _, idle, quiet⟩ := fresh
    rw [requests_run, requests, idle, quiet]
    rfl
  refine ⟨kept, fun stuck p => ?_⟩
  obtain ⟨idle, read⟩ := idle_of_stuck (orderly_run fresh acts).held stuck p
  have all := kept p
  rw [requests, idle, read] at all
  simpa [Phase.pending] using all

end World

end Laws

section

attribute [local instance] bareCodecs bareDigests

theorem holds_twoRefreshers : Holds "acct" (Json.obj acctCredentials).dumps := by
  have readable : Readable (.obj acctCredentials) :=
    ⟨by decide, ⟨by decide, trivial, trivial⟩, trivial⟩
  exact ⟨_, _, credentials_some.mpr ⟨loadsText_dumps readable, rfl⟩, readable, rfl⟩

theorem account_kept_raced :
    let later := Machine.after World.next raced twoRefreshers
    readAccount later.file = some "acct" ∧ ∀ p, ∀ message ∈ later.sent p, Tells "acct" message :=
  World.account_kept fresh_twoRefreshers holds_twoRefreshers (by decide) raced

theorem answered_raced :
    let later := Machine.after World.next raced twoRefreshers
    (∀ p, (later.sent p).flatMap responds ++ (later.phase p).pending ++
        ((later.inbox p).flatMap fun line => (request line).asks) =
          (twoRefreshers.inbox p).flatMap fun line => (request line).asks) ∧
      ((∀ act, World.next act later = later) →
        ∀ p, (later.sent p).flatMap responds = (twoRefreshers.inbox p).flatMap fun line =>
          (request line).asks) :=
  World.answered_in_order fresh_twoRefreshers raced

end

end BlizzardMock.Harness.Codex
