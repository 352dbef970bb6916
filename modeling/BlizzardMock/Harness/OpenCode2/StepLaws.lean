import BlizzardMock.Harness.OpenCode2.WorkerLaws

namespace BlizzardMock.OpenCode2

theorem foldlM_keeps {α σ : Type} {P : σ → Prop} {f : σ → α → Option σ} {l : List α} {s t : σ}
    (step : ∀ a ∈ l, ∀ {s t}, P s → f s a = some t → P t) (start : P s)
    (h : l.foldlM f s = some t) :
    P t := by
  induction l generalizing s with
  | nil =>
    cases h
    exact start
  | cons a rest ih =>
    rw [List.foldlM_cons] at h
    obtain ⟨mid, first, last⟩ := Option.bind_eq_some_iff.mp h
    exact ih (fun b mem => step b (List.mem_cons_of_mem _ mem))
      (step a List.mem_cons_self start first)
      last

namespace Engine

variable {engine later : Engine}

def parentOf (engine : Engine) (sid : String) : Option String := (engine.get sid).bind (·.parentId)

inductive Under (engine : Engine) (top : String) : String → Prop
  | self : Under engine top top
  | child {sid parent : String} (named : engine.parentOf sid = some parent)
      (above : Under engine top parent) : Under engine top sid

theorem Under.trans {top mid sid : String} (h : engine.Under top mid) (h' : engine.Under mid sid) :
    engine.Under top sid := by
  induction h' with
  | self => exact h
  | child named _ ih => exact .child named ih

theorem Under.congr {top sid : String} (same : later.parentOf = engine.parentOf)
    (h : later.Under top sid) : engine.Under top sid := by
  induction h with
  | self => exact .self
  | child named _ ih => exact .child (same ▸ named) ih

theorem parentOf_of_mem {parent sid : String} (mem : sid ∈ engine.childrenOf parent) :
    engine.parentOf sid = some parent := by
  have named := (List.mem_filter.mp mem).2
  rw [parentOf]
  cases found : engine.get sid with
  | none => simp [found] at named
  | some session => simpa [found] using named

theorem under_of_treeLoop {top : String} {turns index : Nat} {ordered ids : List String}
    (above : ∀ sid ∈ ordered, engine.Under top sid)
    (h : engine.treeLoop turns ordered index = some ids) : ∀ sid ∈ ids, engine.Under top sid := by
  induction turns generalizing ordered index with
  | zero => cases h
  | succ turns ih =>
    rw [treeLoop] at h
    cases at' : ordered[index]? with
    | none =>
      rw [at'] at h
      cases h
      exact above
    | some sid =>
      rw [at'] at h
      refine ih ?_ h
      intro other mem
      cases List.mem_append.mp mem with
      | inl old => exact above other old
      | inr new => exact .child (parentOf_of_mem new) (above sid (List.mem_of_getElem? at'))

theorem under_of_tree {root : String} {ids : List String} (h : engine.tree root = some ids) :
    ∀ sid ∈ ids, engine.Under root sid := by
  refine under_of_treeLoop ?_ h
  intro sid mem
  split at mem
  · cases List.mem_singleton.mp mem
    exact .self
  · cases mem

structure Withdraws (allowed : Nat → Prop) (engine later : Engine) : Prop where
  rest : later = { engine with objects := later.objects }
  objects : ∀ object, later.objects object = engine.objects object ∨
    (allowed object ∧ later.objects object = (engine.objects object).cancelled)

def Filed (engine : Engine) : Prop :=
  ∀ sid object, engine.sessions.get? sid = some object →
    (engine.objects object).id = sid ∧ object < engine.made

end Engine

theorem Session.cancelled_cancelled (session : Session) :
    session.cancelled.cancelled = session.cancelled := by
  simp only [Session.cancelled, Bool.or_assoc, Bool.or_self, Session.mk.injEq, true_and, and_true]
  apply Dict.ext
  simp only [Dict.mapValues, List.map_map]
  rfl

namespace Engine

variable {engine later : Engine} {allowed : Nat → Prop}

theorem Withdraws.refl (allowed : Nat → Prop) (engine : Engine) : Withdraws allowed engine engine :=
  ⟨rfl, fun _ => .inl rfl⟩

theorem Withdraws.mono {wider : Nat → Prop} (h : Withdraws allowed engine later)
    (all : ∀ object, allowed object → wider object) : Withdraws wider engine later :=
  ⟨h.rest, fun object => (h.objects object).imp id fun cancelled =>
    ⟨all object cancelled.1, cancelled.2⟩⟩

theorem Withdraws.trans {last : Engine} (h : Withdraws allowed engine later)
    (h' : Withdraws allowed later last) : Withdraws allowed engine last where
  rest := by
    rw [h'.rest, h.rest]
  objects object := by
    cases h'.objects object with
    | inl same =>
      rw [same]
      exact h.objects object
    | inr cancelled =>
      refine .inr ⟨cancelled.1, ?_⟩
      rw [cancelled.2]
      cases h.objects object with
      | inl same => rw [same]
      | inr before => rw [before.2, Session.cancelled_cancelled]

theorem Withdraws.sessions (h : Withdraws allowed engine later) :
    later.sessions = engine.sessions := by
  rw [h.rest]

theorem Withdraws.parentOf (h : Withdraws allowed engine later) :
    later.parentOf = engine.parentOf := by
  funext sid
  simp only [Engine.parentOf, get, h.sessions]
  cases engine.sessions.get? sid with
  | none => rfl
  | some object =>
    cases h.objects object with
    | inl same => simp [same]
    | inr cancelled => simp [cancelled.2, Session.cancelled]

theorem Withdraws.filed (h : Withdraws allowed engine later) (filed : engine.Filed) :
    later.Filed := by
  intro sid object stored
  rw [h.sessions] at stored
  obtain ⟨id, below⟩ := filed sid object stored
  have made : later.made = engine.made := by rw [h.rest]
  rw [made]
  refine ⟨?_, below⟩
  cases h.objects object with
  | inl same => rw [same, id]
  | inr cancelled => rw [cancelled.2]; exact id

def Below (engine : Engine) (object x : Nat) : Prop :=
  x = object ∨ ∃ sid, engine.sessions.get? sid = some x ∧
    engine.Under (engine.objects object).id sid

theorem withdraws_modify {object : Nat} (may : allowed object) :
    Withdraws allowed engine (engine.modify object Session.cancelled) := by
  refine ⟨rfl, ?_⟩
  intro x
  simp only [modify, Function.update_apply]
  split
  case isTrue same =>
    subst same
    exact .inr ⟨may, rfl⟩
  case isFalse => exact .inl rfl

theorem cancel_below {depth object : Nat} (filed : engine.Filed)
    (h : cancel depth object engine = some later) :
    Withdraws (engine.Below object) (engine.modify object Session.cancelled) later := by
  induction depth generalizing engine later object with
  | zero => cases h
  | succ depth ih =>
    obtain ⟨ids, grown, cancelled⟩ := Option.bind_eq_some_iff.mp h
    have first : Withdraws (engine.Below object) engine (engine.modify object Session.cancelled) :=
      withdraws_modify (.inl rfl)
    have top : ((engine.modify object Session.cancelled).objects object).id =
      (engine.objects object).id := by
      simp [modify, Session.cancelled]
    rw [top] at grown
    refine foldlM_keeps
      (P := Withdraws (engine.Below object) (engine.modify object Session.cancelled)) ?_
      (.refl _ _) cancelled
    intro sid mem s t rest step
    have so_far := first.trans rest
    have under := (under_of_tree grown sid (List.mem_of_mem_tail mem)).congr first.parentOf
    split at step
    case h_1 =>
      cases step
      exact rest
    case h_2 child found =>
      split at step
      case isFalse =>
        cases step
        exact rest
      case isTrue =>
        have filed' := so_far.filed filed
        refine rest.trans (((withdraws_modify (.inl rfl)).trans (ih filed' step)).mono ?_)
        rintro x (same | ⟨other, stored, below⟩)
        · subst same
          exact .inr ⟨sid, so_far.sessions ▸ found, under⟩
        · rw [(filed' sid child found).1] at below
          exact .inr ⟨other, so_far.sessions ▸ stored, under.trans (below.congr so_far.parentOf)⟩

theorem cancel_withdraws {depth object : Nat} (filed : engine.Filed)
    (h : cancel depth object engine = some later) : Withdraws (engine.Below object) engine later :=
  (withdraws_modify (.inl rfl)).trans (cancel_below filed h)

theorem cancel_object {depth object : Nat} (filed : engine.Filed)
    (h : cancel depth object engine = some later) :
    later.objects object = (engine.objects object).cancelled := by
  have cancelled : (engine.modify object Session.cancelled).objects object =
      (engine.objects object).cancelled := by simp [modify]
  cases (cancel_below filed h).objects object with
  | inl same => rw [same, cancelled]
  | inr again => rw [again.2, cancelled, Session.cancelled_cancelled]

/-- A request that withdraws what waits on a session: it interrupts the session or one above it,
that was running, or removes one of them. -/
inductive Covers (engine : Engine) (x : Nat) : Op → Prop
  | interrupt {top sid : String} {object : Nat} (found : engine.sessions.get? top = some object)
      (running : (engine.objects object).running = true)
      (stored : engine.sessions.get? sid = some x) (above : engine.Under top sid) :
      Covers engine x (.interrupt top)
  | remove {top sid : String} (stored : engine.sessions.get? sid = some x)
      (above : engine.Under top sid) : Covers engine x (.remove top)

inductive Move (engine : Engine) (x tickets : Nat) : Op → Session → Prop
  | stays {op : Op} : Move engine x tickets op (engine.objects x)
  | created {sid parent title : String} (new : x = engine.made) :
      Move engine x tickets (.create sid parent title)
        { id := sid, parentId := if parent = "" then none else some parent, title }
  | accepted {op : Op} {item : Item} (ticket : item.ticket = engine.tickets)
      (drawn : tickets = engine.tickets + 1) :
      Move engine x tickets op ((engine.objects x).accept item)
  | told {child : Nat} {entry : Entry} (other : x ≠ child) (ticket : entry.ticket = engine.tickets)
      (drawn : tickets = engine.tickets + 1) :
      Move engine x tickets (.work child .childSettled) ((engine.objects x).hear entry)
  | toldItself {entry : Entry} (ticket : entry.ticket = engine.tickets)
      (drawn : tickets = engine.tickets + 1) :
      Move engine x tickets (.work x .childSettled)
        (((engine.objects x).hear entry).work (fun sid =>
          decide (sid ∈ engine.sessions)) engine.tickets
          .childSettled)
  | worked {step : Section} :
      Move engine x tickets (.work x step)
        ((engine.objects x).work (fun sid => decide (sid ∈ engine.sessions)) engine.tickets step)
  | cancelled {op : Op} (covers : engine.Covers x op) :
      Move engine x tickets op (engine.objects x).cancelled
  | replied {sid decision : String} {request : Nat} {message : Option String} :
      Move engine x tickets (.replyPermission sid request decision message)
        ((engine.objects x).replied request decision message)

theorem Withdraws.move {op : Op} {x tickets : Nat}
    (h : Withdraws (fun x => engine.Covers x op) engine later) :
    engine.Move x tickets op (later.objects x) := by
  cases h.objects x with
  | inl same =>
    rw [same]
    exact .stays
  | inr cancelled =>
    rw [cancelled.2]
    exact .cancelled cancelled.1

theorem interrupt_withdraws {sid : String} {answer : Bool} (filed : engine.Filed)
    (h : engine.interrupt sid = some (answer, later)) :
    Withdraws (fun x => engine.Covers x (.interrupt sid)) engine later := by
  simp only [interrupt] at h
  split at h
  case h_1 => cases h
  case h_2 object found =>
    split at h
    case isTrue =>
      cases h
      exact .refl _ engine
    case isFalse =>
      split at h
      case isTrue running =>
        obtain ⟨last, cancelled, answered⟩ := Option.map_eq_some_iff.mp h
        cases answered
        refine (cancel_withdraws filed cancelled).mono ?_
        rintro x (same | ⟨other, stored, below⟩)
        · exact .interrupt found running (same ▸ found) .self
        · rw [(filed sid object found).1] at below
          exact .interrupt found running stored below
      case isFalse =>
        cases h
        exact .refl _ engine

theorem get?_foldl_erase (doomed : List String) (sessions : Dict String Nat) (sid : String) :
    (doomed.foldl Dict.erase sessions).get? sid = if sid ∈ doomed then none
      else sessions.get? sid := by
  induction doomed generalizing sessions with
  | nil => simp
  | cons first rest ih =>
    rw [List.foldl_cons, ih, Dict.get?_erase]
    by_cases here : sid = first
    · simp [here]
    · simp [here]

theorem remove_withdraws {sid : String} (filed : engine.Filed)
    (h : engine.remove sid = some later) :
    ∃ doomed mid, engine.tree sid = some doomed ∧
      Withdraws (fun x => engine.Covers x (.remove sid)) engine mid ∧
      later = { mid with sessions := doomed.foldl Dict.erase mid.sessions } := by
  obtain ⟨doomed, grown, rest⟩ := Option.bind_eq_some_iff.mp h
  obtain ⟨mid, cancelled, left⟩ := Option.bind_eq_some_iff.mp rest
  cases left
  refine ⟨doomed, mid, grown, ?_, rfl⟩
  refine foldlM_keeps (P := Withdraws (fun x => engine.Covers x (.remove sid)) engine) ?_
    (.refl _ engine) cancelled
  intro other mem s t so_far step
  have under := under_of_tree grown other mem
  split at step
  case h_1 =>
    cases step
    exact so_far
  case h_2 object found =>
    have filed' := so_far.filed filed
    refine so_far.trans ((cancel_withdraws filed' step).mono ?_)
    rintro x (same | ⟨lower, stored, below⟩)
    · subst same
      exact .remove (so_far.sessions ▸ found) under
    · rw [(filed' other object found).1] at below
      exact .remove (so_far.sessions ▸ stored) (under.trans (below.congr so_far.parentOf))

theorem filed_modify {object : Nat} {f : Session → Session} (filed : engine.Filed)
    (same : ∀ session, (f session).id = session.id) : (engine.modify object f).Filed := by
  intro sid x stored
  obtain ⟨id, below⟩ := filed sid x stored
  refine ⟨?_, below⟩
  simp only [modify, Function.update_apply]
  split
  case isTrue here => rw [same, ← here, id]
  case isFalse => exact id

theorem move_modify {op : Op} {object x tickets : Nat} {f : Session → Session}
    (here : x = object → engine.Move x tickets op (f (engine.objects x))) :
    engine.Move x tickets op ((engine.modify object f).objects x) := by
  simp only [modify, Function.update_apply]
  split
  case isTrue same =>
    rw [← same]
    exact here same
  case isFalse => exact .stays

theorem move_enqueue {op : Op} {x : Nat} {sid text : String} {kind : Kind} :
    engine.Move x (engine.enqueue sid kind text).tickets op
      ((engine.enqueue sid kind text).objects x) := by
  simp only [enqueue]
  split
  case h_1 => exact .stays
  case h_2 =>
    simp only [drawn]
    apply move_modify
    intro here
    exact .accepted rfl rfl

theorem move_work {x object : Nat} {step : Section} :
    engine.Move x (engine.work object step).tickets (.work object step)
      ((engine.work object step).objects x) := by
  cases step with
  | childSettled =>
    simp only [work, childSettled]
    split
    case h_1 =>
      refine move_modify ?_
      rintro rfl
      exact .worked
    case h_2 parent =>
      split
      case isFalse =>
        refine move_modify ?_
        rintro rfl
        exact .worked
      case isTrue =>
        simp only [modify, drawn, Function.update_apply]
        split
        case isTrue same =>
          subst same
          split
          case isTrue own =>
            subst own
            exact .toldItself rfl rfl
          case isFalse => exact .worked
        case isFalse other =>
          split
          case isTrue own =>
            subst own
            exact .told other rfl rfl
          case isFalse => exact .stays
  | _ =>
    simp only [work, drawn]
    refine move_modify ?_
    rintro rfl
    exact .worked

theorem moves (filed : engine.Filed) (op : Op) (x : Nat) :
    engine.Move x (next op engine).tickets op ((next op engine).objects x) := by
  cases op with
  | create sid parent title =>
    simp only [next, create]
    split
    case isTrue => exact .stays
    case isFalse =>
      simp only [Function.update_apply]
      split
      case isTrue new => exact .created new
      case isFalse => exact .stays
  | prompt sid text delivery => exact move_enqueue
  | compact sid => exact move_enqueue
  | interrupt sid =>
    simp only [next]
    cases answered : engine.interrupt sid with
    | none => exact .stays
    | some answer => exact (interrupt_withdraws filed answered).move
  | remove sid =>
    simp only [next]
    cases removed : engine.remove sid with
    | none => exact .stays
    | some later =>
      obtain ⟨doomed, mid, _, withdraws, left⟩ := remove_withdraws filed removed
      simp only [Option.getD_some, left]
      exact withdraws.move
  | replyPermission sid request decision message =>
    simp only [next, replyPermission]
    split
    case h_1 => exact .stays
    case h_2 => exact move_modify fun _ => .replied
  | work object step => exact move_work

theorem filed_enqueue {sid text : String} {kind : Kind} (filed : engine.Filed) :
    (engine.enqueue sid kind text).Filed := by
  simp only [enqueue]
  split
  case h_1 => exact filed
  case h_2 => exact filed_modify filed fun _ => Session.accept_id _

theorem filed_work {object : Nat} {step : Section} (filed : engine.Filed) :
    (engine.work object step).Filed := by
  have told : ∀ {later : Engine}, later.Filed →
      (later.modify object
        (·.work (fun sid => decide (sid ∈ engine.sessions)) engine.tickets step)).Filed :=
    fun filed' => filed_modify filed' fun _ => Session.acts.id_eq
  cases step with
  | childSettled =>
    apply told
    simp only [childSettled]
    split
    case h_1 => exact filed
    case h_2 =>
      split
      case isTrue => exact filed_modify filed fun _ => Session.hear_id _
      case isFalse => exact filed
  | _ => exact told filed

theorem filed_next (op : Op) (filed : engine.Filed) : (next op engine).Filed := by
  cases op with
  | create sid parent title =>
    simp only [next, create]
    split
    case isTrue => exact filed
    case isFalse =>
      intro other x stored
      simp only [Dict.get?_set] at stored
      split at stored
      case isTrue same =>
        cases stored
        simp [same]
      case isFalse =>
        obtain ⟨id, below⟩ := filed other x stored
        have older : x ≠ engine.made := by omega
        simp only [Function.update_of_ne older]
        exact ⟨id, by omega⟩
  | prompt sid text delivery => exact filed_enqueue filed
  | compact sid => exact filed_enqueue filed
  | interrupt sid =>
    simp only [next]
    cases answered : engine.interrupt sid with
    | none => exact filed
    | some answer => exact (interrupt_withdraws filed answered).filed filed
  | remove sid =>
    simp only [next]
    cases removed : engine.remove sid with
    | none => exact filed
    | some later =>
      obtain ⟨doomed, mid, _, withdraws, left⟩ := remove_withdraws filed removed
      simp only [Option.getD_some, left]
      intro other x stored
      rw [get?_foldl_erase] at stored
      split at stored
      case isTrue => cases stored
      case isFalse => exact withdraws.filed filed other x stored
  | replyPermission sid request decision message =>
    simp only [next, replyPermission]
    split
    case h_1 => exact filed
    case h_2 => exact filed_modify filed fun _ => Session.replied_id request decision message
  | work object step => exact filed_work filed

@[simp] theorem sessions_enqueue (sid text : String) (kind : Kind) :
    (engine.enqueue sid kind text).sessions = engine.sessions := by
  rw [enqueue]
  split <;> rfl

@[simp] theorem sessions_work (object : Nat) (step : Section) :
    (engine.work object step).sessions = engine.sessions := by
  cases step with
  | childSettled =>
    simp only [work, childSettled, modify, drawn]
    split
    case h_1 => rfl
    case h_2 => split <;> rfl
  | _ => rfl

theorem stored_next (filed : engine.Filed) (op : Op) {sid : String} {object : Nat}
    (stored : (next op engine).sessions.get? sid = some object) :
    engine.sessions.get? sid = some object ∨
      ∃ parent title, op = .create sid parent title ∧ sid ∉ engine.sessions ∧
        object = engine.made := by
  cases op with
  | create made parent title =>
    simp only [next, create] at stored
    split at stored
    case isTrue => exact .inl stored
    case isFalse new =>
      simp only [Dict.get?_set] at stored
      split at stored
      case isTrue same =>
        cases stored
        exact .inr ⟨parent, title, by rw [same], same ▸ new, rfl⟩
      case isFalse => exact .inl stored
  | prompt _ text delivery => exact .inl (by simpa [next, prompt] using stored)
  | compact _ => exact .inl (by simpa [next, compact] using stored)
  | interrupt top =>
    simp only [next] at stored
    cases answered : engine.interrupt top with
    | none =>
      rw [answered] at stored
      exact .inl stored
    | some answer =>
      rw [answered] at stored
      exact .inl ((interrupt_withdraws filed answered).sessions ▸ stored)
  | remove top =>
    simp only [next] at stored
    cases removed : engine.remove top with
    | none =>
      rw [removed] at stored
      exact .inl stored
    | some later =>
      obtain ⟨doomed, mid, _, withdraws, rfl⟩ := remove_withdraws filed removed
      simp only [removed, Option.getD_some, get?_foldl_erase] at stored
      split at stored
      case isTrue => cases stored
      case isFalse => exact .inl (withdraws.sessions ▸ stored)
  | replyPermission top request decision message =>
    simp only [next, replyPermission] at stored
    split at stored
    case h_1 => exact .inl stored
    case h_2 => exact .inl stored
  | work object step => exact .inl (by simpa [next] using stored)

/-- What a step leaves of the service beside its sessions. -/
structure Grows (engine later : Engine) : Prop where
  made : engine.made ≤ later.made
  tickets : engine.tickets ≤ later.tickets
  interruptIgnored : later.interruptIgnored = engine.interruptIgnored

theorem Grows.refl (engine : Engine) : Grows engine engine := ⟨Nat.le_refl _, Nat.le_refl _, rfl⟩

theorem Withdraws.grows (h : Withdraws allowed engine later) : Grows engine later := by
  rw [h.rest]
  exact ⟨Nat.le_refl _, Nat.le_refl _, rfl⟩

theorem grows_enqueue {sid text : String} {kind : Kind} :
    Grows engine (engine.enqueue sid kind text) := by
  simp only [enqueue]
  split
  case h_1 => exact .refl engine
  case h_2 => exact ⟨Nat.le_refl _, Nat.le_succ _, rfl⟩

theorem grows_work {object : Nat} {step : Section} : Grows engine (engine.work object step) := by
  cases step with
  | requestPermission => exact ⟨Nat.le_refl _, Nat.le_succ _, rfl⟩
  | childSettled =>
    simp only [work, childSettled]
    split
    case h_1 => exact ⟨Nat.le_refl _, Nat.le_refl _, rfl⟩
    case h_2 =>
      split
      case isTrue => exact ⟨Nat.le_refl _, Nat.le_succ _, rfl⟩
      case isFalse => exact ⟨Nat.le_refl _, Nat.le_refl _, rfl⟩
  | _ => exact ⟨Nat.le_refl _, Nat.le_refl _, rfl⟩

theorem grows (filed : engine.Filed) (op : Op) : Grows engine (next op engine) := by
  cases op with
  | create sid parent title =>
    simp only [next, create]
    split
    case isTrue => exact .refl engine
    case isFalse => exact ⟨Nat.le_succ _, Nat.le_refl _, rfl⟩
  | prompt sid text delivery => exact grows_enqueue
  | compact sid => exact grows_enqueue
  | interrupt sid =>
    simp only [next]
    cases answered : engine.interrupt sid with
    | none => exact .refl engine
    | some answer => exact (interrupt_withdraws filed answered).grows
  | remove sid =>
    simp only [next]
    cases removed : engine.remove sid with
    | none => exact .refl engine
    | some later =>
      obtain ⟨doomed, mid, _, withdraws, left⟩ := remove_withdraws filed removed
      have grown := withdraws.grows
      rw [Option.getD_some, left]
      exact ⟨grown.made, grown.tickets, grown.interruptIgnored⟩
  | replyPermission sid request decision message =>
    simp only [next, replyPermission]
    split
    case h_1 => exact .refl engine
    case h_2 => exact ⟨Nat.le_refl _, Nat.le_refl _, rfl⟩
  | work object step => exact grows_work

theorem filed_fresh (interruptIgnored : Bool) : (fresh interruptIgnored).Filed :=
  fun _ _ stored => nomatch stored

theorem filed_after (ops : List Op) (interruptIgnored : Bool) :
    (Machine.after next ops (fresh interruptIgnored)).Filed :=
  Machine.invariant_always (fun op _ => filed_next op) ops (filed_fresh interruptIgnored)

theorem always {P : Engine → Prop} (ops : List Op) {interruptIgnored : Bool}
    (start : P (fresh interruptIgnored))
    (step : ∀ op engine, engine.Filed → P engine → P (next op engine)) :
    P (Machine.after next ops (fresh interruptIgnored)) := by
  have kept := Machine.invariant_always (I := fun engine : Engine => engine.Filed ∧ P engine)
    (fun op engine kept => ⟨filed_next op kept.1, step op engine kept.1 kept.2⟩) ops
    ⟨filed_fresh interruptIgnored, start⟩
  exact kept.2

theorem everywhere {P : Session → Nat → Prop} (ops : List Op) (interruptIgnored : Bool)
    (start : P { id := "", parentId := none, title := "" } 0)
    (step : ∀ {engine : Engine} {op : Op} {x tickets : Nat} {session : Session},
      engine.tickets ≤ tickets → P (engine.objects x) engine.tickets →
        engine.Move x tickets op session → P session tickets) (x : Nat) :
    P ((Machine.after next ops (fresh interruptIgnored)).objects x)
      (Machine.after next ops (fresh interruptIgnored)).tickets := by
  apply always (P := fun engine : Engine => P (engine.objects x) engine.tickets) ops start
  intro op engine filed kept
  exact step (grows filed op).tickets kept (moves filed op x)

theorem interruptIgnored_after (ops : List Op) (interruptIgnored : Bool) :
    (Machine.after next ops (fresh interruptIgnored)).interruptIgnored = interruptIgnored := by
  apply always (P := fun engine : Engine => engine.interruptIgnored = interruptIgnored) ops rfl
  intro op engine filed kept
  exact (grows filed op).interruptIgnored.trans kept

end Engine

end BlizzardMock.OpenCode2
