import Mathlib.Data.List.Induction
import BlizzardMock.Data.Spread
import BlizzardMock.Harness.OpenCode2.StepLaws

namespace BlizzardMock.OpenCode2.Engine

variable {engine later : Engine} {sid other parent : String}

def Forest (engine : Engine) : Prop :=
  ∀ sid parent, engine.parentOf sid = some parent → ¬engine.Under sid parent

/-- A session is not created under itself or under one of its own descendants, of sessions that were
created before it and already name it. -/
def Apart (op : Op) (engine : Engine) : Prop :=
  match op with
  | .create sid parent _ => parent ≠ "" → sid ∉ engine.sessions → ¬engine.Under sid parent
  | _ => True

structure IsTree (engine : Engine) (sid : String) (ids : List String) : Prop where
  nodup : ids.Nodup
  first : sid ∈ engine.sessions → ids.head? = some sid
  mem_iff : ∀ other, other ∈ ids ↔ sid ∈ engine.sessions ∧ other ∈ engine.sessions ∧
    engine.Under sid other

theorem parentOf_eq_some : engine.parentOf sid = some parent ↔
    ∃ object, engine.sessions.get? sid = some object ∧ (engine.objects object).parentId =
      some parent := by
  simp [parentOf, get, Option.bind_eq_some_iff]

theorem mem_sessions_of_parentOf (named : engine.parentOf sid = some parent) :
    sid ∈ engine.sessions := by
  obtain ⟨object, stored, _⟩ := parentOf_eq_some.mp named
  exact Dict.mem_iff.mpr ⟨object, stored⟩

theorem childrenOf_eq (engine : Engine) (parent : String) :
    engine.childrenOf parent = engine.sessions.keys.filter fun sid =>
      engine.parentOf sid = some parent := by
  apply List.filter_congr
  intro sid _
  rw [parentOf]
  cases engine.get sid with
  | none => simp
  | some session => simp

theorem mem_childrenOf : sid ∈ engine.childrenOf parent ↔ engine.parentOf sid = some parent := by
  refine ⟨parentOf_of_mem, ?_⟩
  intro named
  obtain ⟨object, stored, _⟩ := parentOf_eq_some.mp named
  rw [childrenOf_eq]
  exact List.mem_filter.mpr ⟨Dict.mem_keys_of_get? stored, by simp [named]⟩

theorem branching (engine : Engine) : Branching engine.childrenOf engine.sessions.keys where
  once parent := engine.sessions.nodup.filter _
  single led led' := by
    rw [mem_childrenOf] at led led'
    exact Option.some.inj (led.symm.trans led')
  within led := List.mem_of_mem_filter led

theorem under_iff : engine.Under sid other ↔
      Relation.ReflTransGen (Walk.Step engine.childrenOf) sid other := by
  constructor
  · intro under
    induction under with
    | self => exact .refl
    | child named _ ih => exact ih.tail (mem_childrenOf.mpr named)
  · intro path
    induction path with
    | refl => exact .self
    | tail _ led ih => exact .child (mem_childrenOf.mp led) ih

theorem rooted_iff : Spreads.Rooted engine.childrenOf sid ↔
    ∀ parent, engine.parentOf sid = some parent → ¬engine.Under sid parent := by
  simp only [Spreads.Rooted, ← under_iff, mem_childrenOf]
  constructor
  · exact fun rooted parent named under => rooted parent under named
  · exact fun apart parent under named => apart parent named under

theorem treeLoop_eq (turns : Nat) (ordered : List String) (index : Nat) :
    engine.treeLoop turns ordered index = spread engine.childrenOf turns ordered index := by
  induction turns generalizing ordered index with
  | zero => rfl
  | succ turns ih =>
    simp only [treeLoop, spread, ih]
    cases ordered[index]? <;> rfl

theorem tree_eq (stored : sid ∈ engine.sessions) : engine.tree sid =
    spread engine.childrenOf (engine.sessions.keys.length + 1) [sid] 0 := by
  rw [tree, if_pos stored, treeLoop_eq]

theorem mem_keys_iff : sid ∈ engine.sessions.keys ↔ sid ∈ engine.sessions := by
  constructor
  · intro mem
    obtain ⟨⟨_, object⟩, held, rfl⟩ := List.mem_map.mp mem
    exact Dict.mem_iff.mpr ⟨object, Dict.mem_entries.mp held⟩
  · intro stored
    obtain ⟨object, held⟩ := Dict.mem_iff.mp stored
    exact Dict.mem_keys_of_get? held

theorem tree_ends (stored : sid ∈ engine.sessions)
    (apart : ∀ parent, engine.parentOf sid = some parent → ¬engine.Under sid parent) :
    ∃ ids, engine.tree sid = some ids := by
  rw [tree_eq stored]
  exact Spreads.walk_ends (branching engine) (mem_keys_iff.mpr stored) (rooted_iff.mpr apart)

theorem treeLoop_forever (named : engine.parentOf sid = some parent)
    (under : engine.Under sid parent)
    (turns : Nat) : engine.treeLoop turns [sid] 0 = none := by
  rw [treeLoop_eq]
  by_contra ended
  obtain ⟨ids, found⟩ := Option.ne_none_iff_exists'.mp ended
  have walk := Spreads.of_walk found
  exact rooted_iff.mp (walk.rooted (branching engine)) parent named under

theorem isTree_of_tree (forest : engine.Forest) {ids : List String}
    (h : engine.tree sid = some ids) :
    engine.IsTree sid ids := by
  by_cases stored : sid ∈ engine.sessions
  · rw [tree_eq stored] at h
    have walk := Spreads.of_walk h
    have once := walk.nodup (branching engine) (rooted_iff.mpr (forest sid))
    rw [List.append_nil] at once
    refine ⟨once, fun _ => by rw [walk.closed]; rfl, fun other => ?_⟩
    rw [walk.mem_iff, ← under_iff]
    refine ⟨fun under => ⟨stored, ?_, under⟩, fun mem => mem.2.2⟩
    cases under with
    | self => exact stored
    | child named _ => exact mem_sessions_of_parentOf named
  · rw [tree, if_neg stored] at h
    cases h
    exact ⟨List.nodup_nil, fun there => absurd there stored, by simp [stored]⟩

theorem tree_total (forest : engine.Forest) (sid : String) :
    ∃ ids, engine.tree sid = some ids ∧ engine.IsTree sid ids := by
  by_cases stored : sid ∈ engine.sessions
  · obtain ⟨ids, ended⟩ := tree_ends stored (forest sid)
    exact ⟨ids, ended, isTree_of_tree forest ended⟩
  · have empty : engine.tree sid = some [] := by
      rw [tree, if_neg stored]
      rfl
    exact ⟨[], empty, isTree_of_tree forest empty⟩

theorem tree_congr (same : later.sessions = engine.sessions)
    (parents : later.parentOf = engine.parentOf) :
    later.tree = engine.tree := by
  have children : later.childrenOf = engine.childrenOf := by
    funext parent
    rw [childrenOf_eq, childrenOf_eq, same, parents]
  funext sid
  simp only [tree, treeLoop_eq, children, same]

theorem tree_shrinks (forest : engine.Forest) {ids lower : List String}
    (tree : engine.IsTree sid ids)
    (below : engine.IsTree other lower) (mem : other ∈ ids.tail) : lower.length < ids.length := by
  obtain ⟨stored, _, under⟩ := (tree.mem_iff other).mp (List.mem_of_mem_tail mem)
  have apart : other ≠ sid := by
    rintro rfl
    obtain ⟨rest, rfl⟩ := List.head?_eq_some_iff.mp (tree.first stored)
    exact (List.nodup_cons.mp tree.nodup).1 mem
  have top : sid ∈ ids := (tree.mem_iff sid).mpr ⟨stored, stored, .self⟩
  have within : lower ⊆ ids.erase sid := by
    intro low held
    obtain ⟨_, there, under'⟩ := (below.mem_iff low).mp held
    refine (List.mem_erase_of_ne ?_).mpr
      ((tree.mem_iff low).mpr ⟨stored, there, under.trans under'⟩)
    rintro rfl
    cases under with
    | self => exact apart rfl
    | child named above => exact forest other _ named (under'.trans above)
  have short := (List.subperm_of_subset below.nodup within).length_le
  rw [List.length_erase_of_mem top] at short
  have some' := List.length_pos_of_mem top
  omega

theorem Withdraws.forest {allowed : Nat → Prop} (h : Withdraws allowed engine later)
    (forest : engine.Forest) :
    later.Forest := by
  intro sid parent named under
  rw [h.parentOf] at named
  exact forest sid parent named (under.congr h.parentOf)

theorem Withdraws.tree {allowed : Nat → Prop} (h : Withdraws allowed engine later) :
    later.tree = engine.tree := tree_congr h.sessions h.parentOf

theorem foldlM_ends {α σ : Type} {P : σ → Prop} {f : σ → α → Option σ} {l : List α}
    (step : ∀ a ∈ l, ∀ s, P s → ∃ t, f s a = some t ∧ P t) {s : σ} (start : P s) :
    ∃ t, l.foldlM f s = some t := by
  induction l generalizing s with
  | nil => exact ⟨s, rfl⟩
  | cons a rest ih =>
    obtain ⟨mid, first, kept⟩ := step a List.mem_cons_self s start
    obtain ⟨last, ended⟩ := ih (fun b mem => step b (List.mem_cons_of_mem _ mem)) kept
    exact ⟨last, by rw [List.foldlM_cons, first]; exact ended⟩

theorem bind_ends {α β : Type} {first : Option α} {f : α → β} (h : ∃ a, first = some a) :
    ∃ b, (first.bind fun a => pure (f a)) = some b := by
  obtain ⟨a, rfl⟩ := h
  exact ⟨f a, rfl⟩

structure Steady (engine later : Engine) : Prop where
  filed : later.Filed
  forest : later.Forest
  sessions : later.sessions = engine.sessions
  tree : later.tree = engine.tree

theorem Steady.withdraws {allowed : Nat → Prop} {last : Engine} (steady : Steady engine later)
    (h : Withdraws allowed later last) : Steady engine last where
  filed := h.filed steady.filed
  forest := h.forest steady.forest
  sessions := h.sessions.trans steady.sessions
  tree := h.tree.trans steady.tree

theorem cancel_ends (depth : Nat) (filed : engine.Filed) (forest : engine.Forest) {object : Nat}
    {ids : List String} (stored : engine.sessions.get? sid = some object)
    (grown : engine.tree sid = some ids) (enough : ids.length ≤ depth) :
    ∃ later, cancel depth object engine = some later := by
  induction depth generalizing engine sid object ids with
  | zero =>
    have member : sid ∈ ids := ((isTree_of_tree forest grown).mem_iff sid).mpr
      ⟨Dict.mem_iff.mpr ⟨object, stored⟩, Dict.mem_iff.mpr ⟨object, stored⟩, .self⟩
    have some' := List.length_pos_of_mem member
    omega
  | succ depth ih =>
    have first : Withdraws (engine.Below object) engine (engine.modify object Session.cancelled) :=
      withdraws_modify (.inl rfl)
    have start : Steady engine (engine.modify object Session.cancelled) :=
      Steady.withdraws ⟨filed, forest, rfl, rfl⟩ first
    have named : ((engine.modify object Session.cancelled).objects object).id = sid := by
      simp [modify, Session.cancelled, (filed sid object stored).1]
    rw [cancel, named]
    simp only [start.tree, grown, Option.bind_eq_bind, Option.bind_some]
    have tree := isTree_of_tree forest grown
    refine foldlM_ends (P := Steady engine) ?_ start
    intro other mem so_far steady
    split
    case h_1 => exact ⟨so_far, rfl, steady⟩
    case h_2 child found =>
      split
      case isFalse => exact ⟨so_far, rfl, steady⟩
      case isTrue =>
        obtain ⟨lower, grown', below⟩ := tree_total forest other
        have smaller := tree_shrinks forest tree below mem
        obtain ⟨last, ended⟩ :=
          ih steady.filed steady.forest found (steady.tree ▸ grown') (by omega)
        exact ⟨last, ended, steady.withdraws (cancel_withdraws steady.filed ended)⟩

theorem cancel_stored (filed : engine.Filed) (forest : engine.Forest) {object : Nat}
    (stored : engine.sessions.get? sid = some object) :
    ∃ later, cancel (engine.sessions.keys.length + 1) object engine = some later := by
  obtain ⟨ids, grown, tree⟩ := tree_total forest sid
  refine cancel_ends _ filed forest stored grown ?_
  have within : ids ⊆ engine.sessions.keys := fun other mem =>
    mem_keys_iff.mpr ((tree.mem_iff other).mp mem).2.1
  have short := (List.subperm_of_subset tree.nodup within).length_le
  omega

theorem interrupt_ends (filed : engine.Filed) (forest : engine.Forest)
    (stored : sid ∈ engine.sessions) :
    ∃ answer, engine.interrupt sid = some answer := by
  obtain ⟨object, found⟩ := Dict.mem_iff.mp stored
  simp only [interrupt, found]
  split
  case isTrue => exact ⟨_, rfl⟩
  case isFalse =>
    split
    case isTrue =>
      obtain ⟨later, ended⟩ := cancel_stored filed forest found
      exact ⟨(true, later), by rw [ended]; rfl⟩
    case isFalse => exact ⟨_, rfl⟩

theorem remove_ends (filed : engine.Filed) (forest : engine.Forest) (sid : String) :
    ∃ later, engine.remove sid = some later := by
  obtain ⟨ids, grown, tree⟩ := tree_total forest sid
  simp only [remove, grown, Option.bind_eq_bind, Option.bind_some]
  apply bind_ends
  refine foldlM_ends (P := Steady engine) ?_ ⟨filed, forest, rfl, rfl⟩
  intro other _ so_far steady
  split
  case h_1 => exact ⟨so_far, rfl, steady⟩
  case h_2 object found =>
    obtain ⟨last, ended⟩ := cancel_stored steady.filed steady.forest found
    exact ⟨last, ended, steady.withdraws (cancel_withdraws steady.filed ended)⟩

theorem entries_foldl_erase (doomed : List String) (sessions : Dict String Nat) :
    (doomed.foldl Dict.erase sessions).entries = sessions.entries.filter (·.1 ∉ doomed) := by
  induction doomed generalizing sessions with
  | nil => simp
  | cons first rest ih =>
    rw [List.foldl_cons, ih, Dict.erase, List.filter_filter]
    apply List.filter_congr
    intro entry _
    simp only [List.mem_cons, not_or, Bool.decide_and, Bool.and_comm, ne_eq]

structure Removes (engine : Engine) (ids : List String) (later : Engine) : Prop where
  entries : later.sessions.entries = engine.sessions.entries.filter (·.1 ∉ ids)
  others : ∀ other ∉ ids, later.get other = engine.get other

theorem removes (filed : engine.Filed) (forest : engine.Forest) {ids : List String}
    (grown : engine.tree sid = some ids) (h : engine.remove sid = some later) :
    engine.Removes ids later := by
  by_cases stored : sid ∈ engine.sessions
  · obtain ⟨doomed, mid, grown', withdraws, rfl⟩ := remove_withdraws filed h
    cases grown.symm.trans grown'
    refine ⟨by rw [entries_foldl_erase, withdraws.sessions], ?_⟩
    intro other apart
    simp only [get, get?_foldl_erase, if_neg apart, withdraws.sessions]
    cases found : engine.sessions.get? other with
    | none => rfl
    | some x =>
      cases withdraws.objects x with
      | inl same => simp [same]
      | inr cancelled =>
        cases cancelled.1 with
        | @remove _ low stored' under =>
          have same : low = other := (filed low x stored').1.symm.trans (filed other x found).1
          subst same
          have mem := (isTree_of_tree forest grown).mem_iff low
          exact absurd (mem.mpr ⟨stored, Dict.mem_iff.mpr ⟨x, found⟩, under⟩) apart
  · have empty : engine.tree sid = some [] := by
      rw [tree, if_neg stored]
      rfl
    cases grown.symm.trans empty
    simp only [remove, empty] at h
    cases h
    exact ⟨by simp, fun other _ => rfl⟩

theorem Move.parentId {op : Op} {x tickets : Nat} {session : Session}
    (move : engine.Move x tickets op session)
    (old : x ≠ engine.made) : session.parentId = (engine.objects x).parentId := by
  cases move with
  | stays => rfl
  | created new => exact absurd new old
  | accepted => exact Session.accept_parentId _
  | told => exact Session.hear_parentId _
  | toldItself => rw [Session.acts.parentId_eq, Session.hear_parentId]
  | worked => exact Session.acts.parentId_eq
  | cancelled => rfl
  | replied => exact Session.replied_parentId _ _ _

theorem parentOf_next (filed : engine.Filed) (op : Op)
    (named : (next op engine).parentOf sid = some parent) :
    engine.parentOf sid = some parent ∨
      ∃ title, op = .create sid parent title ∧ parent ≠ "" ∧ sid ∉ engine.sessions := by
  obtain ⟨object, stored, names⟩ := parentOf_eq_some.mp named
  obtain before | ⟨given, title, rfl, new, rfl⟩ := stored_next filed op stored
  · have old : object ≠ engine.made := Nat.ne_of_lt (filed sid object before).2
    rw [(moves filed op object).parentId old] at names
    exact .inl (parentOf_eq_some.mpr ⟨object, before, names⟩)
  · simp only [next, create, if_neg new, Function.update_self] at names
    split at names
    case isTrue => cases names
    case isFalse some' =>
      cases names
      exact .inr ⟨title, rfl, some', new⟩

theorem under_create {made top low : String}
    (links : ∀ {sid other}, later.parentOf sid = some other →
      engine.parentOf sid = some other ∨ (sid = made ∧ other = parent))
    (under : later.Under top low) :
    engine.Under top low ∨ (engine.Under made low ∧ engine.Under top parent) := by
  induction under with
  | self => exact .inl .self
  | child named _ ih =>
    obtain old | ⟨rfl, rfl⟩ := links named
    · exact ih.imp (.child old) fun both => ⟨.child old both.1, both.2⟩
    · cases ih with
      | inl above => exact .inr ⟨.self, above⟩
      | inr both => exact .inr ⟨.self, both.2⟩

theorem Under.of_links {top : String} (under : engine.Under top sid)
    (links : ∀ {sid parent}, engine.parentOf sid = some parent → later.parentOf sid = some parent) :
    later.Under top sid := by
  induction under with
  | self => exact .self
  | child named _ ih => exact .child (links named) ih

theorem Forest.of_links (forest : engine.Forest)
    (links : ∀ {sid parent}, later.parentOf sid = some parent → engine.parentOf sid = some parent) :
    later.Forest := by
  intro sid parent named under
  exact forest sid parent (links named) (under.of_links links)

theorem forest_create {made title : String} (filed : engine.Filed) (forest : engine.Forest)
    (apart : Apart (.create made parent title) engine) :
    (next (.create made parent title) engine).Forest := by
  by_cases new : parent ≠ "" ∧ made ∉ engine.sessions
  case neg =>
    apply forest.of_links
    intro sid other named
    refine (parentOf_next filed _ named).resolve_right ?_
    rintro ⟨_, ⟨⟩, some', absent⟩
    exact new ⟨some', absent⟩
  case pos =>
    have outside : ¬engine.Under made parent := apart new.1 new.2
    have links : ∀ {sid other},
      (next (.create made parent title) engine).parentOf sid = some other →
        engine.parentOf sid = some other ∨ (sid = made ∧ other = parent) := by
      intro sid other named
      obtain old | ⟨_, ⟨⟩, _⟩ := parentOf_next filed _ named
      · exact .inl old
      · exact .inr ⟨rfl, rfl⟩
    intro sid other named under
    obtain above | ⟨below, beyond⟩ := under_create links under
    · obtain old | ⟨rfl, rfl⟩ := links named
      · exact forest sid other old above
      · exact outside above
    · obtain old | ⟨rfl, rfl⟩ := links named
      · exact outside (.trans (.child old below) beyond)
      · exact outside beyond

theorem forest_next (op : Op) (filed : engine.Filed) (forest : engine.Forest)
    (apart : Apart op engine) :
    (next op engine).Forest := by
  cases op with
  | create made parent title => exact forest_create filed forest apart
  | _ =>
    apply forest.of_links
    intro sid other named
    refine (parentOf_next filed _ named).resolve_right ?_
    rintro ⟨_, ⟨⟩, _⟩

theorem forest_fresh (interruptIgnored : Bool) : (fresh interruptIgnored).Forest := by
  intro sid parent named
  cases named

theorem forest_after {ops : List Op} {interruptIgnored : Bool}
    (apart : Machine.Meets next Apart ops (fresh interruptIgnored)) :
    (Machine.after next ops (fresh interruptIgnored)).Forest := by
  have kept := Machine.invariant (C := Apart) (I := fun engine : Engine =>
    engine.Filed ∧ engine.Forest)
    (fun op engine kept met => ⟨filed_next op kept.1, forest_next op kept.1 kept.2 met⟩) apart
    ⟨filed_fresh interruptIgnored, forest_fresh interruptIgnored⟩
  exact kept.2

theorem create_closes (title : String) (filed : engine.Filed) (some' : parent ≠ "")
    (new : sid ∉ engine.sessions) (under : engine.Under sid parent) :
    (next (.create sid parent title) engine).parentOf sid = some parent ∧
      (next (.create sid parent title) engine).Under sid parent := by
  simp only [next, create, if_neg new]
  constructor
  · refine parentOf_eq_some.mpr ⟨engine.made, ?_⟩
    simp [some']
  · refine under.of_links ?_
    intro low above link
    obtain ⟨object, stored, names⟩ := parentOf_eq_some.mp link
    have older : object ≠ engine.made := Nat.ne_of_lt (filed low object stored).2
    have apart : low ≠ sid := by
      rintro rfl
      exact new (mem_sessions_of_parentOf link)
    refine parentOf_eq_some.mpr ⟨object, ?_⟩
    simp only [Dict.get?_set_of_ne apart, Function.update_of_ne older]
    exact ⟨stored, names⟩

/-- What the tree of a session has to do: its walk ends with the session and each of its descendants
once, and so do an interrupt of the session and its removal, which deletes just that tree. -/
structure Ends (engine : Engine) (sid : String) : Prop where
  tree : ∃ ids, engine.tree sid = some ids ∧ engine.IsTree sid ids ∧
    ∃ later, engine.remove sid = some later ∧ engine.Removes ids later
  interrupt : sid ∈ engine.sessions → ∃ answer, engine.interrupt sid = some answer

theorem Forest.ends (forest : engine.Forest) (filed : engine.Filed) (sid : String) :
    engine.Ends sid := by
  obtain ⟨ids, grown, tree⟩ := tree_total forest sid
  obtain ⟨later, removed⟩ := remove_ends filed forest sid
  exact ⟨⟨ids, grown, tree, later, removed, removes filed forest grown removed⟩,
    interrupt_ends filed forest⟩

/-- The trees of all sessions come to an end in every state of a run just where none of its
creations puts a session under itself or under a descendant of its own. -/
theorem trees_end_iff (ops : List Op) (interruptIgnored : Bool) :
    Machine.Meets next Apart ops (fresh interruptIgnored) ↔
      ∀ before, before <+: ops → ∀ sid,
        (Machine.after next before (fresh interruptIgnored)).Ends sid := by
  constructor
  · rintro apart before ⟨rest, rfl⟩ sid
    have met := (Machine.meets_append before rest _).mp apart
    exact (forest_after met.1).ends (filed_after before interruptIgnored) sid
  · intro ends
    induction ops using List.reverseRecOn with
    | nil => trivial
    | append_singleton before op ih =>
      have earlier := ih fun first within =>
        ends first (within.trans (List.prefix_append before [op]))
      refine (Machine.meets_append before [op] _).mpr ⟨earlier, ?_, trivial⟩
      have last := ends (before ++ [op]) (List.prefix_refl _)
      simp only [Machine.after_append, Machine.after_cons, Machine.after_nil] at last
      cases op with
      | create sid parent title =>
        intro some' new under
        have filed := filed_after before interruptIgnored
        have cycle := create_closes title filed some' new under
        obtain ⟨ids, grown, _⟩ := (last sid).tree
        rw [tree_eq (mem_sessions_of_parentOf cycle.1), ← treeLoop_eq,
          treeLoop_forever cycle.1 cycle.2] at grown
        cases grown
      | _ => trivial

/-- A session created under itself: its tree is walked for ever, by its removal and by an interrupt
of its turn. -/
theorem own_parent_never_ends :
    let engine := Machine.after next [.create "a" "a" "", .prompt "a" "go" none] (fresh false)
    "a" ∈ engine.sessions ∧ (∀ turns, engine.treeLoop turns ["a"] 0 = none) ∧
      engine.remove "a" = none ∧ engine.interrupt "a" = none := by
  intro engine
  have stored : "a" ∈ engine.sessions := by decide
  have named : engine.parentOf "a" = some "a" := rfl
  exact ⟨stored, treeLoop_forever named .self, rfl, rfl⟩

end BlizzardMock.OpenCode2.Engine
