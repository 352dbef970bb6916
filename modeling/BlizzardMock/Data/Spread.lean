import Mathlib.Data.List.Count
import Mathlib.Data.List.Flatten
import BlizzardMock.Data.Walk

/-! Breadth-first walks that keep no record of where they were.  Where every node is led to from one
other at most, such a walk comes to an end just where nothing leads back to its root, and then meets
each node that can be reached once. -/

universe u

namespace BlizzardMock

variable {ν : Type u}

def spread (leads : ν → List ν) : Nat → List ν → Nat → Option (List ν)
  | 0, _, _ => none
  | turns + 1, ordered, index =>
    match ordered[index]? with
    | none => some ordered
    | some n => spread leads turns (ordered ++ leads n) (index + 1)

structure Branching (leads : ν → List ν) (nodes : List ν) : Prop where
  once : ∀ n, (leads n).Nodup
  single : ∀ {n m other}, other ∈ leads n → other ∈ leads m → n = m
  within : ∀ {n other}, other ∈ leads n → other ∈ nodes

inductive Spreads (leads : ν → List ν) (root : ν) : List ν → List ν → Prop
  | start : Spreads leads root [] [root]
  | next {n : ν} {passed ahead : List ν} (walk : Spreads leads root passed (n :: ahead)) :
      Spreads leads root (passed ++ [n]) (ahead ++ leads n)

namespace Spreads

variable {leads : ν → List ν} {nodes passed ahead ids : List ν} {root n : ν} {turns : Nat}

def Rooted (leads : ν → List ν) (root : ν) : Prop :=
  ∀ n, Relation.ReflTransGen (Walk.Step leads) root n → root ∉ leads n

theorem so_far (walk : Spreads leads root passed ahead) :
    passed ++ ahead = root :: passed.flatMap leads := by
  induction walk with
  | start => rfl
  | next _ ih =>
    rw [List.append_assoc, List.singleton_append, ← List.cons_append, ← List.append_assoc, ih]
    simp

theorem reached (walk : Spreads leads root passed ahead) :
    ∀ n ∈ passed ++ ahead, Relation.ReflTransGen (Walk.Step leads) root n := by
  induction walk with
  | start =>
    intro n mem
    rw [List.mem_singleton.mp mem]
  | @next here passed ahead _ ih =>
    intro n mem
    simp only [List.append_assoc, List.singleton_append, List.mem_append, List.mem_cons] at ih mem
    obtain before | same | after | led := mem
    · exact ih n (.inl before)
    · exact ih n (.inr (.inl same))
    · exact ih n (.inr (.inr after))
    · exact (ih here (.inr (.inl rfl))).tail led

theorem nodup (branching : Branching leads nodes) (rooted : Rooted leads root)
    (walk : Spreads leads root passed ahead) : (passed ++ ahead).Nodup := by
  induction walk with
  | start => exact List.nodup_singleton root
  | @next n passed ahead walk ih =>
    rw [List.append_assoc, List.singleton_append, ← List.cons_append, ← List.append_assoc]
    refine ih.append (branching.once n) ?_
    intro m old led
    rw [walk.so_far] at old
    cases old with
    | head => exact rooted n (walk.reached n (by simp)) led
    | tail _ old =>
      obtain ⟨origin, earlier, led'⟩ := List.mem_flatMap.mp old
      cases branching.single led led'
      exact List.disjoint_of_nodup_append ih earlier List.mem_cons_self

theorem among (branching : Branching leads nodes) (known : root ∈ nodes)
    (walk : Spreads leads root passed ahead) : passed ++ ahead ⊆ nodes := by
  rw [walk.so_far]
  intro m mem
  cases mem with
  | head => exact known
  | tail _ mem =>
    obtain ⟨_, _, led⟩ := List.mem_flatMap.mp mem
    exact branching.within led

theorem of_spread (walk : Spreads leads root passed ahead)
    (ended : spread leads turns (passed ++ ahead) passed.length = some ids) :
    Spreads leads root ids [] := by
  induction turns generalizing passed ahead with
  | zero => cases ended
  | succ turns ih =>
    rw [spread, List.getElem?_append_right (Nat.le_refl _), Nat.sub_self] at ended
    cases ahead with
    | nil =>
      cases ended
      rwa [List.append_nil]
    | cons n ahead =>
      refine ih walk.next ?_
      simpa using ended

theorem ends (branching : Branching leads nodes) (known : root ∈ nodes) (rooted : Rooted leads root)
    (walk : Spreads leads root passed ahead) (enough : nodes.length < turns + passed.length) :
    ∃ ids, spread leads turns (passed ++ ahead) passed.length = some ids := by
  induction turns generalizing passed ahead with
  | zero =>
    have short := (List.subperm_of_subset (walk.nodup branching rooted)
      (walk.among branching known)).length_le
    simp only [List.length_append] at short
    omega
  | succ turns ih =>
    rw [spread, List.getElem?_append_right (Nat.le_refl _), Nat.sub_self]
    cases ahead with
    | nil => exact ⟨_, rfl⟩
    | cons n ahead =>
      have later := ih walk.next (by simp only [List.length_append, List.length_singleton]; omega)
      simpa using later

theorem of_walk (ended : spread leads turns [root] 0 = some ids) : Spreads leads root ids [] := by
  have here : Spreads leads root [] [root] := .start
  exact here.of_spread ended

theorem walk_ends (branching : Branching leads nodes) (known : root ∈ nodes)
    (rooted : Rooted leads root) :
    ∃ ids, spread leads (nodes.length + 1) [root] 0 = some ids := by
  have here : Spreads leads root [] [root] := .start
  have ended := here.ends branching known rooted (Nat.lt_succ_self nodes.length)
  exact ended

theorem closed (walk : Spreads leads root ids []) : ids = root :: ids.flatMap leads := by
  have so_far := walk.so_far
  rwa [List.append_nil] at so_far

theorem mem_iff (walk : Spreads leads root ids []) :
    n ∈ ids ↔ Relation.ReflTransGen (Walk.Step leads) root n := by
  constructor
  · intro mem
    exact walk.reached n (List.mem_append_left _ mem)
  · intro path
    induction path with
    | refl =>
      rw [walk.closed]
      exact List.mem_cons_self
    | tail _ led ih =>
      rw [walk.closed]
      exact List.mem_cons_of_mem _ (List.mem_flatMap.mpr ⟨_, ih, led⟩)

theorem rooted (branching : Branching leads nodes) (walk : Spreads leads root ids []) :
    Rooted leads root := by
  classical
  have origin : ∀ {n m : ν}, m ∈ leads n → (ids.flatMap leads).count m = ids.count n := by
    intro n m led
    generalize ids = l
    induction l with
    | nil => rfl
    | cons first rest ih =>
      rw [List.flatMap_cons, List.count_append, List.count_cons, ih, Nat.add_comm]
      congr 1
      by_cases same : first = n
      · subst same
        simpa using List.count_eq_one_of_mem (branching.once first) led
      · have other : m ∉ leads first := fun led' => same (branching.single led' led)
        simp [same, List.count_eq_zero_of_not_mem other]
  have met : ∀ m, ids.count m = (root :: ids.flatMap leads).count m := by
    intro m
    rw [← walk.closed]
  intro n path back
  have least : ids.count root ≤ ids.count n := by
    clear back
    induction path with
    | refl => exact Nat.le_refl _
    | @tail mid last _ led ih =>
      have one_more := met last
      rw [List.count_cons, origin led] at one_more
      omega
  have twice := met root
  rw [List.count_cons_self, origin back] at twice
  omega

end Spreads

end BlizzardMock
