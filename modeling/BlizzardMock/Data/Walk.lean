import Mathlib.Data.List.Nodup
import Mathlib.Logic.Relation

/-! Walks of a worklist: each node is visited at most once, and what it leads to goes on top of the
list. A walk that ends has visited what can be reached, and nothing else. -/

universe u

namespace BlizzardMock

variable {ν : Type u}

/-- The walk of a worklist past the nodes seen comes to an end, with the nodes it visits. -/
inductive Walk (leads : ν → List ν) : List ν → List ν → List ν → Prop
  | done {seen : List ν} : Walk leads [] seen []
  | skip {n : ν} {stack seen visited : List ν} (old : n ∈ seen)
      (rest : Walk leads stack seen visited) :
      Walk leads (n :: stack) seen visited
  | visit {n : ν} {stack seen visited : List ν} (new : n ∉ seen)
      (rest : Walk leads (leads n ++ stack) (n :: seen) visited) :
        Walk leads (n :: stack) seen (n :: visited)

namespace Walk

variable {leads : ν → List ν} {stack seen visited : List ν}

def Step (leads : ν → List ν) (n m : ν) : Prop := m ∈ leads n

theorem unseen (walk : Walk leads stack seen visited) : ∀ n ∈ visited, n ∉ seen := by
  induction walk with
  | done => simp
  | skip _ _ ih => exact ih
  | visit new _ ih =>
    intro n mem
    cases mem with
    | head => exact new
    | tail _ mem => exact fun old => ih n mem (List.mem_cons_of_mem _ old)

theorem nodup (walk : Walk leads stack seen visited) : visited.Nodup := by
  induction walk with
  | done => exact List.nodup_nil
  | skip _ _ ih => exact ih
  | visit _ rest ih =>
    exact List.nodup_cons.mpr ⟨fun mem => rest.unseen _ mem List.mem_cons_self, ih⟩

theorem reached (walk : Walk leads stack seen visited) :
    ∀ n ∈ visited, ∃ m ∈ stack, Relation.ReflTransGen (Step leads) m n := by
  induction walk with
  | done => simp
  | skip _ _ ih =>
    intro n mem
    obtain ⟨m, on, path⟩ := ih n mem
    exact ⟨m, List.mem_cons_of_mem _ on, path⟩
  | @visit first stack _ _ _ _ ih =>
    intro n mem
    cases mem with
    | head => exact ⟨first, List.mem_cons_self, .refl⟩
    | tail _ mem =>
      obtain ⟨m, on, path⟩ := ih n mem
      cases List.mem_append.mp on with
      | inl led => exact ⟨first, List.mem_cons_self, .head led path⟩
      | inr rest => exact ⟨m, List.mem_cons_of_mem _ rest, path⟩

theorem closed (walk : Walk leads stack seen visited) : (∀ n ∈ stack, n ∈ visited ∨ n ∈ seen) ∧
    ∀ n ∈ visited, ∀ m ∈ leads n, m ∈ visited ∨ m ∈ seen := by
  induction walk with
  | done => simp
  | skip old _ ih =>
    refine ⟨fun n mem => ?_, ih.2⟩
    cases mem with
    | head => exact .inr old
    | tail _ mem => exact ih.1 n mem
  | @visit first stack seen visited _ _ ih =>
    have moved : ∀ n, n ∈ visited ∨ n ∈ first :: seen → n ∈ first :: visited ∨ n ∈ seen := by
      intro n
      simp only [List.mem_cons]
      tauto
    refine ⟨fun n mem => ?_, fun n mem m led => ?_⟩
    · cases mem with
      | head => exact .inl List.mem_cons_self
      | tail _ mem => exact moved n (ih.1 n (List.mem_append_right _ mem))
    · cases mem with
      | head => exact moved m (ih.1 m (List.mem_append_left _ led))
      | tail _ mem => exact moved m (ih.2 n mem m led)

theorem mem_iff {start : ν} (walk : Walk leads [start] [] visited) {n : ν} :
    n ∈ visited ↔ Relation.ReflTransGen (Step leads) start n := by
  constructor
  · intro mem
    obtain ⟨m, on, path⟩ := walk.reached n mem
    rwa [List.mem_singleton.mp on] at path
  · intro path
    have closed := walk.closed
    simp only [List.not_mem_nil, or_false] at closed
    induction path with
    | refl => exact closed.1 start List.mem_cons_self
    | tail _ led ih => exact closed.2 _ ih _ led

end Walk

end BlizzardMock
