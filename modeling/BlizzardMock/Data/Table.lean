import BlizzardMock.Data.Dict

universe u v

namespace BlizzardMock

structure Table {κ : Type u} {ν : Type v} [DecidableEq κ] (key : ν → κ) where
  dict : Dict κ ν
  filed : ∀ k row, dict.get? k = some row → key row = k

namespace Table

variable {κ : Type u} {ν : Type v} [DecidableEq κ] {key : ν → κ}

def empty : Table key := ⟨∅, fun k row h => by simp at h⟩

instance : EmptyCollection (Table key) := ⟨empty⟩
instance : Inhabited (Table key) := ⟨∅⟩

def get? (t : Table key) (k : κ) : Option ν := t.dict.get? k

def rows (t : Table key) : List ν := t.dict.values

def put (t : Table key) (row : ν) : Table key where
  dict := t.dict.set (key row) row
  filed := by
    intro k other h
    rw [Dict.get?_set] at h
    split at h
    case isTrue hk => cases h; exact hk.symm
    case isFalse => exact t.filed k other h

@[ext] theorem ext {t u : Table key} (h : t.dict = u.dict) : t = u := by
  cases t; cases u; cases h; rfl

@[simp] theorem get?_empty (k : κ) : (∅ : Table key).get? k = none := rfl

theorem get?_put (t : Table key) (row : ν) (k : κ) :
    (t.put row).get? k = if k = key row then some row else t.get? k :=
  Dict.get?_set t.dict (key row) k row

@[simp] theorem get?_put_self (t : Table key) (row : ν) : (t.put row).get? (key row) = some row :=
  Dict.get?_set_self t.dict (key row) row

theorem get?_put_of_ne {k : κ} {row : ν} (h : k ≠ key row) (t : Table key) :
    (t.put row).get? k = t.get? k :=
  Dict.get?_set_of_ne h t.dict row

theorem key_of_get? {t : Table key} {k : κ} {row : ν} (h : t.get? k = some row) : key row = k :=
  t.filed k row h

theorem mem_rows {t : Table key} {row : ν} : row ∈ t.rows ↔ t.get? (key row) = some row := by
  simp only [rows, get?]
  rw [Dict.mem_values]
  constructor
  · rintro ⟨k, h⟩
    rw [t.filed k row h]
    exact h
  · intro h
    exact ⟨key row, h⟩

theorem nodup_rows (t : Table key) : (t.rows.map key).Nodup := by
  have keys : t.rows.map key = t.dict.keys := by
    rw [rows, Dict.values, List.map_map, Dict.keys]
    apply List.map_congr_left
    intro e mem
    exact t.filed e.1 e.2 (Dict.mem_entries.mp mem)
  rw [keys]
  exact t.dict.nodup

theorem put_of_get? {t : Table key} {k : κ} {row : ν} (h : t.get? k = some row) :
    t.put row = t := by
  apply ext
  apply Dict.set_of_get?
  rw [key_of_get? h]
  exact h

theorem put_eq_iff {t : Table key} {row : ν} : t.put row = t ↔ t.get? (key row) = some row :=
  ⟨fun same => same ▸ t.get?_put_self row, put_of_get?⟩

theorem map_get?_put {α : Type*} {t : Table key} {old : ν} {f : ν → α}
    (held : t.get? (key old) = some old) (row : ν)
    (filed : key row = key old) (same : f row = f old) (k : κ) : ((t.put row).get? k).map f =
      (t.get? k).map f := by
  rw [get?_put, filed]
  split
  case isTrue here =>
    rw [here, held]
    exact congrArg some same
  case isFalse => rfl

theorem put_put {row other : ν} (h : key row = key other) (t : Table key) :
    (t.put row).put other = t.put other := by
  apply ext
  change (t.dict.set (key row) row).set (key other) other = t.dict.set (key other) other
  rw [h, Dict.set_set]

theorem rows_put {t : Table key} {row : ν} (new : t.get? (key row) = none) :
    (t.put row).rows = t.rows ++ [row] := by
  simp only [rows, put, Dict.values, Dict.set, Dict.assign_of_findEntry_none new, List.map_append,
    List.map_singleton]

theorem get?_eq_none {t : Table key} {k : κ} : t.get? k = none ↔ k ∉ t.rows.map key := by
  constructor
  · intro none' mem
    obtain ⟨row, held, rfl⟩ := List.mem_map.mp mem
    rw [mem_rows.mp held] at none'
    cases none'
  · intro absent
    cases held : t.get? k with
    | none => rfl
    | some row =>
      have same := t.key_of_get? held
      subst same
      exact absurd (List.mem_map_of_mem (mem_rows.mpr held)) absent

theorem rows_foldl_put {l : List ν} (t : Table key) (once : (t.rows.map key ++ l.map key).Nodup) :
    (l.foldl put t).rows = t.rows ++ l := by
  induction l generalizing t with
  | nil => simp
  | cons row rest ih =>
    have new : t.get? (key row) = none := by
      rw [get?_eq_none]
      intro mem
      exact List.disjoint_of_nodup_append once mem List.mem_cons_self
    have filed := rows_put new
    rw [List.foldl_cons, ih, filed, List.append_assoc]
    · rfl
    · rw [filed, List.map_append, List.append_assoc]
      exact once

theorem rows_foldl_put_empty {l : List ν} (once : (l.map key).Nodup) :
    (l.foldl put (∅ : Table key)).rows = l :=
  rows_foldl_put ∅ once

def Evolves (R : ν → ν → Prop) (t u : Table key) : Prop :=
  ∀ k, Option.Rel R (t.get? k) (u.get? k)

section Evolves

variable {R : ν → ν → Prop}

theorem Evolves.refl (hR : ∀ row, R row row) (t : Table key) : Evolves R t t := by
  intro k
  cases t.get? k with
  | none => exact .none
  | some row => exact .some (hR row)

theorem Evolves.trans (hR : ∀ {a b c}, R a b → R b c → R a c) {t u v : Table key}
    (htu : Evolves R t u) (huv : Evolves R u v) : Evolves R t v := by
  intro k
  have h := htu k
  have h' := huv k
  revert h h'
  cases t.get? k <;> cases u.get? k <;> cases v.get? k <;> intro h h' <;> cases h <;> cases h'
  · exact .none
  · rename_i hab hbc
    exact .some (hR hab hbc)

theorem Evolves.put (hR : ∀ row, R row row) {t : Table key} {old row : ν}
    (held : t.get? (key row) = some old) (h : R old row) : Evolves R t (t.put row) := by
  intro k
  rw [get?_put]
  split
  case isTrue hk =>
    rw [hk, held]
    exact .some h
  case isFalse => exact Evolves.refl hR t k

end Evolves

end Table

end BlizzardMock
