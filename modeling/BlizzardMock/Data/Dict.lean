import Mathlib.Algebra.Ring.Int.Defs
import Mathlib.Algebra.Ring.Nat
import Mathlib.Data.List.Nodup

universe u v w

namespace BlizzardMock

structure Dict (κ : Type u) (ν : Type v) where
  entries : List (κ × ν)
  nodup : (entries.map Prod.fst).Nodup
  deriving DecidableEq

namespace Dict

variable {κ : Type u} {ν : Type v}

@[ext] theorem ext {d e : Dict κ ν} (h : d.entries = e.entries) : d = e := by
  cases d; cases e; cases h; rfl

def empty : Dict κ ν := ⟨[], List.nodup_nil⟩

instance : EmptyCollection (Dict κ ν) := ⟨empty⟩
instance : Inhabited (Dict κ ν) := ⟨∅⟩

def keys (d : Dict κ ν) : List κ := d.entries.map Prod.fst
def values (d : Dict κ ν) : List ν := d.entries.map Prod.snd

variable [DecidableEq κ]

def findEntry (k : κ) : List (κ × ν) → Option ν
  | [] => none
  | (a, x) :: rest => if a = k then some x else findEntry k rest

def assign (k : κ) (x : ν) : List (κ × ν) → List (κ × ν)
  | [] => [(k, x)]
  | (a, y) :: rest => if a = k then (k, x) :: rest else (a, y) :: assign k x rest

theorem mem_of_findEntry {k : κ} {x : ν} {l : List (κ × ν)} (h : findEntry k l = some x) :
    (k, x) ∈ l := by
  induction l with
  | nil => simp [findEntry] at h
  | cons e rest ih =>
    obtain ⟨a, y⟩ := e
    by_cases hk : a = k
    · simp only [findEntry, hk, if_true, Option.some.injEq] at h
      simp [hk, h]
    · simp only [findEntry, hk, if_false] at h
      exact List.mem_cons_of_mem _ (ih h)

theorem findEntry_of_mem {k : κ} {x : ν} {l : List (κ × ν)} (hn : (l.map Prod.fst).Nodup)
    (h : (k, x) ∈ l) : findEntry k l = some x := by
  induction l with
  | nil => simp at h
  | cons e rest ih =>
    obtain ⟨a, y⟩ := e
    rw [List.map_cons, List.nodup_cons] at hn
    rcases List.mem_cons.mp h with heq | hrest
    · cases heq
      simp [findEntry]
    · have hne : a ≠ k := by
        rintro rfl
        exact hn.1 (List.mem_map.mpr ⟨(a, x), hrest, rfl⟩)
      simp [findEntry, hne, ih hn.2 hrest]

theorem findEntry_assign (k k' : κ) (x : ν) (l : List (κ × ν)) :
    findEntry k' (assign k x l) = if k' = k then some x else findEntry k' l := by
  induction l with
  | nil => simp [assign, findEntry, eq_comm]
  | cons e rest ih =>
    obtain ⟨a, y⟩ := e
    by_cases hk : a = k
    · subst hk
      by_cases hk' : k' = a
      · simp [assign, findEntry, hk']
      · simp [assign, findEntry, hk', Ne.symm hk']
    · simp only [assign, hk, if_false, findEntry, ih]
      by_cases ha : a = k'
      · subst ha
        simp [hk]
      · simp [ha]

theorem mem_keys_assign {k a : κ} {x : ν} {l : List (κ × ν)}
    (h : a ∈ (assign k x l).map Prod.fst) : a = k ∨ a ∈ l.map Prod.fst := by
  induction l with
  | nil => exact .inl (by simpa [assign] using h)
  | cons e rest ih =>
    obtain ⟨b, y⟩ := e
    by_cases hb : b = k
    · simp only [assign, hb, if_true, List.map_cons, List.mem_cons] at h ⊢
      tauto
    · simp only [assign, hb, if_false, List.map_cons, List.mem_cons] at h ⊢
      rcases h with h | h
      · exact .inr (.inl h)
      · exact (ih h).imp_right .inr

theorem nodup_assign {k : κ} {x : ν} {l : List (κ × ν)} (hn : (l.map Prod.fst).Nodup) :
    ((assign k x l).map Prod.fst).Nodup := by
  induction l with
  | nil => simp [assign]
  | cons e rest ih =>
    obtain ⟨a, y⟩ := e
    rw [List.map_cons, List.nodup_cons] at hn
    by_cases ha : a = k
    · subst ha
      simp [assign, hn.1, hn.2]
    · simp only [assign, ha, if_false, List.map_cons, List.nodup_cons]
      refine ⟨fun hmem => ?_, ih hn.2⟩
      exact (mem_keys_assign hmem).elim ha hn.1

theorem assign_of_findEntry {k : κ} {x : ν} {l : List (κ × ν)} (h : findEntry k l = some x) :
    assign k x l = l := by
  induction l with
  | nil => simp [findEntry] at h
  | cons e rest ih =>
    obtain ⟨a, y⟩ := e
    by_cases ha : a = k
    · simp only [findEntry, ha, if_true, Option.some.injEq] at h
      simp [assign, ha, h]
    · simp only [findEntry, ha, if_false] at h
      simp [assign, ha, ih h]

theorem assign_assign (k : κ) (x y : ν) (l : List (κ × ν)) :
    assign k y (assign k x l) = assign k y l := by
  induction l with
  | nil => simp [assign]
  | cons e rest ih =>
    obtain ⟨a, z⟩ := e
    by_cases ha : a = k
    · simp [assign, ha]
    · simp [assign, ha, ih]

theorem assign_of_findEntry_none {k : κ} {x : ν} {l : List (κ × ν)} (h : findEntry k l = none) :
    assign k x l = l ++ [(k, x)] := by
  induction l with
  | nil => rfl
  | cons e rest ih =>
    obtain ⟨a, y⟩ := e
    by_cases ha : a = k
    · simp [findEntry, ha] at h
    · simp only [findEntry, ha, if_false] at h
      simp [assign, ha, ih h]

theorem findEntry_filter_ne (k k' : κ) (l : List (κ × ν)) :
    findEntry k' (l.filter (·.1 ≠ k)) = if k' = k then none else findEntry k' l := by
  induction l with
  | nil => simp [findEntry]
  | cons e rest ih =>
    obtain ⟨a, y⟩ := e
    by_cases ha : a = k
    · subst ha
      by_cases hk : k' = a
      · simp_all
      · simp_all [findEntry, Ne.symm hk]
    · simp only [ne_eq, ha, not_false_eq_true, decide_true, List.filter_cons_of_pos, findEntry]
      by_cases hk : a = k'
      · subst hk
        simp [ha]
      · simp only [hk, if_false]
        exact ih

def get? (d : Dict κ ν) (k : κ) : Option ν := findEntry k d.entries

def set (d : Dict κ ν) (k : κ) (x : ν) : Dict κ ν :=
  ⟨assign k x d.entries, nodup_assign d.nodup⟩

def erase (d : Dict κ ν) (k : κ) : Dict κ ν :=
  ⟨d.entries.filter (·.1 ≠ k), (List.filter_sublist.map Prod.fst).nodup d.nodup⟩

def setdefault (d : Dict κ ν) (k : κ) (x : ν) : Dict κ ν :=
  match d.get? k with
  | some _ => d
  | none => d.set k x

def getD (d : Dict κ ν) (k : κ) (x : ν) : ν := (d.get? k).getD x

def update (d : Dict κ ν) (l : List (κ × ν)) : Dict κ ν := l.foldl (fun d e => d.set e.1 e.2) d

def ofList (l : List (κ × ν)) : Dict κ ν := update ∅ l

def mapValues {μ : Type w} (f : ν → μ) (d : Dict κ ν) : Dict κ μ where
  entries := d.entries.map fun e => (e.1, f e.2)
  nodup := by
    rw [List.map_map]
    exact d.nodup

instance : Membership κ (Dict κ ν) := ⟨fun d k => (d.get? k).isSome = true⟩

instance (k : κ) (d : Dict κ ν) : Decidable (k ∈ d) :=
  inferInstanceAs (Decidable ((d.get? k).isSome = true))

@[simp] theorem get?_empty (k : κ) : (∅ : Dict κ ν).get? k = none := rfl

theorem get?_set (d : Dict κ ν) (k k' : κ) (x : ν) :
    (d.set k x).get? k' = if k' = k then some x else d.get? k' :=
  findEntry_assign k k' x d.entries

@[simp] theorem get?_set_self (d : Dict κ ν) (k : κ) (x : ν) : (d.set k x).get? k = some x := by
  simp [get?_set]

theorem get?_set_of_ne {k k' : κ} (h : k' ≠ k) (d : Dict κ ν) (x : ν) :
    (d.set k x).get? k' = d.get? k' := by
  simp [get?_set, h]

@[simp] theorem getD_set_self (d : Dict κ ν) (k : κ) (x y : ν) : (d.set k x).getD k y = x := by
  simp [getD]

theorem getD_set_of_ne {k k' : κ} (h : k' ≠ k) (d : Dict κ ν) (x y : ν) :
    (d.set k x).getD k' y = d.getD k' y := by
  simp only [getD, get?_set_of_ne h]

theorem get?_erase (d : Dict κ ν) (k k' : κ) :
    (d.erase k).get? k' = if k' = k then none else d.get? k' :=
  findEntry_filter_ne k k' d.entries

theorem get?_mapValues {μ : Type w} (f : ν → μ) (d : Dict κ ν) (k : κ) :
    (d.mapValues f).get? k = (d.get? k).map f := by
  simp only [get?, mapValues]
  induction d.entries with
  | nil => rfl
  | cons e rest ih =>
    obtain ⟨a, x⟩ := e
    simp only [List.map_cons, findEntry]
    split
    · rfl
    · exact ih

theorem get?_of_update {d : Dict κ ν} {l : List (κ × ν)} {k : κ} {x : ν}
    (h : (d.update l).get? k = some x) :
    (k, x) ∈ l ∨ d.get? k = some x := by
  induction l generalizing d with
  | nil => exact .inr h
  | cons entry rest ih =>
    obtain mem | held := ih (d := d.set entry.1 entry.2) h
    · exact .inl (List.mem_cons_of_mem _ mem)
    · rw [get?_set] at held
      split at held
      · next same =>
        obtain rfl := Option.some.inj held
        exact .inl (by rw [same]; exact List.mem_cons_self)
      · exact .inr held

theorem mem_of_get?_ofList {l : List (κ × ν)} {k : κ} {x : ν}
    (h : (ofList l).get? k = some x) : (k, x) ∈ l :=
  (get?_of_update h).resolve_right nofun

theorem get?_update (d e : Dict κ ν) (k : κ) : (d.update e.entries).get? k = (e.get? k).or
      (d.get? k) := by
  suffices ∀ l : List (κ × ν), (l.map Prod.fst).Nodup →
      ∀ d : Dict κ ν, (d.update l).get? k = (findEntry k l).or (d.get? k)
        from this e.entries e.nodup d
  intro l nodup
  induction l with
  | nil => exact fun d => rfl
  | cons entry rest ih =>
    intro d
    obtain ⟨fresh, nodup⟩ := List.nodup_cons.mp nodup
    refine (ih nodup (d.set entry.1 entry.2)).trans ?_
    rw [get?_set, findEntry]
    by_cases here : entry.1 = k
    · subst here
      have none : findEntry entry.1 rest = none := by
        cases found : findEntry entry.1 rest with
        | none => rfl
        | some x => exact absurd (List.mem_map.mpr ⟨(entry.1, x), mem_of_findEntry found, rfl⟩) fresh
      simp [none]
    · simp [here, Ne.symm here]

theorem entries_update (d : Dict κ ν) {l : List (κ × ν)}
    (nodup : ((d.entries ++ l).map Prod.fst).Nodup) :
    (d.update l).entries = d.entries ++ l := by
  induction l generalizing d with
  | nil => exact (List.append_nil _).symm
  | cons e rest ih =>
    have fresh : findEntry e.1 d.entries = none := by
      cases found : findEntry e.1 d.entries with
      | none => rfl
      | some x =>
        rw [List.map_append, List.nodup_append] at nodup
        have held : e.1 ∈ d.entries.map Prod.fst :=
          List.mem_map.mpr ⟨(e.1, x), mem_of_findEntry found, rfl⟩
        exact absurd rfl (nodup.2.2 e.1 held e.1 List.mem_cons_self)
    have added : (d.set e.1 e.2).entries = d.entries ++ [e] := assign_of_findEntry_none fresh
    have behind := ih (d.set e.1 e.2) (by rw [added, List.append_assoc]; exact nodup)
    refine behind.trans ?_
    rw [added, List.append_assoc]
    rfl

@[simp] theorem ofList_entries (d : Dict κ ν) : ofList d.entries = d :=
  ext (entries_update ∅ d.nodup)

theorem set_of_get? {d : Dict κ ν} {k : κ} {x : ν} (h : d.get? k = some x) : d.set k x = d :=
  ext (assign_of_findEntry h)

theorem set_eq_iff {d : Dict κ ν} {k : κ} {x : ν} : d.set k x = d ↔ d.get? k = some x :=
  ⟨fun same => same ▸ d.get?_set_self k x, set_of_get?⟩

@[simp] theorem set_set (d : Dict κ ν) (k : κ) (x y : ν) : (d.set k x).set k y = d.set k y :=
  ext (assign_assign k x y d.entries)

theorem mem_entries {d : Dict κ ν} {k : κ} {x : ν} : (k, x) ∈ d.entries ↔ d.get? k = some x :=
  ⟨findEntry_of_mem d.nodup, mem_of_findEntry⟩

theorem mem_values {d : Dict κ ν} {x : ν} : x ∈ d.values ↔ ∃ k, d.get? k = some x := by
  constructor
  · intro h
    obtain ⟨⟨k, y⟩, he, rfl⟩ := List.mem_map.mp h
    exact ⟨k, mem_entries.mp he⟩
  · rintro ⟨k, h⟩
    exact List.mem_map.mpr ⟨(k, x), mem_entries.mpr h, rfl⟩

theorem mem_keys_of_get? {d : Dict κ ν} {k : κ} {x : ν} (h : d.get? k = some x) : k ∈ d.keys :=
  List.mem_map.mpr ⟨(k, x), mem_entries.mpr h, rfl⟩

theorem get?_of_mem_keys {d : Dict κ ν} {k : κ} (h : k ∈ d.keys) : ∃ x, d.get? k = some x := by
  obtain ⟨⟨_, x⟩, mem, rfl⟩ := List.mem_map.mp h
  exact ⟨x, mem_entries.mp mem⟩

theorem eq_empty_of_get? {d : Dict κ ν} (h : ∀ k, d.get? k = none) : d = ∅ := by
  apply ext
  apply List.eq_nil_iff_forall_not_mem.mpr
  intro e mem
  have held := mem_entries.mp (show (e.1, e.2) ∈ d.entries from mem)
  rw [h] at held
  cases held

theorem mem_iff {d : Dict κ ν} {k : κ} : k ∈ d ↔ ∃ x, d.get? k = some x :=
  Option.isSome_iff_exists

theorem not_mem_iff {d : Dict κ ν} {k : κ} : k ∉ d ↔ d.get? k = none := by
  rw [mem_iff]
  cases d.get? k <;> simp

theorem get?_setdefault (d : Dict κ ν) (k k' : κ) (x : ν) :
    (d.setdefault k x).get? k' = if k' = k then some ((d.get? k).getD x) else d.get? k' := by
  simp only [setdefault]
  cases h : d.get? k with
  | none => simp [get?_set]
  | some y =>
    by_cases hk : k' = k
    · simp [hk, h]
    · simp [hk]

theorem setdefault_eq_iff {d : Dict κ ν} {k : κ} {x : ν} : d.setdefault k x = d ↔
      d.get? k ≠ none := by
  rw [setdefault]
  cases held : d.get? k with
  | none => simp [set_eq_iff, held]
  | some y => simp

theorem set_setdefault (d : Dict κ ν) (k : κ) (x y : ν) : (d.setdefault k x).set k y =
      d.set k y := by
  rw [setdefault]
  cases d.get? k with
  | none => exact d.set_set k x y
  | some _ => rfl

theorem getD_setdefault (d : Dict κ ν) (k k' : κ) (x : ν) :
    (d.setdefault k x).getD k' x = d.getD k' x := by
  simp only [getD, get?_setdefault]
  split
  case isTrue h => simp [h]
  case isFalse => rfl

def total (d : Dict κ ν) (f : κ → ν → Int) : Int := (d.entries.map fun e => f e.1 e.2).sum

omit [DecidableEq κ] in
@[simp] theorem total_empty (f : κ → ν → Int) : (∅ : Dict κ ν).total f = 0 := rfl

theorem sum_assign (f : κ → ν → Int) (k : κ) (x : ν) (l : List (κ × ν)) :
    ((assign k x l).map fun e => f e.1 e.2).sum + (findEntry k l).elim 0 (f k) =
      (l.map fun e => f e.1 e.2).sum + f k x := by
  induction l with
  | nil => simp [assign, findEntry]
  | cons e rest ih =>
    obtain ⟨a, y⟩ := e
    by_cases ha : a = k
    · subst ha
      simp only [assign, findEntry, if_true, List.map_cons, List.sum_cons, Option.elim_some]
      omega
    · simp only [assign, findEntry, ha, if_false, List.map_cons, List.sum_cons]
      omega

theorem total_set (d : Dict κ ν) (f : κ → ν → Int) (k : κ) (x : ν) :
    (d.set k x).total f + (d.get? k).elim 0 (f k) = d.total f + f k x :=
  sum_assign f k x d.entries

end Dict

end BlizzardMock
