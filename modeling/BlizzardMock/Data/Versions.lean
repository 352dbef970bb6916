import Mathlib.Data.List.Basic
import Mathlib.Data.List.Forall2
import Mathlib.Order.Defs.Unbundled

universe u v

namespace BlizzardMock

section Lists

variable {α : Type u} {R : α → α → Prop}

/-- Each item stays at its place, as far as `R` goes. -/
def Grown (R : α → α → Prop) (xs ys : List α) : Prop :=
  ∀ (i : Nat) (a : α), xs[i]? = some a → ∃ b, ys[i]? = some b ∧ R a b

namespace Grown

theorem refl [Std.Refl R] (xs : List α) : Grown R xs xs := fun _ a found => ⟨a, found, refl_of R a⟩

theorem trans [IsTrans α R] {xs ys zs : List α} (h : Grown R xs ys) (h' : Grown R ys zs) :
    Grown R xs zs := by
  intro i a found
  obtain ⟨b, found, ab⟩ := h i a found
  obtain ⟨c, found, bc⟩ := h' i b found
  exact ⟨c, found, trans_of R ab bc⟩

theorem append [Std.Refl R] (xs more : List α) : Grown R xs (xs ++ more) := by
  intro i a found
  obtain ⟨bound, -⟩ := List.getElem?_eq_some_iff.mp found
  exact ⟨a, (List.getElem?_append_left bound).trans found, refl_of R a⟩

theorem modify [Std.Refl R] {f : α → α} (h : ∀ a, R a (f a)) (xs : List α) (i : Nat) :
    Grown R xs (xs.modify i f) := by
  intro j a found
  rw [List.getElem?_modify, found]
  split
  · exact ⟨f a, rfl, h a⟩
  · exact ⟨a, rfl, refl_of R a⟩

theorem cons {a b : α} {xs ys : List α} (first : R a b) (h : Grown R xs ys) :
    Grown R (a :: xs) (b :: ys) := by
  intro i c found
  cases i with
  | zero =>
    cases found
    exact ⟨b, rfl, first⟩
  | succ i => exact h i c found

theorem of_forall₂ {xs ys : List α} (h : List.Forall₂ R xs ys) : Grown R xs ys := by
  induction h with
  | nil => nofun
  | cons first _ ih => exact cons first ih

end Grown

theorem exists_of_forall₂ {xs ys : List α} {b : α} (h : List.Forall₂ R xs ys) (mem : b ∈ ys) :
    ∃ a ∈ xs, R a b := by
  induction h with
  | nil => cases mem
  | cons first _ ih =>
    obtain rfl | later := List.mem_cons.mp mem
    · exact ⟨_, List.mem_cons_self, first⟩
    · obtain ⟨a, held, related⟩ := ih later
      exact ⟨a, List.mem_cons_of_mem _ held, related⟩

instance [Std.Refl R] [IsTrans α R] : IsPreorder (List α) (Grown R) where
  refl := Grown.refl
  trans _ _ _ := Grown.trans

end Lists

abbrev Versions (κ : Type u) (ν : Type v) := List (κ × ν)

namespace Versions

variable {κ : Type u} {ν : Type v} [DecidableEq κ]

def load : Versions κ ν → κ → Option ν
  | [], _ => none
  | (k', x) :: rest, k => if k' = k then some x else load rest k

def save (versions : Versions κ ν) (k : κ) (x : ν) : Versions κ ν := (k, x) :: versions

@[simp] theorem load_save_self (versions : Versions κ ν) (k : κ) (x : ν) :
    (versions.save k x).load k = some x :=
  if_pos rfl

theorem load_save_of_ne (versions : Versions κ ν) {k k' : κ} (other : k ≠ k') (x : ν) :
    (versions.save k x).load k' = versions.load k' :=
  if_neg other

omit [DecidableEq κ] in
/-- Each version of a file is related to every later one. -/
def Grows (R : ν → ν → Prop) (versions : Versions κ ν) : Prop :=
  versions.Pairwise fun later earlier => later.1 = earlier.1 → R earlier.2 later.2

variable {R : ν → ν → Prop} {versions : Versions κ ν} {k : κ} {x y : ν}

omit [DecidableEq κ] in
theorem grows_nil : Grows R ([] : Versions κ ν) := List.Pairwise.nil

theorem Grows.load [Std.Refl R] (h : versions.Grows R) (mem : (k, x) ∈ versions) :
    ∃ y, versions.load k = some y ∧ R x y := by
  induction versions with
  | nil => cases mem
  | cons entry rest ih =>
    obtain ⟨later, h⟩ := List.pairwise_cons.mp h
    rw [Versions.load]
    split
    case isTrue same =>
      obtain rfl | mem := List.mem_cons.mp mem
      · exact ⟨x, rfl, refl_of R x⟩
      · exact ⟨entry.2, rfl, later (k, x) mem same⟩
    case isFalse other =>
      obtain rfl | mem := List.mem_cons.mp mem
      · exact absurd rfl other
      · exact ih h mem

theorem Grows.save [Std.Refl R] [IsTrans ν R] (h : versions.Grows R)
    (next : ∀ y ∈ versions.load k, R y x) :
    (versions.save k x).Grows R := by
  refine List.pairwise_cons.mpr ⟨fun entry mem same => ?_, h⟩
  obtain ⟨k', e⟩ := entry
  cases same
  obtain ⟨y, found, ey⟩ := Grows.load h mem
  exact trans_of R ey (next y found)

theorem mem_of_load (found : versions.load k = some x) : (k, x) ∈ versions := by
  induction versions with
  | nil => cases found
  | cons entry rest ih =>
    rw [load] at found
    split at found
    case isTrue same =>
      cases same
      cases found
      exact List.mem_cons_self
    case isFalse => exact List.mem_cons_of_mem entry (ih found)

end Versions

end BlizzardMock
