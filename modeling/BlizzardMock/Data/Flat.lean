import Mathlib.Data.List.Basic
import Mathlib.Algebra.Order.Ring.Int

universe u

namespace BlizzardMock.Flat

section Lists

variable {α : Type u} {c : α} {xs xs' ys ys' : List α}

theorem split_at_first (head : c ∉ xs) (head' : c ∉ xs') (same : xs ++ c :: ys = xs' ++ c :: ys') :
    xs = xs' ∧ ys = ys' := by
  induction xs generalizing xs' with
  | nil =>
    cases xs' with
    | nil => exact ⟨rfl, (List.cons.inj same).2⟩
    | cons a rest =>
      rw [(List.cons.inj same).1] at head'
      exact absurd List.mem_cons_self head'
  | cons a rest ih =>
    cases xs' with
    | nil =>
      rw [← (List.cons.inj same).1] at head
      exact absurd List.mem_cons_self head
    | cons a' rest' =>
      obtain ⟨first, same⟩ := List.cons.inj same
      have tails := ih (List.not_mem_of_not_mem_cons head) (List.not_mem_of_not_mem_cons head') same
      exact ⟨congrArg₂ List.cons first tails.1, tails.2⟩

theorem split_at_last (tail : c ∉ ys) (tail' : c ∉ ys') (same : xs ++ c :: ys = xs' ++ c :: ys') :
    xs = xs' ∧ ys = ys' := by
  have reversed : ys.reverse ++ c :: xs.reverse = ys'.reverse ++ c :: xs'.reverse := by
    simpa using congrArg List.reverse same
  have parts := split_at_first (List.mem_reverse.not.mpr tail)
    (List.mem_reverse.not.mpr tail') reversed
  exact ⟨List.reverse_inj.mp parts.2, List.reverse_inj.mp parts.1⟩

variable [DecidableEq α]

theorem takeWhile_before (head : c ∉ xs) (ys : List α) : (xs ++ c :: ys).takeWhile
      (· ≠ c) = xs := by
  rw [List.takeWhile_append_of_pos, List.takeWhile_cons_of_neg (by simp), List.append_nil]
  intro a mem
  exact decide_eq_true fun same => head (same ▸ mem)

theorem dropWhile_before (head : c ∉ xs) (ys : List α) : (xs ++ c :: ys).dropWhile
      (· ≠ c) = c :: ys := by
  rw [List.dropWhile_append_of_pos, List.dropWhile_cons_of_neg (by simp)]
  intro a mem
  exact decide_eq_true fun same => head (same ▸ mem)

end Lists

variable {c : Char} {sep a a' b b' : String}

theorem toList_join (one : sep.toList = [c]) (a b : String) :
    (a ++ sep ++ b).toList = a.toList ++ c :: b.toList := by
  simp [String.toList_append, one]

theorem join_inj_first (one : sep.toList = [c]) (head : c ∉ a.toList) (head' : c ∉ a'.toList)
    (same : a ++ sep ++ b = a' ++ sep ++ b') : a = a' ∧ b = b' := by
  have lists := congrArg String.toList same
  rw [toList_join one, toList_join one] at lists
  have parts := split_at_first head head' lists
  exact ⟨String.toList_inj.mp parts.1, String.toList_inj.mp parts.2⟩

theorem join_inj_last (one : sep.toList = [c]) (tail : c ∉ b.toList) (tail' : c ∉ b'.toList)
    (same : a ++ sep ++ b = a' ++ sep ++ b') : a = a' ∧ b = b' := by
  have lists := congrArg String.toList same
  rw [toList_join one, toList_join one] at lists
  have parts := split_at_last tail tail' lists
  exact ⟨String.toList_inj.mp parts.1, String.toList_inj.mp parts.2⟩

theorem toList_toString (n : Nat) : (toString n).toList = Nat.toDigits 10 n := by
  rw [Nat.toString_eq_repr, Nat.toList_repr]

theorem isDigit_of_mem {n : Nat} (h : c ∈ (toString n).toList) : c.isDigit := by
  rw [toList_toString] at h
  exact Nat.isDigit_of_mem_toDigits (by decide) (by decide) h

theorem notMem_toString (other : c.isDigit = false) (n : Nat) : c ∉ (toString n).toList := by
  intro h
  rw [isDigit_of_mem h] at other
  cases other

theorem toString_inj {m n : Nat} (h : toString m = toString n) : m = n := by
  have digits := congrArg String.toList h
  rw [toList_toString, toList_toString] at digits
  have numbers := congrArg (fun digits => Nat.ofDigitChars 10 digits 0) digits
  simpa using numbers

theorem toString_of_nonneg {i : Int} (h : 0 ≤ i) : toString i = toString i.toNat := by
  obtain ⟨n, rfl⟩ := Int.eq_ofNat_of_zero_le h
  rfl

theorem toString_int_inj {i j : Int} (hi : 0 ≤ i) (hj : 0 ≤ j) (h : toString i = toString j) :
    i = j := by
  rw [toString_of_nonneg hi, toString_of_nonneg hj] at h
  have same := toString_inj h
  omega

theorem notMem_toString_int (other : c.isDigit = false) {i : Int} (h : 0 ≤ i) :
    c ∉ (toString i).toList := by
  rw [toString_of_nonneg h]
  exact notMem_toString other _

end BlizzardMock.Flat
