import Mathlib.Algebra.Order.Ring.Nat
import Mathlib.Data.List.Lex
import Mathlib.Order.Interval.Set.Defs
import Mathlib.Order.Monotone.Basic

universe u

namespace BlizzardMock.Digits

section Order

variable {α : Type u} [LinearOrder α]

theorem append_lt_append_iff {xs xs' ys ys' : List α} (len : xs.length = xs'.length) :
    xs ++ ys < xs' ++ ys' ↔ xs < xs' ∨ xs = xs' ∧ ys < ys' := by
  induction xs generalizing xs' with
  | nil =>
    cases xs' with
    | nil => simp
    | cons a rest => cases len
  | cons a rest ih =>
    cases xs' with
    | nil => cases len
    | cons b rest' =>
      have tails := ih (Nat.succ.inj len)
      simp only [List.cons_append, List.cons_lt_cons_iff, tails, List.cons.injEq]
      constructor
      · rintro (lt | ⟨same, lt | ⟨alike, lt⟩⟩)
        · exact .inl (.inl lt)
        · exact .inl (.inr ⟨same, lt⟩)
        · exact .inr ⟨⟨same, alike⟩, lt⟩
      · rintro ((lt | ⟨same, lt⟩) | ⟨⟨same, alike⟩, lt⟩)
        · exact .inl lt
        · exact .inr ⟨same, .inl lt⟩
        · exact .inr ⟨same, .inr ⟨alike, lt⟩⟩

end Order

variable {α : Type u} (digit : Nat → α) (base : Nat)

/-- The last `width` digits of a number, the last one first. -/
def lowDigits : Nat → Nat → List α
  | 0, _ => []
  | width + 1, n => digit (n % base) :: lowDigits width (n / base)

def numeral (width n : Nat) : List α := (lowDigits digit base width n).reverse

variable {digit base}

theorem numeral_succ (width n : Nat) :
    numeral digit base (width + 1) n = numeral digit base width (n / base) ++
      [digit (n % base)] := by
  simp [numeral, lowDigits]

@[simp] theorem length_numeral (width n : Nat) : (numeral digit base width n).length = width := by
  induction width generalizing n with
  | zero => rfl
  | succ width ih => rw [numeral_succ, List.length_append, ih, List.length_singleton]

theorem lt_iff_div_mod (m n : Nat) : m < n ↔ m / base < n / base ∨ m / base = n / base ∧
      m % base < n % base := by
  have whole := Nat.div_add_mod m base
  have whole' := Nat.div_add_mod n base
  rcases lt_trichotomy (m / base) (n / base) with lt | same | gt
  · have less : m < n := by
      by_contra le
      exact absurd (Nat.div_le_div_right (c := base) (Nat.le_of_not_lt le)) (Nat.not_le.mpr lt)
    exact iff_of_true less (.inl lt)
  · rw [same] at whole
    omega
  · have more : ¬ m < n := fun less =>
      absurd (Nat.div_le_div_right (c := base) less.le) (Nat.not_le.mpr gt)
    exact iff_of_false more (by omega)

theorem strictMonoOn_numeral [LinearOrder α] (positive : 0 < base)
    (ordered : StrictMonoOn digit (Set.Iio base))
    (width : Nat) : StrictMonoOn (numeral digit base width) (Set.Iio (base ^ width)) := by
  induction width with
  | zero =>
    intro m hm n hn lt
    simp only [Nat.pow_zero, Set.mem_Iio] at hm hn
    omega
  | succ width ih =>
    intro m hm n hn lt
    have short {k : Nat} (hk : k ∈ Set.Iio (base ^ (width + 1))) :
      k / base ∈ Set.Iio (base ^ width) :=
      Nat.div_lt_of_lt_mul (by simpa [Nat.pow_succ'] using hk)
    have last (k : Nat) : k % base ∈ Set.Iio base := Nat.mod_lt k positive
    rw [numeral_succ, numeral_succ, append_lt_append_iff (by simp)]
    rcases (lt_iff_div_mod m n).mp lt with high | ⟨same, low⟩
    · exact .inl (ih (short hm) (short hn) high)
    · exact .inr ⟨by rw [same], List.cons_lt_cons_iff.mpr (.inl (ordered (last m) (last n) low))⟩

theorem numerals_lt_iff [LinearOrder α] (positive : 0 < base)
    (ordered : StrictMonoOn digit (Set.Iio base))
    {width width' m m' n n' : Nat} (hm : m < base ^ width) (hm' : m' < base ^ width)
    (hn : n < base ^ width')
    (hn' : n' < base ^ width') :
    numeral digit base width m ++ numeral digit base width' n <
      numeral digit base width m' ++ numeral digit base width' n' ↔ m < m' ∨ m = m' ∧ n < n' := by
  have first := strictMonoOn_numeral positive ordered width
  have second := strictMonoOn_numeral positive ordered width'
  rw [append_lt_append_iff
    (by simp), first.lt_iff_lt hm hm', first.eq_iff_eq hm hm', second.lt_iff_lt hn hn']

def number (place : α → Nat) (base : Nat) (digits : List α) : Nat :=
  digits.foldl (fun n d => n * base + place d) 0

theorem number_append (place : α → Nat) (digits : List α) (last : α) :
    number place base (digits ++ [last]) = number place base digits * base + place last := by
  simp [number]

theorem number_numeral {place : α → Nat} (positive : 0 < base)
    (placed : ∀ d < base, place (digit d) = d)
    {width n : Nat} (hn : n < base ^ width) :
    number place base (numeral digit base width n) = n := by
  induction width generalizing n with
  | zero => simp at hn; subst hn; rfl
  | succ width ih =>
    have short : n / base < base ^ width := Nat.div_lt_of_lt_mul (by simpa [Nat.pow_succ'] using hn)
    rw [numeral_succ, number_append, ih short, placed _ (Nat.mod_lt n positive), Nat.mul_comm,
      Nat.div_add_mod]

theorem leftpad_toDigits {base : Nat} (two : 1 < base) (width n : Nat)
    (hn : n < base ^ (width + 1)) :
    (Nat.toDigits base n).leftpad (width + 1) '0' = numeral Nat.digitChar base (width + 1) n := by
  induction width generalizing n with
  | zero =>
    have one : n < base := by simpa using hn
    rw [Nat.toDigits_of_lt_base one, numeral_succ, Nat.mod_eq_of_lt one]
    rfl
  | succ width ih =>
    have short : n / base < base ^ (width + 1) :=
      Nat.div_lt_of_lt_mul (by simpa [Nat.pow_succ'] using hn)
    rw [numeral_succ, ← ih (n / base) short]
    rcases Nat.lt_or_ge n base with one | more
    · rw [Nat.toDigits_of_lt_base one, Nat.div_eq_of_lt one, Nat.toDigits_zero,
        Nat.mod_eq_of_lt one]
      simp [List.leftpad, ← List.replicate_succ']
    · rw [Nat.toDigits_of_base_le two more]
      simp [List.leftpad]

end BlizzardMock.Digits
