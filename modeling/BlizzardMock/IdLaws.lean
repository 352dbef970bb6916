import BlizzardMock.Data.Digits
import BlizzardMock.Data.Flat
import BlizzardMock.Ids
import Mathlib.Data.String.Basic

namespace BlizzardMock

open Digits

def crockfordDigit (d : Nat) : Char := crockford.getD d '0'

def crockfordPlace (c : Char) : Nat := crockford.idxOf c

def readUlid (id : String) : Nat × Nat :=
  (number crockfordPlace 32 (id.toList.take timeChars),
    number crockfordPlace 32 (id.toList.drop timeChars))

theorem crockfordDigit_ordered : StrictMonoOn crockfordDigit (Set.Iio 32) := by
  have ordered : ∀ m < 32, ∀ n < 32, m < n → crockfordDigit m < crockfordDigit n := by decide
  intro m hm n hn lt
  exact ordered m hm n hn lt

theorem crockfordPlace_digit : ∀ d < 32, crockfordPlace (crockfordDigit d) = d := by decide

theorem encodeChars_eq (n length : Nat) :
    encodeChars n length = lowDigits crockfordDigit 32 length n := by
  induction length generalizing n with
  | zero => rfl
  | succ length ih =>
    have high : (n : Int) / 32 = (n / 32 : Nat) := by omega
    have low : ((n : Int) % 32).toNat = n % 32 := by omega
    rw [encodeChars, lowDigits, high, ih, low, crockfordDigit]

theorem toList_ulid (t r : Nat) :
    (ulid t r).toList = numeral crockfordDigit 32 timeChars t ++
      numeral crockfordDigit 32 randChars r := by
  rw [ulid, encode, encode, String.toList_append, String.toList_ofList, String.toList_ofList,
    encodeChars_eq,
    encodeChars_eq, numeral, numeral]

theorem length_ulid (t r : Nat) : (ulid t r).length = 26 := by
  rw [← String.length_toList, toList_ulid, List.length_append, length_numeral, length_numeral]
  rfl

variable {t r : Nat}

theorem readUlid_ulid (ht : t < 2 ^ 50) (hr : r < 2 ^ 80) : readUlid (ulid t r) = (t, r) := by
  have time : (numeral crockfordDigit 32 timeChars t).length = timeChars := length_numeral ..
  simp only [readUlid, toList_ulid]
  rw [List.take_left' time, List.drop_left' time,
    number_numeral (by decide) crockfordPlace_digit ht,
    number_numeral (by decide) crockfordPlace_digit hr]

theorem ulid_lt_iff {t' r' : Nat} (ht : t < 2 ^ 50) (ht' : t' < 2 ^ 50) (hr : r < 2 ^ 80)
    (hr' : r' < 2 ^ 80) :
    ulid t r < ulid t' r' ↔ t < t' ∨ t = t' ∧ r < r' := by
  rw [String.lt_iff_toList_lt, toList_ulid, toList_ulid]
  exact numerals_lt_iff (by decide) crockfordDigit_ordered ht ht' hr hr'

theorem kind_append_inj {kind a b : String} (same : kind ++ "_" ++ a = kind ++ "_" ++ b) :
    a = b := by
  have lists := congrArg String.toList same
  simp only [String.toList_append] at lists
  exact String.toList_inj.mp (List.append_cancel_left lists)

theorem compare_ulid {t₁ r₁ t₂ r₂ : Nat} (ht₁ : t₁ < 2 ^ 50) (ht₂ : t₂ < 2 ^ 50) (hr₁ : r₁ < 2 ^ 80)
    (hr₂ : r₂ < 2 ^ 80) :
    compare (ulid t₁ r₁) (ulid t₂ r₂) = (compare t₁ t₂).then (compare r₁ r₂) := by
  have earlier := ulid_lt_iff ht₁ ht₂ hr₁ hr₂
  have later := ulid_lt_iff ht₂ ht₁ hr₂ hr₁
  rcases lt_trichotomy t₁ t₂ with lt | rfl | gt
  · rw [compare_lt_iff_lt.mpr (earlier.mpr (.inl lt)), compare_lt_iff_lt.mpr lt]
    rfl
  · rw [compare_eq_iff_eq.mpr (rfl : t₁ = t₁)]
    rcases lt_trichotomy r₁ r₂ with lt | rfl | gt
    · rw [compare_lt_iff_lt.mpr (earlier.mpr (.inr ⟨rfl, lt⟩)), compare_lt_iff_lt.mpr lt]
      rfl
    · rw [compare_eq_iff_eq.mpr (rfl : ulid t₁ r₁ = ulid t₁ r₁),
        compare_eq_iff_eq.mpr (rfl : r₁ = r₁)]
      rfl
    · rw [compare_gt_iff_gt.mpr (later.mpr (.inr ⟨rfl, gt⟩)), compare_gt_iff_gt.mpr gt]
      rfl
  · rw [compare_gt_iff_gt.mpr (later.mpr (.inl gt)), compare_gt_iff_gt.mpr gt]
    rfl

/-- ULIDs compare as their fields do, are all of one length and give both fields back; so ids minted
for one kind are alike only where both fields are. -/
theorem ulid_order {t₁ r₁ t₂ r₂ : Nat} (ht₁ : t₁ < 2 ^ 50) (ht₂ : t₂ < 2 ^ 50) (hr₁ : r₁ < 2 ^ 80)
    (hr₂ : r₂ < 2 ^ 80) :
    compare (ulid t₁ r₁) (ulid t₂ r₂) = (compare t₁ t₂).then (compare r₁ r₂) ∧
      (ulid t₁ r₁).length = 26 ∧ (ulid t₂ r₂).length = 26 ∧
      readUlid (ulid t₁ r₁) = (t₁, r₁) ∧ readUlid (ulid t₂ r₂) = (t₂, r₂) ∧
      ∀ kind, mintedId kind t₁ r₁ = mintedId kind t₂ r₂ → t₁ = t₂ ∧ r₁ = r₂ := by
  have first := readUlid_ulid ht₁ hr₁
  have second := readUlid_ulid ht₂ hr₂
  refine ⟨compare_ulid ht₁ ht₂ hr₁ hr₂, length_ulid .., length_ulid .., first, second, ?_⟩
  intro kind same
  rw [kind_append_inj same, second] at first
  exact ⟨(Prod.mk.inj first).1.symm, (Prod.mk.inj first).2.symm⟩

theorem ulid_order_later : compare (ulid 7 1) (ulid 7 0) = .gt :=
  (ulid_order (by decide : 7 < 2 ^ 50) (by decide : 7 < 2 ^ 50) (by decide : 1 < 2 ^ 80)
    (by decide : 0 < 2 ^ 80)).1

end BlizzardMock
