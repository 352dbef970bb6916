import BlizzardMock.Data.Digits
import BlizzardMock.Data.Flat
import Mathlib.Data.String.Basic

namespace BlizzardMock.Harness.OpenCode2

open Digits

def hexPadded (width n : Nat) : List Char := (Nat.toDigits 16 n).leftpad width '0'

/-- What a call of `new_id` is given, and what it reads of the clock. -/
structure IdCall where
  kind : String
  nanos : Nat
  deriving DecidableEq

def IdCall.micros (call : IdCall) : Nat := call.nanos / 1000

def newId (counter : Nat) (call : IdCall) (token : Fin (2 ^ 32)) : String × Nat :=
  let count := (counter + 1) % 0x10000
  (call.kind ++ "_" ++ String.ofList
    (hexPadded 14 call.micros ++ hexPadded 4 count ++ hexPadded 8 token), count)

def newIds : Nat → List IdCall → (Nat → Fin (2 ^ 32)) → List (IdCall × String)
  | _, [], _ => []
  | counter, call :: rest, tokens =>
    let (id, counter) := newId counter call (tokens 0)
    (call, id) :: newIds counter rest fun n => tokens (n + 1)

def idsOf (kind : String) (made : List (IdCall × String)) : List String :=
  (made.filter (·.1.kind = kind)).map (·.2)

variable {counter : Nat} {call call' : IdCall} {calls : List IdCall} {tokens : Nat → Fin (2 ^ 32)}

theorem newIds_getElem? (i : Nat) : (newIds counter calls tokens)[i]? =
    calls[i]?.map fun call => (call, (newId (counter + i) call (tokens i)).1) := by
  induction calls generalizing counter tokens i with
  | nil => rfl
  | cons call rest ih =>
    cases i with
    | zero => rfl
    | succ i =>
      have count : ((counter + 1) % 0x10000 + i + 1) % 0x10000 =
        (counter + (i + 1) + 1) % 0x10000 := by omega
      simp only [newIds, newId, List.getElem?_cons_succ] at ih ⊢
      rw [ih, count]

@[simp] theorem length_newIds : (newIds counter calls tokens).length = calls.length := by
  induction calls generalizing counter tokens with
  | nil => rfl
  | cons call rest ih => simp only [newIds, List.length_cons, ih]

theorem digitChar_ordered : StrictMonoOn Nat.digitChar (Set.Iio 16) := by
  have ordered : ∀ m < 16, ∀ n < 16, m < n → Nat.digitChar m < Nat.digitChar n := by decide
  intro m hm n hn lt
  exact ordered m hm n hn lt

theorem hexPadded_eq (width : Nat) {n : Nat} (hn : n < 16 ^ (width + 1)) :
    hexPadded (width + 1) n = numeral Nat.digitChar 16 (width + 1) n :=
  leftpad_toDigits (by decide) width n hn

theorem newId_lt_iff {m n : Nat} {a b : Fin (2 ^ 32)} (same : call.kind = call'.kind)
    (ht : call.micros < 16 ^ 14) (ht' : call'.micros < 16 ^ 14) :
    (newId m call a).1 < (newId n call' b).1 ↔
      call.micros < call'.micros ∨ call.micros = call'.micros ∧
        ((m + 1) % 0x10000 < (n + 1) % 0x10000 ∨ (m + 1) % 0x10000 =
          (n + 1) % 0x10000 ∧ a < b) := by
  have count (k : Nat) : (k + 1) % 0x10000 < 16 ^ 4 := Nat.mod_lt _ (by decide)
  have lead (l xs ys : List Char) : l ++ xs < l ++ ys ↔ xs < ys := by
    rw [append_lt_append_iff rfl]
    simp
  have times := strictMonoOn_numeral (by decide) digitChar_ordered 14
  simp only [newId, same, String.lt_iff_toList_lt, String.toList_append, String.toList_ofList, lead,
    List.append_assoc]
  rw [hexPadded_eq 13 ht, hexPadded_eq 13 ht', hexPadded_eq 3 (count m), hexPadded_eq 3 (count n),
    hexPadded_eq 7 a.isLt, hexPadded_eq 7 b.isLt,
      append_lt_append_iff (by simp), times.lt_iff_lt ht ht',
    times.eq_iff_eq ht ht',
      numerals_lt_iff (by decide) digitChar_ordered (count m) (count n) a.isLt b.isLt]
  rfl

/-- Of a prefix's calls, those that fall in one microsecond each find the counter, as it goes round,
further on than those before. -/
def CountsOn (kind : String) (counter : Nat) (calls : List IdCall) : Prop :=
  ∀ i j call call', i < j → calls[i]? = some call → calls[j]? = some call' → call.kind = kind →
    call'.kind = kind →
    call.micros = call'.micros → (counter + i + 1) % 0x10000 < (counter + j + 1) % 0x10000

theorem pairwise_idsOf {kind : String} :
    (idsOf kind (newIds counter calls tokens)).Pairwise (· < ·) ↔
    ∀ i j call call', i < j → calls[i]? = some call → calls[j]? = some call' → call.kind = kind →
      call'.kind = kind → (newId (counter + i) call (tokens i)).1 <
        (newId (counter + j) call' (tokens j)).1 := by
  rw [idsOf, List.pairwise_map, List.pairwise_filter, List.pairwise_iff_getElem]
  have made {i : Nat} {call : IdCall} (h : calls[i]? = some call) :
      (newIds counter calls tokens)[i]? = some (call, (newId (counter + i) call (tokens i)).1) := by
    rw [newIds_getElem?, h]
    rfl
  constructor
  · intro increasing i j call call' before hi hj kindly kindly'
    obtain ⟨bound, first⟩ := List.getElem?_eq_some_iff.mp (made hi)
    obtain ⟨bound', second⟩ := List.getElem?_eq_some_iff.mp (made hj)
    have lt := increasing i j bound bound' before
    rw [first, second] at lt
    exact lt (decide_eq_true kindly) (decide_eq_true kindly')
  · intro increasing i j bound bound' before
    rw [length_newIds] at bound bound'
    have hi := List.getElem?_eq_getElem bound
    have hj := List.getElem?_eq_getElem bound'
    rw [(List.getElem?_eq_some_iff.mp (made hi)).2, (List.getElem?_eq_some_iff.mp (made hj)).2]
    intro kindly kindly'
    exact increasing i j _ _ before hi hj (of_decide_eq_true kindly) (of_decide_eq_true kindly')

/-- Under a clock that never goes back, the ids of a prefix rise whatever their random tails are
just where the counter does not go round within a microsecond. -/
theorem new_ids_increase_iff (kind : String) (counter : Nat) (calls : List IdCall)
    (clock : calls.Pairwise fun call call' => call.micros ≤ call'.micros)
    (times : ∀ call ∈ calls, call.micros < 16 ^ 14) :
    (∀ tokens, (idsOf kind (newIds counter calls tokens)).Pairwise (· < ·)) ↔
      CountsOn kind counter calls := by
  simp only [pairwise_idsOf]
  constructor
  · intro increasing i j call call' before hi hj kindly kindly' same
    -- tails that are all alike leave the counter to decide
    have lt := increasing (fun _ => 0) i j call call' before hi hj kindly kindly'
    rw [newId_lt_iff (kindly.trans kindly'.symm) (times _ (List.mem_of_getElem? hi))
      (times _ (List.mem_of_getElem? hj))] at lt
    rcases lt with lt | ⟨-, lt | ⟨-, lt⟩⟩
    · exact absurd same lt.ne
    · exact lt
    · exact absurd lt (by decide)
  · intro counts tokens i j call call' before hi hj kindly kindly'
    rw [newId_lt_iff (kindly.trans kindly'.symm) (times _ (List.mem_of_getElem? hi))
      (times _ (List.mem_of_getElem? hj))]
    obtain ⟨bound, rfl⟩ := List.getElem?_eq_some_iff.mp hi
    obtain ⟨bound', rfl⟩ := List.getElem?_eq_some_iff.mp hj
    rcases (List.pairwise_iff_getElem.mp clock i j bound bound' before).lt_or_eq with lt | same
    · exact .inl lt
    · exact .inr ⟨same, .inl (counts i j _ _ before hi hj kindly kindly' same)⟩

/-- The counter goes round between two calls of one microsecond. -/
theorem new_ids_fall : ¬ ∀ (kind : String) (counter : Nat) (calls : List IdCall),
    (calls.Pairwise fun call call' => call.micros ≤ call'.micros) →
      (∀ call ∈ calls, call.micros < 16 ^ 14) →
      ∀ tokens, (idsOf kind (newIds counter calls tokens)).Pairwise (· < ·) := by
  intro increasing
  have rising := increasing "msg" 0xfffe [⟨"msg", 5000⟩, ⟨"msg", 5400⟩]
    (by decide) (by decide) fun _ => 0
  revert rising
  decide +kernel

theorem new_ids_increase_iff_apart :
    (∀ tokens, (idsOf "msg" (newIds 0xfffe [⟨"msg", 5000⟩, ⟨"msg", 6000⟩] tokens)).Pairwise (· < ·))
      ↔
      CountsOn "msg" 0xfffe [⟨"msg", 5000⟩, ⟨"msg", 6000⟩] :=
  new_ids_increase_iff "msg" 0xfffe _ (by decide) (by decide)

end BlizzardMock.Harness.OpenCode2
