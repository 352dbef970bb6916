import BlizzardMock.Data.Flat
import BlizzardMock.Python.Lines
import Mathlib.Data.List.Induction
import Mathlib.Data.List.TakeWhile

namespace BlizzardMock

inductive DigitText : List Char → Prop
  | last {c : Char} (digit : (decimalDigit c).isSome) : DigitText [c]
  | next {c : Char} {cs : List Char} (digit : (decimalDigit c).isSome) (rest : DigitText cs) :
      DigitText (c :: cs)
  | underscore {c : Char} {cs : List Char} (digit : (decimalDigit c).isSome) (rest : DigitText cs) :
    DigitText (c :: '_' :: cs)

/-- A number that is not negative, as `int(·)` takes it: between blanks a sign, which may be absent,
and digits, not too many of them. -/
def NaturalText (cs : List Char) : Prop :=
  ∃ lead sign body trail, cs = lead ++ (sign ++ body) ++ trail ∧ (∀ c ∈ lead, isIntSpace c = true) ∧
    (∀ c ∈ trail, isIntSpace c = true) ∧ DigitText body ∧ (body.filterMap decimalDigit).length ≤
      intMaxStrDigits ∧
    (sign = [] ∨ sign = ['+'] ∨ sign = ['-'] ∧ ∀ d ∈ body.filterMap decimalDigit, d = 0)

variable {c : Char} {cs : List Char}

theorem stripBy_append {blank : Char → Bool} {lead body trail : List Char}
    (before : ∀ c ∈ lead, blank c = true)
    (after : ∀ c ∈ trail, blank c = true) (first : ∀ c ∈ body.head?, blank c = false)
    (last : ∀ c ∈ body.getLast?, blank c = false) (some : body ≠ []) :
    stripBy blank (lead ++ body ++ trail) = body := by
  have kept (l : List Char) (h : ∀ c ∈ l.head?, blank c = false) (some : l ≠ [])
    (rest : List Char) :
      (l ++ rest).dropWhile blank = l ++ rest := by
    cases l with
    | nil => exact absurd rfl some
    | cons c l => exact List.dropWhile_cons_of_neg (by simpa using h c rfl)
  rw [stripBy, List.append_assoc, List.dropWhile_append_of_pos before, kept body first some,
    List.reverse_append,
    List.dropWhile_append_of_pos (by simpa using after)]
  have left := kept body.reverse (by simpa using last) (by simpa using some) []
  rw [List.append_nil] at left
  rw [left, List.reverse_reverse]

theorem stripBy_spec (blank : Char → Bool) (cs : List Char) :
    ∃ lead trail, cs = lead ++ stripBy blank cs ++ trail ∧ (∀ c ∈ lead, blank c = true) ∧
      ∀ c ∈ trail, blank c = true := by
  have after (l : List Char) :
    l = (l.reverse.dropWhile blank).reverse ++ (l.reverse.takeWhile blank).reverse := by
    rw [← List.reverse_append, List.takeWhile_append_dropWhile, List.reverse_reverse]
  refine ⟨cs.takeWhile blank, ((cs.dropWhile blank).reverse.takeWhile blank).reverse, ?_, ?_, ?_⟩
  · rw [stripBy, List.append_assoc, ← after, List.takeWhile_append_dropWhile]
  · exact fun c mem => List.mem_takeWhile_imp mem
  · exact fun c mem => List.mem_takeWhile_imp (List.mem_reverse.mp mem)

theorem decimalDigit_digitChar : ∀ d < 10, decimalDigit (Nat.digitChar d) = some d := by decide

theorem not_isIntSpace_of_digit (digit : (decimalDigit c).isSome) : isIntSpace c = false := by
  have apart : ∀ z ∈ decimalZeros, ∀ k < 10,
    ¬ (z + k = 32 ∨ (9 ≤ z + k ∧ z + k ≤ 13) ∨ z + k = 0x85 ∨
      z + k = 0xa0 ∨ z + k = 0x1680 ∨ (0x2000 ≤ z + k ∧ z + k ≤ 0x200a) ∨ z + k = 0x2028 ∨
        z + k = 0x2029 ∨
      z + k = 0x202f ∨ z + k = 0x205f ∨ z + k = 0x3000) := by decide +kernel
  rw [decimalDigit, Option.isSome_map] at digit
  obtain ⟨z, found⟩ := Option.isSome_iff_exists.mp digit
  have near := List.find?_some found
  simp only [decide_eq_true_eq] at near
  have far := apart z (List.mem_of_find?_eq_some found) (c.toNat - z) (by omega)
  rw [Nat.add_sub_cancel' near.1] at far
  simpa only [isIntSpace, decide_eq_false_iff_not, Bool.decide_or, Bool.decide_and]
    using decide_eq_false far

theorem not_digit_sign (digit : (decimalDigit c).isSome) : c ≠ '-' ∧ c ≠ '+' ∧ c ≠ '_' := by
  refine ⟨?_, ?_, ?_⟩ <;> rintro rfl <;> revert digit <;> decide

theorem DigitText.head (h : DigitText cs) : ∃ c rest, cs = c :: rest ∧ (decimalDigit c).isSome := by
  cases h with
  | last digit => exact ⟨_, _, rfl, digit⟩
  | next digit => exact ⟨_, _, rfl, digit⟩
  | underscore digit => exact ⟨_, _, rfl, digit⟩

theorem DigitText.getLast (h : DigitText cs) :
    ∃ c, cs.getLast? = some c ∧ (decimalDigit c).isSome := by
  induction h with
  | last digit => exact ⟨_, rfl, digit⟩
  | next digit rest ih =>
    obtain ⟨c, last, digit⟩ := ih
    exact ⟨c, by simp [List.getLast?_cons, last], digit⟩
  | underscore digit rest ih =>
    obtain ⟨c, last, digit⟩ := ih
    exact ⟨c, by simp [List.getLast?_cons, last], digit⟩

theorem digitRun_underscore (c : Char) (rest : List Char) : digitRun (c :: '_' :: rest) =
    (decimalDigit c).bind fun d => (digitRun rest).map (d :: ·) := by
  rw [digitRun]
  cases decimalDigit c <;> cases digitRun rest <;> rfl

theorem digitRun_cons {c e : Char} (digit : e ≠ '_') (rest : List Char) :
    digitRun (c :: e :: rest) =
    (decimalDigit c).bind fun d => (digitRun (e :: rest)).map (d :: ·) := by
  rw [digitRun.eq_4]
  · cases decimalDigit c <;> cases digitRun (e :: rest) <;> rfl
  · simp
  · rintro rest' same
    exact digit (List.cons.inj same).1

theorem digitRun_of_text (h : DigitText cs) : digitRun cs = some (cs.filterMap decimalDigit) := by
  induction h with
  | @last c digit =>
    obtain ⟨d, found⟩ := Option.isSome_iff_exists.mp digit
    simp [digitRun, found]
  | @next c cs digit rest ih =>
    obtain ⟨d, found⟩ := Option.isSome_iff_exists.mp digit
    obtain ⟨e, tail, rfl, second⟩ := rest.head
    rw [digitRun_cons (not_digit_sign second).2.2, ih, List.filterMap_cons_some found, found]
    rfl
  | @underscore c cs digit rest ih =>
    obtain ⟨d, found⟩ := Option.isSome_iff_exists.mp digit
    have under : decimalDigit '_' = none := by decide
    rw [digitRun_underscore, ih, List.filterMap_cons_some found,
      List.filterMap_cons_none under, found]
    rfl

theorem digitText_of_run {ds : List Nat} (h : digitRun cs = some ds) : DigitText cs := by
  fun_induction digitRun cs generalizing ds with
  | case1 => cases h
  | case2 c =>
    rw [Option.map_eq_some_iff] at h
    obtain ⟨d, found, -⟩ := h
    exact .last (by simp [found])
  | case3 c rest ih =>
    obtain ⟨d, found, h⟩ := Option.bind_eq_some_iff.mp h
    obtain ⟨ds, read, -⟩ := Option.bind_eq_some_iff.mp h
    exact .underscore (by simp [found]) (ih read)
  | case4 c rest _ _ ih =>
    obtain ⟨d, found, h⟩ := Option.bind_eq_some_iff.mp h
    obtain ⟨ds, read, -⟩ := Option.bind_eq_some_iff.mp h
    exact .next (by simp [found]) (ih read)

theorem unsignedInt_ok_iff {n : Nat} : unsignedInt cs = .ok n ↔
    DigitText cs ∧ (cs.filterMap decimalDigit).length ≤ intMaxStrDigits ∧
      n = natOfDigits (cs.filterMap decimalDigit) := by
  unfold unsignedInt
  cases run : digitRun cs with
  | none =>
    refine iff_of_false (by simp) fun h => ?_
    rw [digitRun_of_text h.1] at run
    cases run
  | some ds =>
    have text := digitText_of_run run
    rw [digitRun_of_text text] at run
    cases run
    by_cases few : (cs.filterMap decimalDigit).length ≤ intMaxStrDigits
    · simp [few, text, eq_comm]
    · simp [few]

theorem natOfDigits_append (ds : List Nat) (d : Nat) :
    natOfDigits (ds ++ [d]) = 10 * natOfDigits ds + d := by
  simp [natOfDigits]

theorem natOfDigits_eq_zero_iff (ds : List Nat) : natOfDigits ds = 0 ↔ ∀ d ∈ ds, d = 0 := by
  induction ds using List.reverseRecOn with
  | nil => simp [natOfDigits]
  | append_singleton ds d ih =>
    rw [natOfDigits_append]
    simp only [List.mem_append, List.mem_singleton, or_imp, forall_and, forall_eq, ← ih]
    omega

section Signs

variable {s : String}

theorem intOfText_minus (h : stripBy isIntSpace s.toList = '-' :: cs) :
    intOfText s = (unsignedInt cs).map fun n : Nat => -(n : Int) := by
  rw [stripBy] at h
  rw [intOfText, h]
  change (unsignedInt cs >>= fun n => pure (n : Int)).map (- ·) = _
  cases unsignedInt cs <;> rfl

theorem intOfText_plus (h : stripBy isIntSpace s.toList = '+' :: cs) :
    intOfText s = (unsignedInt cs).map Int.ofNat := by
  rw [stripBy] at h
  rw [intOfText, h]
  rfl

theorem intOfText_bare (h : stripBy isIntSpace s.toList = cs)
    (unsigned : ∀ rest, cs ≠ '-' :: rest ∧ cs ≠ '+' :: rest) :
    intOfText s = (unsignedInt cs).map Int.ofNat := by
  rw [stripBy] at h
  rw [intOfText, h]
  split
  · exact absurd rfl (unsigned _).1
  · exact absurd rfl (unsigned _).2
  · rfl

end Signs

theorem map_ok_iff {r : Except PyError Nat} {f : Nat → Int} {i : Int} :
    r.map f = .ok i ↔ ∃ n, r = .ok n ∧ i = f n := by
  cases r with
  | error e => simp [Except.map]
  | ok n => simp [Except.map, eq_comm]

theorem intOfText_nonneg_iff (s : String) : (∃ n : Int, intOfText s = .ok n ∧ 0 ≤ n) ↔
      NaturalText s.toList := by
  constructor
  · rintro ⟨n, read, nonneg⟩
    obtain ⟨lead, trail, split, before, after⟩ := stripBy_spec isIntSpace s.toList
    generalize inner : stripBy isIntSpace s.toList = body at split
    have natural {g digits : List Char} {k : Nat} (same : body = g ++ digits)
      (ok : unsignedInt digits = .ok k)
        (signed : g = [] ∨ g = ['+'] ∨ g = ['-'] ∧ k = 0) : NaturalText s.toList := by
      obtain ⟨text, few, rfl⟩ := unsignedInt_ok_iff.mp ok
      rw [natOfDigits_eq_zero_iff] at signed
      exact ⟨lead, g, digits, trail, by rw [← same]; exact split, before, after, text, few, signed⟩
    by_cases minus : ∃ rest, body = '-' :: rest
    · obtain ⟨rest, rfl⟩ := minus
      rw [intOfText_minus inner, map_ok_iff] at read
      obtain ⟨k, ok, rfl⟩ := read
      exact natural (g := ['-']) rfl ok (.inr (.inr ⟨rfl, by omega⟩))
    · by_cases plus : ∃ rest, body = '+' :: rest
      · obtain ⟨rest, rfl⟩ := plus
        rw [intOfText_plus inner, map_ok_iff] at read
        obtain ⟨k, ok, rfl⟩ := read
        exact natural (g := ['+']) rfl ok (.inr (.inl rfl))
      · rw [intOfText_bare inner fun rest => ⟨fun h => minus ⟨rest, h⟩, fun h => plus ⟨rest, h⟩⟩,
          map_ok_iff] at read
        obtain ⟨k, ok, rfl⟩ := read
        exact natural (g := []) rfl ok (.inl rfl)
  · rintro ⟨lead, sign, digits, trail, split, before, after, text, few, signed⟩
    have ok := unsignedInt_ok_iff.mpr ⟨text, few, rfl⟩
    obtain ⟨c, rest, first, digit⟩ := text.head
    obtain ⟨e, last, digit'⟩ := text.getLast
    have inner : stripBy isIntSpace s.toList = sign ++ digits := by
      rw [split]
      refine stripBy_append before after ?_ ?_ (by simp [first])
      · rcases signed with rfl | rfl | ⟨rfl, -⟩
        · simpa [first] using not_isIntSpace_of_digit digit
        · simp only [List.cons_append, List.head?_cons, Option.mem_some_iff, forall_eq']
          decide
        · simp only [List.cons_append, List.head?_cons, Option.mem_some_iff, forall_eq']
          decide
      · simpa [List.getLast?_append, last] using not_isIntSpace_of_digit digit'
    rcases signed with rfl | rfl | ⟨rfl, zeros⟩
    · rw [List.nil_append] at inner
      have unsigned (tail : List Char) : digits ≠ '-' :: tail ∧ digits ≠ '+' :: tail := by
        rw [first]
        exact ⟨fun h => (not_digit_sign digit).1 (List.cons.inj h).1,
          fun h => (not_digit_sign digit).2.1 (List.cons.inj h).1⟩
      have read := intOfText_bare inner unsigned
      rw [ok] at read
      exact ⟨_, read, Int.natCast_nonneg _⟩
    · have read := intOfText_plus (show _ = '+' :: digits from inner)
      rw [ok] at read
      exact ⟨_, read, Int.natCast_nonneg _⟩
    · have read := intOfText_minus (show _ = '-' :: digits from inner)
      rw [ok, (natOfDigits_eq_zero_iff _).mpr zeros] at read
      exact ⟨0, read, le_refl 0⟩

theorem digitText_toDigits (n : Nat) : DigitText (Nat.toDigits 10 n) ∧
    ((Nat.toDigits 10 n).filterMap decimalDigit).length = (Nat.toDigits 10 n).length ∧
      natOfDigits ((Nat.toDigits 10 n).filterMap decimalDigit) = n := by
  have snoc {cs : List Char} {d : Nat} (text : DigitText cs) (small : d < 10) :
    DigitText (cs ++ [Nat.digitChar d]) := by
    have last : (decimalDigit (Nat.digitChar d)).isSome := by
      rw [decimalDigit_digitChar d small]; rfl
    induction text with
    | last digit => exact .next digit (.last last)
    | next digit _ ih => exact .next digit ih
    | underscore digit _ ih => exact .underscore digit ih
  induction n using Nat.strongRecOn with
  | ind n ih =>
    rcases Nat.lt_or_ge n 10 with one | more
    · rw [Nat.toDigits_of_lt_base one, List.filterMap_cons_some (decimalDigit_digitChar n one),
        List.filterMap_nil]
      exact ⟨.last (by rw [decimalDigit_digitChar n one]; rfl), rfl, by simp [natOfDigits]⟩
    · have small : n % 10 < 10 := Nat.mod_lt n (by decide)
      have last : [Nat.digitChar (n % 10)].filterMap decimalDigit = [n % 10] := by
        rw [List.filterMap_cons_some (decimalDigit_digitChar _ small), List.filterMap_nil]
      obtain ⟨text, len, spelled⟩ := ih (n / 10) (by omega)
      rw [Nat.toDigits_of_base_le (by decide) more, List.filterMap_append, last]
      refine ⟨snoc text small, by simp [len], ?_⟩
      rw [natOfDigits_append, spelled]
      omega

theorem intOfText_toString {n : Nat} (short : n < 10 ^ intMaxStrDigits) :
    intOfText (toString n) = .ok (n : Int) := by
  obtain ⟨text, len, spelled⟩ := digitText_toDigits n
  have few : (Nat.toDigits 10 n).length ≤ intMaxStrDigits :=
    (Nat.length_toDigits_le_iff (by decide) (by decide)).mpr short
  have ok := unsignedInt_ok_iff.mpr ⟨text, by rw [len]; exact few, rfl⟩
  obtain ⟨c, rest, first, digit⟩ := text.head
  obtain ⟨e, last, digit'⟩ := text.getLast
  have inner : stripBy isIntSpace (toString n).toList = Nat.toDigits 10 n := by
    rw [Flat.toList_toString]
    have ink : ∀ c ∈ (Nat.toDigits 10 n).head?, isIntSpace c = false := by
      simpa [first] using not_isIntSpace_of_digit digit
    have ink' : ∀ c ∈ (Nat.toDigits 10 n).getLast?, isIntSpace c = false := by
      simpa [last] using not_isIntSpace_of_digit digit'
    simpa using stripBy_append (List.forall_mem_nil _)
      (List.forall_mem_nil _) ink ink' Nat.toDigits_ne_nil
  have unsigned (tail : List Char) : Nat.toDigits 10 n ≠ '-' :: tail ∧
    Nat.toDigits 10 n ≠ '+' :: tail := by
    rw [first]
    exact ⟨fun h => (not_digit_sign digit).1 (List.cons.inj h).1,
      fun h => (not_digit_sign digit).2.1 (List.cons.inj h).1⟩
  rw [intOfText_bare inner unsigned, ok, spelled]
  rfl

end BlizzardMock
