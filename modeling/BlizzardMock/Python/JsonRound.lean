import BlizzardMock.Python.IntText
import BlizzardMock.Python.JsonTextLaws

namespace BlizzardMock.JsonText

/-- What can stand behind a value: nothing, what parts or closes, or a line's end. -/
def Ends : List Char → Prop
  | [] => True
  | c :: _ => c = ',' ∨ c = ']' ∨ c = '\x7d' ∨ c = '\n'

variable [Codecs]

def Begins (c : Char) : Prop := isDigit c = true ∨ c = '-' ∨ c = 'N' ∨ c = 'I'

def ReadableDouble (x : Double) : Prop :=
  (∃ c cs, (Json.float x).dumps.toList = c :: cs ∧ Begins c) ∧
    ∀ rest, Ends rest → scalar ((Json.float x).dumps.toList ++ rest) = .ok (.float x, rest)

theorem readable_nan : ReadableDouble .nan :=
  ⟨⟨'N', ['a', 'N'], rfl, .inr (.inr (.inl rfl))⟩, fun _ _ => rfl⟩

mutual

/-- A value a text can hold: integers are short, doubles are read back, and no object has a key
twice. -/
def Readable : Json → Prop
  | .null | .bool _ | .str _ => True
  | .int n => n.natAbs < 10 ^ intMaxStrDigits
  | .float x => ReadableDouble x
  | .arr items => ReadableItems items
  | .obj fields => (fields.map Prod.fst).Nodup ∧ ReadableFields fields

def ReadableItems : List Json → Prop
  | [] => True
  | v :: rest => Readable v ∧ ReadableItems rest

def ReadableFields : List (String × Json) → Prop
  | [] => True
  | (_, v) :: rest => Readable v ∧ ReadableFields rest

end

section Scalars

variable {rest : List Char}

omit [Codecs] in
theorem isDigit_digitChar : ∀ d < 10, isDigit (Nat.digitChar d) = true := by decide

omit [Codecs] in
theorem isDigit_toDigits (n : Nat) : ∀ c ∈ Nat.toDigits 10 n, isDigit c = true := by
  induction n using Nat.strongRecOn with
  | ind n ih =>
    rcases Nat.lt_or_ge n 10 with one | more
    · rw [Nat.toDigits_of_lt_base one]
      simpa using isDigit_digitChar n one
    · rw [Nat.toDigits_of_base_le (by decide) more]
      simp only [List.forall_mem_append, List.forall_mem_singleton]
      exact ⟨ih _ (by omega), isDigit_digitChar _ (by omega)⟩

omit [Codecs] in
theorem head_toDigits {n : Nat} (pos : 0 < n) : ∃ c cs, Nat.toDigits 10 n = c :: cs ∧ c ≠ '0' := by
  induction n using Nat.strongRecOn with
  | ind n ih =>
    rcases Nat.lt_or_ge n 10 with one | more
    · refine ⟨_, _, Nat.toDigits_of_lt_base one, ?_⟩
      have nonzero : ∀ d < 10, 0 < d → Nat.digitChar d ≠ '0' := by decide
      exact nonzero n one pos
    · obtain ⟨c, cs, first, nonzero⟩ := ih (n / 10) (by omega) (by omega)
      refine ⟨c, cs ++ [Nat.digitChar (n % 10)], ?_, nonzero⟩
      rw [Nat.toDigits_of_base_le (by decide) more, first]
      rfl

omit [Codecs] in
theorem not_digit_of_ends (ends : Ends rest) : rest.takeWhile isDigit = [] ∧
      rest.dropWhile isDigit = rest := by
  cases rest with
  | nil => exact ⟨rfl, rfl⟩
  | cons c rest => rcases ends with rfl | rfl | rfl | rfl <;> exact ⟨rfl, rfl⟩

omit [Codecs] in
theorem integral_toDigits (n : Nat) (ends : Ends rest) :
    integral (Nat.toDigits 10 n ++ rest) = some (Nat.toDigits 10 n, rest) := by
  rcases Nat.eq_zero_or_pos n with rfl | pos
  · rfl
  · obtain ⟨c, cs, first, nonzero⟩ := head_toDigits pos
    have digits := isDigit_toDigits n
    rw [first] at digits ⊢
    have taken : (c :: cs ++ rest).takeWhile isDigit = c :: cs := by
      rw [List.takeWhile_append_of_pos digits, (not_digit_of_ends ends).1, List.append_nil]
    have dropped : (c :: cs ++ rest).dropWhile isDigit = rest := by
      rw [List.dropWhile_append_of_pos digits, (not_digit_of_ends ends).2]
    unfold integral
    split
    case h_1 tail same => exact absurd (List.cons.inj same).1 nonzero
    case h_2 =>
      rw [taken, dropped]
      exact if_neg (List.cons_ne_nil c cs)

omit [Codecs] in
theorem fraction_of_ends (ends : Ends rest) : fraction rest = ([], rest) := by
  cases rest with
  | nil => rfl
  | cons c rest => rcases ends with rfl | rfl | rfl | rfl <;> rfl

omit [Codecs] in
theorem exponent_of_ends (ends : Ends rest) : exponent rest = ([], rest) := by
  cases rest with
  | nil => rfl
  | cons c rest => rcases ends with rfl | rfl | rfl | rfl <;> rfl

theorem unsigned_toDigits {n : Nat} (short : n < 10 ^ intMaxStrDigits) (minus : Bool)
    (ends : Ends rest) :
    unsigned minus (Nat.toDigits 10 n ++ rest) = .ok
      (.int (if minus then -(n : Int) else n), rest) := by
  obtain ⟨text, len, spelled⟩ := digitText_toDigits n
  have few : (Nat.toDigits 10 n).length ≤ intMaxStrDigits :=
    (Nat.length_toDigits_le_iff (by decide) (by decide)).mpr short
  have read := unsignedInt_ok_iff.mpr ⟨text, by rw [len]; exact few, spelled.symm⟩
  simp only [unsigned, integral_toDigits n ends, fraction_of_ends ends, exponent_of_ends ends,
    List.append_nil,
    if_true, read]

theorem scalar_digit {c : Char} (digit : isDigit c = true) (cs : List Char) :
    scalar (c :: cs) = number (c :: cs) ∧ scalar ('-' :: c :: cs) = number ('-' :: c :: cs) := by
  have other {e : Char} (letter : isDigit e = false) : (e == c) = false := by
    rw [beq_eq_false_iff_ne]
    rintro rfl
    rw [letter] at digit
    cases digit
  have n : ('n' == c) = false := other rfl
  have t : ('t' == c) = false := other rfl
  have f : ('f' == c) = false := other rfl
  have N : ('N' == c) = false := other rfl
  have I : ('I' == c) = false := other rfl
  have minus : ('-' == c) = false := other rfl
  constructor <;> simp [scalar, constants, List.find?, List.isPrefixOf, n, t, f, N, I, minus]

theorem number_digit {c : Char} (digit : isDigit c = true) (cs : List Char) :
    number (c :: cs) = unsigned false (c :: cs) := by
  unfold number
  split
  · rename_i same
    cases same
    cases digit
  · rfl

omit [Codecs] in
theorem first_toDigits (n : Nat) : ∃ c cs, Nat.toDigits 10 n = c :: cs ∧ isDigit c = true := by
  have digits := isDigit_toDigits n
  cases text : Nat.toDigits 10 n with
  | nil => exact absurd text Nat.toDigits_ne_nil
  | cons c cs =>
    rw [text] at digits
    exact ⟨c, cs, rfl, digits c List.mem_cons_self⟩

omit [Codecs] in
theorem first_int (n : Int) : ∃ c cs, (Json.int n).dumps.toList = c :: cs ∧ Begins c := by
  cases n with
  | ofNat k =>
    obtain ⟨c, cs, first, digit⟩ := first_toDigits k
    refine ⟨c, cs, ?_, .inl digit⟩
    change (toString k).toList = _
    rw [Flat.toList_toString, first]
  | negSucc k =>
    refine ⟨'-', Nat.toDigits 10 (k + 1), ?_, .inr (.inl rfl)⟩
    change ("-" ++ Nat.repr (k + 1)).toList = _
    rw [String.toList_append, Nat.toList_repr]
    rfl

theorem scalar_int {n : Int} (short : n.natAbs < 10 ^ intMaxStrDigits) (ends : Ends rest) :
    scalar ((Json.int n).dumps.toList ++ rest) = .ok (.int n, rest) := by
  obtain ⟨c, cs, first, digit⟩ := first_toDigits n.natAbs
  have read (minus : Bool) := unsigned_toDigits short minus ends
  rw [first, List.cons_append] at read
  cases n with
  | ofNat k =>
    change scalar ((toString k).toList ++ rest) = _
    rw [Flat.toList_toString]
    rw [show Nat.toDigits 10 k = c :: cs from first, List.cons_append, (scalar_digit digit _).1,
      number_digit digit, read]
    rfl
  | negSucc k =>
    have text : (Json.int (.negSucc k)).dumps.toList = '-' :: c :: cs := by
      change ("-" ++ Nat.repr (k + 1)).toList = _
      rw [String.toList_append, Nat.toList_repr, show Nat.toDigits 10 (k + 1) = c :: cs from first]
      rfl
    rw [text, List.cons_append, List.cons_append, (scalar_digit digit _).2]
    exact read true

end Scalars

section Values

variable {rest : List Char}

omit [Codecs] in
theorem distinct_of_nodup {l : List (String × Json)} (nodup : (l.map Prod.fst).Nodup) :
    distinct l = l := by
  have all (dict : List (String × Json)) (apart : ((dict ++ l).map Prod.fst).Nodup) :
      l.foldl (fun dict field => Dict.assign field.1 field.2 dict) dict = dict ++ l := by
    induction l generalizing dict with
    | nil => simp
    | cons field rest ih =>
      have new : Dict.findEntry field.1 dict = none := by
        cases found : Dict.findEntry field.1 dict with
        | none => rfl
        | some x =>
          have mem := List.mem_map_of_mem (f := Prod.fst) (Dict.mem_of_findEntry found)
          rw [List.map_append, List.nodup_append] at apart
          exact absurd rfl (apart.2.2 _ mem field.1 (by simp))
      rw [List.foldl_cons, Dict.assign_of_findEntry_none new, ih (List.nodup_cons.mp nodup).2]
      · simp
      · simpa using apart
  exact all [] nodup

theorem value_scalar {c : Char} (text : c ≠ '"') (brace : c ≠ '\x7b')
    (bracket : c ≠ '[') (fuel : Nat)
    (cs : List Char) : value (fuel + 1) (c :: cs) = scalar (c :: cs) := by
  unfold value
  split
  case h_1 same => exact absurd (List.cons.inj same).1 text
  case h_2 same => exact absurd (List.cons.inj same).1 brace
  case h_3 same => exact absurd (List.cons.inj same).1 bracket
  case h_4 => rfl

omit [Codecs] in
theorem Begins.plain {c : Char} (h : Begins c) :
    c ≠ '"' ∧ c ≠ '\x7b' ∧ c ≠ '[' ∧ c ≠ ']' ∧ isBlank c = false := by
  rcases h with digit | rfl | rfl | rfl
  · refine ⟨?_, ?_, ?_, ?_, ?_⟩
    on_goal 5 =>
      rw [← Bool.not_eq_true]
      intro blank
      simp only [isBlank, decide_eq_true_eq] at blank
      rcases blank with rfl | rfl | rfl | rfl <;> cases digit
    all_goals
      rintro rfl
      cases digit
  all_goals decide

omit [Codecs] in
theorem toList_arr (items : List Json) :
    (Json.arr items).dumps.toList = '[' :: ((Json.dumpsItems items).toList ++ [']']) := by
  simp [Json.dumps]

omit [Codecs] in
theorem toList_obj (fields : List (String × Json)) :
    (Json.obj fields).dumps.toList = '\x7b' :: ((Json.dumpsFields fields).toList ++ ['\x7d']) := by
  simp [Json.dumps]

theorem first_dumps {v : Json} (readable : Readable v) :
    ∃ c cs, v.dumps.toList = c :: cs ∧ c ≠ ']' ∧ isBlank c = false := by
  cases v with
  | null => exact ⟨_, _, rfl, by decide, rfl⟩
  | bool b => cases b <;> exact ⟨_, _, rfl, by decide, rfl⟩
  | int n =>
    obtain ⟨c, cs, first, begins⟩ := first_int n
    exact ⟨c, cs, first, begins.plain.2.2.2⟩
  | float x =>
    obtain ⟨⟨c, cs, first, begins⟩, _⟩ := readable
    exact ⟨c, cs, first, begins.plain.2.2.2⟩
  | str s => exact ⟨_, _, toList_dumpsStr s, by decide, rfl⟩
  | arr items => exact ⟨_, _, toList_arr items, by decide, rfl⟩
  | obj fields => exact ⟨_, _, toList_obj fields, by decide, rfl⟩

omit [Codecs] in
theorem dumpsItems_cons (v w : Json) (vs : List Json) :
    (Json.dumpsItems (v :: w :: vs)).toList =
      v.dumps.toList ++ ',' :: ' ' :: (Json.dumpsItems (w :: vs)).toList := by
  simp [Json.dumpsItems]

omit [Codecs] in
theorem dumpsFields_one (k : String) (v : Json) :
    (Json.dumpsFields [(k, v)]).toList = (dumpsStr k).toList ++ ':' :: ' ' :: v.dumps.toList := by
  simp [Json.dumpsFields]

omit [Codecs] in
theorem dumpsFields_cons (k : String) (v : Json) (f : String × Json) (fs : List (String × Json)) :
    (Json.dumpsFields ((k, v) :: f :: fs)).toList =
      (dumpsStr k).toList ++ ':' :: ' ' ::
        (v.dumps.toList ++ ',' :: ' ' :: (Json.dumpsFields (f :: fs)).toList) := by
  simp [Json.dumpsFields]

theorem first_dumpsItems {v : Json} {vs : List Json} (readable : ReadableItems (v :: vs)) :
    ∃ c cs, (Json.dumpsItems (v :: vs)).toList = c :: cs ∧ c ≠ ']' ∧ isBlank c = false := by
  obtain ⟨c, cs, first, open', ink⟩ := first_dumps readable.1
  cases vs with
  | nil => exact ⟨c, cs, first, open', ink⟩
  | cons w vs =>
    rw [dumpsItems_cons, first]
    exact ⟨c, _, rfl, open', ink⟩

omit [Codecs] in
theorem first_dumpsFields (f : String × Json) (fs : List (String × Json)) :
    ∃ cs, (Json.dumpsFields (f :: fs)).toList = '"' :: cs := by
  obtain ⟨k, v⟩ := f
  cases fs with
  | nil =>
    rw [dumpsFields_one, toList_dumpsStr]
    exact ⟨_, rfl⟩
  | cons g fs =>
    rw [dumpsFields_cons, toList_dumpsStr]
    exact ⟨_, rfl⟩

theorem value_bracket {c : Char} (fuel : Nat) (cs : List Char) (ink : isBlank c = false)
    (open' : c ≠ ']') :
    value (fuel + 1) ('[' :: c :: cs) = do
      let (read, rest) ← items fuel (c :: cs)
      return (.arr read, rest) := by
  rw [value.eq_def]
  simp only [blank_cons ink]
  split
  · rename_i same
    exact absurd (List.cons.inj same).1 open'
  · rfl

theorem items_value {v : Json} {cs rest : List Char} {fuel : Nat}
    (read : value fuel cs = .ok (v, rest)) :
    items (fuel + 1) cs = match blank rest with
      | ']' :: rest => .ok ([v], rest)
      | ',' :: rest => do
        let (read, rest) ← items fuel (blank rest)
        return (v :: read, rest)
      | _ => .error (.raised .valueError) := by
  rw [items.eq_def]
  simp only [read]
  rfl

theorem fields_value {k : String} {v : Json} {cs rest : List Char} {fuel : Nat}
    (read : value fuel (blank cs) = .ok (v, rest)) :
    fields (fuel + 1) ((dumpsStr k).toList ++ ':' :: cs) = match blank rest with
      | '\x7d' :: rest => .ok ([(k, v)], rest)
      | ',' :: rest => do
        let (others, rest) ← fields fuel (blank rest)
        return ((k, v) :: others, rest)
      | _ => .error (.raised .valueError) := by
  rw [toList_dumpsStr, List.cons_append, List.append_assoc, List.singleton_append, fields.eq_def]
  simp only [scanString_inside, blank_cons (c := ':') rfl, read, bind, Except.bind]
  rfl

omit [Codecs] in
theorem blank_space (cs : List Char) : blank (' ' :: cs) = blank cs := rfl

/-! Each of the three readers reads what was written for it, with any end behind it, with so much
fuel. -/

def ReadsValues (fuel : Nat) : Prop :=
  ∀ v rest, Readable v → Ends rest → 2 * (v.dumps.toList ++ rest).length < fuel →
    value fuel (v.dumps.toList ++ rest) = .ok (v, rest)

def ReadsItems (fuel : Nat) : Prop :=
  ∀ v vs rest, ReadableItems (v :: vs) →
    2 * ((Json.dumpsItems (v :: vs)).toList ++ ']' :: rest).length + 1 < fuel →
    items fuel ((Json.dumpsItems (v :: vs)).toList ++ ']' :: rest) = .ok (v :: vs, rest)

def ReadsFields (fuel : Nat) : Prop :=
  ∀ f fs rest, ReadableFields (f :: fs) →
    2 * ((Json.dumpsFields (f :: fs)).toList ++ '\x7d' :: rest).length + 1 < fuel →
    fields fuel ((Json.dumpsFields (f :: fs)).toList ++ '\x7d' :: rest) = .ok (f :: fs, rest)

variable {fuel : Nat}

theorem value_begun {cs rest : List Char} {v : Json} (begun : ∃ c tail, cs = c :: tail ∧ Begins c)
    (read : scalar (cs ++ rest) = .ok (v, rest)) :
    value (fuel + 1) (cs ++ rest) = .ok (v, rest) := by
  obtain ⟨c, tail, first, begins⟩ := begun
  rw [first, List.cons_append] at read ⊢
  rw [value_scalar begins.plain.1 begins.plain.2.1 begins.plain.2.2.1, read]

theorem reads_dumpsValues (many : ReadsItems fuel) (named : ReadsFields fuel) :
    ReadsValues (fuel + 1) := by
  intro v rest readable ends enough
  cases v with
  | null => rfl
  | bool b => cases b <;> rfl
  | int n => exact value_begun (first_int n) (scalar_int readable ends)
  | float x => exact value_begun readable.1 (readable.2 rest ends)
  | str s => exact value_dumpsStr fuel s rest
  | arr l =>
    rw [toList_arr] at enough ⊢
    cases l with
    | nil => rfl
    | cons v vs =>
      obtain ⟨c, cs, first, open', ink⟩ := first_dumpsItems readable
      have read := many v vs rest readable (by simp at enough ⊢; omega)
      simp only [List.cons_append, List.append_assoc, List.nil_append]
      rw [first, List.cons_append] at read ⊢
      rw [value_bracket fuel _ ink open', read]
      rfl
  | obj l =>
    rw [toList_obj] at enough ⊢
    cases l with
    | nil => rfl
    | cons f fs =>
      obtain ⟨cs, first⟩ := first_dumpsFields f fs
      have read := named f fs rest readable.2 (by simp at enough ⊢; omega)
      simp only [List.cons_append, List.append_assoc, List.nil_append]
      rw [first, List.cons_append] at read ⊢
      rw [value_brace, read]
      change Except.ok (Json.obj (distinct (f :: fs)), rest) = _
      rw [distinct_of_nodup readable.1]

theorem reads_dumpsItems (one : ReadsValues fuel) (many : ReadsItems fuel) : ReadsItems (fuel + 1) := by
  intro v vs rest readable enough
  cases vs with
  | nil =>
    have read := one v (']' :: rest) readable.1 (.inr (.inl rfl)) (by
      simp [Json.dumpsItems] at enough ⊢
      omega)
    exact items_value read
  | cons w vs =>
    obtain ⟨c, cs, first, _, ink⟩ := first_dumpsItems readable.2
    rw [dumpsItems_cons] at enough ⊢
    simp only [List.append_assoc, List.cons_append] at enough ⊢
    have read := one v (',' :: ' ' :: ((Json.dumpsItems (w :: vs)).toList ++ ']' :: rest))
      readable.1 (.inl rfl)
      (by omega)
    have others := many w vs rest readable.2 (by simp at enough ⊢; omega)
    rw [items_value read, blank_cons rfl]
    change (do
      let (read, rest) ← items fuel (blank (' ' :: _))
      return (v :: read, rest)) = _
    rw [blank_space, first, List.cons_append, blank_cons ink, ← List.cons_append, ← first, others]
    rfl

theorem blank_dumps {v : Json} (readable : Readable v) (tail : List Char) :
    blank (' ' :: (v.dumps.toList ++ tail)) = v.dumps.toList ++ tail := by
  obtain ⟨c, cs, first, _, ink⟩ := first_dumps readable
  rw [blank_space, first, List.cons_append, blank_cons ink]

theorem reads_dumpsFields (one : ReadsValues fuel) (named : ReadsFields fuel) :
    ReadsFields (fuel + 1) := by
  rintro ⟨k, v⟩ fs rest readable enough
  cases fs with
  | nil =>
    rw [dumpsFields_one] at enough ⊢
    simp only [List.append_assoc, List.cons_append] at enough ⊢
    have read := one v ('\x7d' :: rest) readable.1 (.inr (.inr (.inl rfl)))
      (by simp at enough ⊢; omega)
    rw [← blank_dumps readable.1] at read
    rw [fields_value read]
    rfl
  | cons f fs =>
    rw [dumpsFields_cons] at enough ⊢
    simp only [List.append_assoc, List.cons_append] at enough ⊢
    have read := one v (',' :: ' ' :: ((Json.dumpsFields (f :: fs)).toList ++ '\x7d' :: rest))
      readable.1 (.inl rfl)
      (by simp at enough ⊢; omega)
    have others := named f fs rest readable.2 (by simp at enough ⊢; omega)
    obtain ⟨_, quote⟩ := first_dumpsFields f fs
    rw [← blank_dumps readable.1] at read
    rw [fields_value read, blank_cons rfl]
    change (do
      let (others, rest) ← fields fuel (blank (' ' :: _))
      return ((k, v) :: others, rest)) = _
    rw [blank_space, quote, List.cons_append, blank_cons rfl, ← List.cons_append, ← quote, others]
    rfl

theorem reads_dumps (fuel : Nat) : ReadsValues fuel ∧ ReadsItems fuel ∧ ReadsFields fuel := by
  induction fuel with
  | zero => simp [ReadsValues, ReadsItems, ReadsFields]
  | succ fuel ih =>
    obtain ⟨one, many, named⟩ := ih
    exact ⟨reads_dumpsValues many named, reads_dumpsItems one many, reads_dumpsFields one named⟩

theorem parse_dumps {v : Json} (readable : Readable v) : parse v.dumps.toList = .ok v := by
  obtain ⟨c, cs, first, _, ink⟩ := first_dumps readable
  have read := (reads_dumps (2 * v.dumps.toList.length + 1)).1 v [] readable trivial (by simp)
  rw [List.append_nil] at read
  have unblank : blank v.dumps.toList = v.dumps.toList := by rw [first, blank_cons ink]
  rw [parse, unblank, read]
  rfl

end Values

section Fields

variable {key : String} {v : Json} {l : List (String × Json)}

omit [Codecs] in
theorem lookup_eq_findEntry (key : String) (l : List (String × Json)) :
    Json.lookup key l = Dict.findEntry key l := by
  induction l with
  | nil => rfl
  | cons field rest ih => simp [Json.lookup, Dict.findEntry, ih]

theorem readableFields_iff : ReadableFields l ↔ ∀ field ∈ l, Readable field.2 := by
  induction l with
  | nil => simp [ReadableFields]
  | cons field rest ih => simp [ReadableFields, ih]

theorem Readable.of_lookup (readable : Readable (.obj l)) (found : Json.lookup key l = some v) :
    Readable v := by
  rw [lookup_eq_findEntry] at found
  exact readableFields_iff.mp readable.2 _ (Dict.mem_of_findEntry found)

theorem readableFields_assign (readable : ReadableFields l) (value : Readable v) :
    ReadableFields (Dict.assign key v l) := by
  induction l with
  | nil => exact ⟨value, trivial⟩
  | cons field rest ih =>
    simp only [Dict.assign]
    split
    case isTrue => exact ⟨value, readable.2⟩
    case isFalse => exact ⟨readable.1, ih readable.2⟩

theorem Readable.assign (readable : Readable (.obj l)) (value : Readable v) :
    Readable (.obj (Dict.assign key v l)) :=
  ⟨Dict.nodup_assign readable.1, readableFields_assign readable.2 value⟩

end Fields

end BlizzardMock.JsonText
