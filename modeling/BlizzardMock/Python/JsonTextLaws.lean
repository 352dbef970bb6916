import BlizzardMock.Python.JsonText

namespace BlizzardMock.JsonText

section Total

theorem codes_shorter {cs left : List Char} {read : List Code} (h : codes cs = some (read, left)) :
    left.length < cs.length := by
  fun_induction codes cs generalizing read left with
  | case1 => cases h
  | case2 rest =>
    cases h
    simp
  | case3 a b c d rest quote ih =>
    obtain ⟨n, -, ⟨r, l⟩, inner, same⟩ := by
      simpa only [Option.bind_eq_bind, Option.bind_eq_some_iff] using h
    cases same
    have shorter := ih inner
    simp only [List.length_cons]
    omega
  | case4 c rest other quote ih =>
    obtain ⟨n, -, ⟨r, l⟩, inner, same⟩ := by
      simpa only [Option.bind_eq_bind, Option.bind_eq_some_iff] using h
    cases same
    have shorter := ih inner
    simp only [List.length_cons]
    omega
  | case5 quote => cases h
  | case6 c rest quote slash control => cases h
  | case7 c rest quote slash plain ih =>
    obtain ⟨⟨r, l⟩, inner, same⟩ := by
      simpa only [Option.bind_eq_bind, Option.bind_eq_some_iff] using h
    cases same
    have shorter := ih inner
    simp only [List.length_cons]
    omega

theorem length_blank (cs : List Char) : (blank cs).length ≤ cs.length :=
  (List.dropWhile_sublist isBlank).length_le

/-- A part of a text was read, with fewer characters left, or refused. -/
def Reads {α : Type} (n : Nat) : Except Failure (α × List Char) → Prop
  | .ok (_, rest) => rest.length < n
  | .error e => e = .raised .valueError

variable {α β : Type} {n m : Nat} {cs : List Char}

theorem Reads.refused : Reads n (.error (.raised .valueError) : Except Failure (α × List Char)) :=
  rfl

theorem Reads.mono {x : Except Failure (α × List Char)} (h : Reads n x) (le : n ≤ m) :
    Reads m x := by
  cases x with
  | error e => exact h
  | ok read => exact Nat.lt_of_lt_of_le h le

theorem Reads.bind {x : Except Failure (α × List Char)}
    {f : α × List Char → Except Failure (β × List Char)}
    (h : Reads n x) (next : ∀ a rest, rest.length < n → Reads m (f (a, rest))) :
    Reads m (x >>= f) := by
  cases x with
  | error e => exact h
  | ok read => exact next read.1 read.2 h

variable [Codecs]

theorem reads_scanString (cs : List Char) : Reads cs.length (scanString cs) := by
  unfold scanString
  split
  case h_1 read left h => exact codes_shorter h
  case h_2 => exact Reads.refused

omit [Codecs] in
theorem integral_shorter {whole left : List Char} (h : integral cs = some (whole, left)) :
    left.length < cs.length := by
  unfold integral at h
  split at h
  · cases h
    simp
  · split at h
    · cases h
    · cases h
      have split := congrArg List.length (List.takeWhile_append_dropWhile (p := isDigit) (l := cs))
      rw [List.length_append] at split
      have some := List.length_pos_iff.mpr ‹_›
      omega

omit [Codecs] in
theorem length_fraction (cs : List Char) : (fraction cs).2.length ≤ cs.length := by
  have fewer (l : List Char) := (List.dropWhile_sublist (l := l) isDigit).length_le
  unfold fraction
  split
  · split
    · exact le_rfl
    · exact Nat.le_succ_of_le (fewer _)
  · exact le_rfl

omit [Codecs] in
theorem length_sign (cs : List Char) : (sign cs).2.length ≤ cs.length := by
  unfold sign
  split <;> simp

omit [Codecs] in
theorem length_exponent (cs : List Char) : (exponent cs).2.length ≤ cs.length := by
  have fewer (l : List Char) := (List.dropWhile_sublist (l := l) isDigit).length_le
  unfold exponent
  split
  · exact le_rfl
  · split
    · exact Nat.le_succ_of_le (Nat.le_trans (fewer _) (length_sign _))
    · exact le_rfl

theorem reads_unsigned (minus : Bool) (cs : List Char) : Reads cs.length (unsigned minus cs) := by
  unfold unsigned
  split
  · exact Reads.refused
  · rename_i whole rest h
    have fewer := integral_shorter h
    have left : (exponent (fraction rest).2).2.length < cs.length :=
      Nat.lt_of_le_of_lt (Nat.le_trans (length_exponent _) (length_fraction _)) fewer
    dsimp only
    split
    · split
      · exact left
      · rename_i e refused
        unfold unsignedInt at refused
        split at refused
        · split at refused <;> cases refused
          exact Reads.refused
        · cases refused
          exact Reads.refused
    · exact left

theorem reads_scalar (cs : List Char) : Reads cs.length (scalar cs) := by
  unfold scalar
  split
  · rename_i word value found
    have mem := List.mem_of_find?_eq_some found
    have within : word.isPrefixOf cs = true :=
      List.find?_some (p := fun constant : List Char × Json => constant.1.isPrefixOf cs) found
    have nonempty : 0 < word.length := by
      have all : ∀ constant ∈ constants, 0 < constant.1.length := by decide
      exact all _ mem
    have fits := (List.isPrefixOf_iff_prefix.mp within).length_le
    change (cs.drop word.length).length < cs.length
    rw [List.length_drop]
    omega
  · unfold number
    split
    · exact (reads_unsigned true _).mono (Nat.le_succ _)
    · exact reads_unsigned false _

section Readers

variable {fuel : Nat}

theorem reads_value (many : ∀ cs, 2 * cs.length + 1 < fuel → Reads cs.length (items fuel cs))
    (named : ∀ cs, 2 * cs.length + 1 < fuel → Reads cs.length (fields fuel cs))
    (enough : 2 * cs.length < fuel + 1) : Reads cs.length (value (fuel + 1) cs) := by
  unfold value
  split
  · rename_i rest
    exact (reads_scanString rest).bind fun s left fewer => Nat.lt_succ_of_lt fewer
  · rename_i rest
    have fewer := length_blank rest
    simp only [List.length_cons] at enough ⊢
    split
    · rename_i left closed
      rw [closed, List.length_cons] at fewer
      exact Nat.lt_succ_of_lt fewer
    · refine (named _ (by omega)).bind fun read left shorter => ?_
      change left.length < _
      omega
  · rename_i rest
    have fewer := length_blank rest
    simp only [List.length_cons] at enough ⊢
    split
    · rename_i left closed
      rw [closed, List.length_cons] at fewer
      exact Nat.lt_succ_of_lt fewer
    · refine (many _ (by omega)).bind fun read left shorter => ?_
      change left.length < _
      omega
  · exact reads_scalar cs

variable (one : ∀ cs, 2 * cs.length < fuel → Reads cs.length (value fuel cs))

include one

theorem reads_items (many : ∀ cs, 2 * cs.length + 1 < fuel → Reads cs.length (items fuel cs))
    (enough : 2 * cs.length + 1 < fuel + 1) : Reads cs.length (items (fuel + 1) cs) := by
  unfold items
  refine (one _ (by omega)).bind fun item rest fewer => ?_
  have blanks := length_blank rest
  dsimp only
  split
  · rename_i left closed
    rw [closed, List.length_cons] at blanks
    change left.length < _
    omega
  · rename_i left comma
    rw [comma, List.length_cons] at blanks
    have behind := length_blank left
    refine (many _ (by omega)).bind fun read last shorter => ?_
    change last.length < _
    omega
  · exact Reads.refused

theorem reads_fields (named : ∀ cs, 2 * cs.length + 1 < fuel → Reads cs.length (fields fuel cs))
    (enough : 2 * cs.length + 1 < fuel + 1) : Reads cs.length (fields (fuel + 1) cs) := by
  unfold fields
  split
  · cases ‹_ = _›
  · rename_i level rest same
    cases same
    simp only [List.length_cons] at enough ⊢
    refine (reads_scanString rest).bind fun key left fewer => ?_
    have blanks := length_blank left
    dsimp only
    split
    · rename_i behind colon
      rw [colon, List.length_cons] at blanks
      have open' := length_blank behind
      refine (one _ (by omega)).bind fun read after shorter => ?_
      have closing := length_blank after
      dsimp only
      split
      · rename_i last brace
        rw [brace, List.length_cons] at closing
        change last.length < _
        omega
      · rename_i last comma
        rw [comma, List.length_cons] at closing
        have next := length_blank last
        refine (named _ (by omega)).bind fun others final shortest => ?_
        change final.length < _
        omega
      · exact Reads.refused
    · exact Reads.refused
  · exact Reads.refused

end Readers

theorem reads (fuel : Nat) :
    (∀ cs, 2 * cs.length < fuel → Reads cs.length (value fuel cs)) ∧
      (∀ cs, 2 * cs.length + 1 < fuel → Reads cs.length (items fuel cs)) ∧
      (∀ cs, 2 * cs.length + 1 < fuel → Reads cs.length (fields fuel cs)) := by
  induction fuel with
  | zero => refine ⟨?_, ?_, ?_⟩ <;> simp
  | succ fuel ih =>
    obtain ⟨one, many, named⟩ := ih
    exact ⟨fun cs => reads_value many named, fun cs => reads_items one many,
      fun cs => reads_fields one named⟩

theorem parse_error {e : Failure} (h : parse cs = .error e) : e = .raised .valueError := by
  have fewer := length_blank cs
  have all := (reads (2 * cs.length + 1)).1 (blank cs) (by omega)
  unfold parse at h
  cases read : value (2 * cs.length + 1) (blank cs) with
  | error e' =>
    rw [read] at all h
    cases h
    exact all
  | ok found =>
    rw [read] at h
    simp only [bind, Except.bind] at h
    split at h
    · cases h
    · cases h
      rfl

theorem loads_error {bytes : List Nat} {e : Failure} (h : loads bytes = .error e) :
    e = .raised .valueError := by
  unfold loads at h
  dsimp only at h
  split at h
  · exact parse_error h
  · cases h
    rfl

end Total

section Written

theorem hexValue_digitChar : ∀ n < 16, hexValue (Nat.digitChar n) = some n := by decide

theorem hexDigits_succ (width n : Nat) :
    (hexDigits (width + 2) n).toList = (hexDigits (width + 1) (n / 16)).toList ++
      [Nat.digitChar (n % 16)] := by
  simp only [hexDigits, String.toList_ofList]
  rcases Nat.lt_or_ge n 16 with one | more
  · rw [Nat.toDigits_of_lt_base one, Nat.div_eq_of_lt one, Nat.mod_eq_of_lt one,
      Nat.toDigits_of_lt_base (by decide : 0 < 16)]
    have zero : Nat.digitChar 0 = '0' := rfl
    simp only [List.length_singleton, zero, ← List.replicate_succ']
    rfl
  · have fewer : width + 2 - ((Nat.toDigits 16 (n / 16)).length + 1) = width + 1 -
      (Nat.toDigits 16 (n / 16)).length := by
      omega
    rw [Nat.toDigits_of_base_le
      (by decide) more, List.length_append, List.append_assoc, List.length_singleton, fewer]

theorem hexDigits_one {n : Nat} (one : n < 16) : (hexDigits 1 n).toList = [Nat.digitChar n] := by
  simp [hexDigits, Nat.toDigits_of_lt_base one]

theorem hexDigits_four {n : Nat} (word : n < 65536) :
    (hexDigits 4 n).toList =
      [Nat.digitChar (n / 16 / 16 / 16), Nat.digitChar (n / 16 / 16 % 16),
        Nat.digitChar (n / 16 % 16),
        Nat.digitChar (n % 16)] := by
  rw [hexDigits_succ, hexDigits_succ, hexDigits_succ, hexDigits_one (by omega)]
  rfl

theorem hexNumber_digits {n : Nat} (word : n < 65536) :
    hexNumber [Nat.digitChar (n / 16 / 16 / 16), Nat.digitChar (n / 16 / 16 % 16),
      Nat.digitChar (n / 16 % 16),
      Nat.digitChar (n % 16)] = some n := by
  simp (disch := omega) only [hexNumber, List.foldlM, hexValue_digitChar, Option.map_some,
    Option.bind_eq_bind,
    Option.bind_some, Option.pure_def]
  congr 1
  omega

theorem codes_plain {c : Char} (plain : 32 ≤ c.toNat) (quote : c ≠ '"') (slash : c ≠ '\\')
    (cs : List Char) :
    codes (c :: cs) = (codes cs).map fun found => (.char c :: found.1, found.2) := by
  rw [codes.eq_def]
  simp only [if_neg quote, if_neg slash, if_neg (Nat.not_lt.mpr plain)]
  cases codes cs <;> rfl

theorem codes_hex {n : Nat} (word : n < 65536) (cs : List Char) :
    codes ("\\u".toList ++ ((hexDigits 4 n).toList ++ cs)) =
      (codes cs).map fun found => (.escaped n :: found.1, found.2) := by
  rw [hexDigits_four word]
  change codes ('\\' :: 'u' :: _ :: _ :: _ :: _ :: cs) = _
  rw [codes.eq_def]
  simp only [hexNumber_digits word]
  cases codes cs <;> rfl

theorem codes_escape {c e : Char} (found : escape e = some c) (cs : List Char) :
    codes ('\\' :: e :: cs) = (codes cs).map fun found => (.char c :: found.1, found.2) := by
  rw [codes.eq_def]
  simp only [if_neg (by decide : '\\' ≠ '"'), if_true]
  split
  · rename_i same
    cases same
    cases found
  · rename_i same
    cases same
    simp only [found]
    cases codes cs <;> rfl
  · rename_i same
    cases same

inductive Written (c : Char) : List Char → Prop
  | named {e : Char} (found : escape e = some c) (ascii : 0 < e.toNat ∧ e.toNat < 128) :
    Written c ['\\', e]
  | plain (least : 32 ≤ c.toNat) (most : c.toNat < 127) (quote : c ≠ '"') (slash : c ≠ '\\') :
      Written c [c]
  | word (word : c.toNat < 65536) (scalar : ¬(55296 ≤ c.toNat ∧ c.toNat < 57344)) :
    Written c ("\\u".toList ++ (hexDigits 4 c.toNat).toList)
  | pair {high low : Nat} (h : high < 1024) (l : low < 1024)
      (whole : 65536 + high * 1024 + low = c.toNat) :
    Written c ("\\u".toList ++ (hexDigits 4 (55296 + high)).toList ++
      ("\\u".toList ++ (hexDigits 4 (56320 + low)).toList))

theorem written (c : Char) : Written c (dumpsChar c).toList := by
  have named {n : Nat} (h : c.toNat = n) : c = Char.ofNat n := by rw [← h, Char.ofNat_toNat]
  have scalar : ¬(55296 ≤ c.toNat ∧ c.toNat < 57344) := by
    rintro ⟨least, most⟩
    rcases c.valid with h | h
    · exact absurd (Nat.lt_of_lt_of_le h least) (Nat.lt_irrefl _)
    · exact absurd (Nat.lt_of_lt_of_le most h.1) (Nat.lt_irrefl _)
  have bound : c.toNat < 1114112 := by
    rcases c.valid with h | h
    · exact Nat.lt_trans h (by decide)
    · exact h.2
  by_cases simple : c.toNat = 34 ∨ c.toNat = 92 ∨ c.toNat = 10 ∨ c.toNat = 13 ∨ c.toNat = 9 ∨
    c.toNat = 12 ∨
      c.toNat = 8
  · rcases simple with h | h | h | h | h | h | h
    all_goals
      rw [named h]
      exact .named rfl (by decide)
  · simp only [not_or] at simple
    obtain ⟨quote, slash, line, carriage, tab, feed, back⟩ := simple
    simp only [dumpsChar, quote, slash, line, carriage, tab, feed, back, or_self, if_false]
    split_ifs with control plain narrow
    · rw [String.toList_append]
      exact .word (by omega) scalar
    · have single : c.toString.toList = [c] := by simp [Char.toString]
      rw [single]
      refine .plain (Nat.not_lt.mp control) plain ?_ ?_
      · rintro rfl
        exact quote rfl
      · rintro rfl
        exact slash rfl
    · rw [String.toList_append]
      exact .word (by omega) scalar
    · rw [String.toList_append, String.toList_append, String.toList_append, List.append_assoc]
      exact .pair (by omega) (by omega) (by omega)

theorem Written.ascii {c : Char} {cs : List Char} (h : Written c cs) : ∀ b ∈ cs, 0 < b.toNat ∧
      b.toNat < 128 := by
  have digits {n : Nat} (word : n < 65536) :
      ∀ b ∈ "\\u".toList ++ (hexDigits 4 n).toList, 0 < b.toNat ∧ b.toNat < 128 := by
    have digit : ∀ n < 16, 0 < (Nat.digitChar n).toNat ∧ (Nat.digitChar n).toNat < 128 := by decide
    have escape : ∀ b ∈ "\\u".toList, 0 < b.toNat ∧ b.toNat < 128 := by simp
    rw [hexDigits_four word]
    simp only [List.forall_mem_append, List.forall_mem_cons]
    exact ⟨escape, digit _
      (by omega), digit _ (by omega), digit _ (by omega), digit _ (by omega), by simp⟩
  cases h with
  | named found ascii => simpa using ascii
  | plain least most quote slash =>
    rw [List.forall_mem_singleton]
    omega
  | word word scalar => exact digits word
  | pair h l whole =>
    rw [List.forall_mem_append]
    exact ⟨digits (by omega), digits (by omega)⟩

variable [Codecs]

theorem join_scalar {n : Nat} (scalar : ¬(55296 ≤ n ∧ n < 57344)) (rest : List Code) :
    join (.escaped n :: rest) = Char.ofNat n :: join rest := by
  rw [join.eq_def]
  simp only [if_neg scalar]

theorem join_pair {high low : Nat} (h : high < 1024) (l : low < 1024) (rest : List Code) :
    join (.escaped (55296 + high) :: .escaped (56320 + low) :: rest) =
      Char.ofNat (65536 + high * 1024 + low) :: join rest := by
  rw [join.eq_def]
  simp only []
  rw [if_pos (by omega), if_pos (by omega), Nat.add_sub_cancel_left, Nat.add_sub_cancel_left]

theorem Written.codes {c : Char} {cs : List Char} (h : Written c cs) :
    ∃ read, (∀ rest, codes (cs ++ rest) = (codes rest).map fun found =>
      (read ++ found.1, found.2)) ∧
      ∀ more, join (read ++ more) = c :: join more := by
  have char : Char.ofNat c.toNat = c := Char.ofNat_toNat c
  cases h with
  | named found ascii => exact ⟨[.char c], codes_escape found, fun more => rfl⟩
  | plain least most quote slash =>
    exact ⟨[.char c], codes_plain least quote slash, fun more => rfl⟩
  | word word scalar =>
    refine ⟨[.escaped c.toNat], fun rest => ?_, fun more => ?_⟩
    · rw [List.append_assoc, codes_hex word]
      rfl
    · rw [List.singleton_append, join_scalar scalar, char]
  | @pair high low h l whole =>
    refine ⟨[.escaped (55296 + high), .escaped (56320 + low)], fun rest => ?_, fun more => ?_⟩
    · simp only [List.append_assoc]
      rw [codes_hex (by omega), codes_hex (by omega), Option.map_map]
      rfl
    · rw [List.cons_append, List.singleton_append, join_pair h l, whole, char]

def inside (s : String) : List Char := s.toList.flatMap fun c => (dumpsChar c).toList

omit [Codecs] in
theorem toList_dumpsStr (s : String) : (dumpsStr s).toList = '"' :: (inside s ++ ['"']) := by
  simp [dumpsStr, inside, String.toList_join, List.flatMap_map]

omit [Codecs] in
theorem ascii_dumpsStr (s : String) : ∀ b ∈ (dumpsStr s).toList, 0 < b.toNat ∧ b.toNat < 128 := by
  rw [toList_dumpsStr, List.forall_mem_cons, List.forall_mem_append]
  refine ⟨by decide, ?_, by simp⟩
  intro b mem
  obtain ⟨c, -, h⟩ := List.mem_flatMap.mp mem
  exact (written c).ascii b h

theorem scanString_inside (s : String) (rest : List Char) :
    scanString (inside s ++ '"' :: rest) = .ok (s, rest) := by
  have all (chars : List Char) : ∃ read,
      JsonText.codes ((chars.flatMap fun c => (dumpsChar c).toList) ++ '"' :: rest) = some
        (read, rest) ∧
        join read = chars := by
    induction chars with
    | nil =>
      refine ⟨[], ?_, rfl⟩
      rw [List.flatMap_nil, List.nil_append, codes.eq_def]
      rfl
    | cons c chars ih =>
      obtain ⟨read, found, joined⟩ := ih
      obtain ⟨first, scanned, made⟩ := (written c).codes
      refine ⟨first ++ read, ?_, ?_⟩
      · rw [List.flatMap_cons, List.append_assoc, scanned, found, Option.map_some]
      · rw [made, joined]
  obtain ⟨read, found, joined⟩ := all s.toList
  rw [scanString, inside, found]
  simp only [joined, String.ofList_toList]

theorem value_dumpsStr (fuel : Nat) (s : String) (rest : List Char) :
    value (fuel + 1) ((dumpsStr s).toList ++ rest) = .ok (.str s, rest) := by
  rw [toList_dumpsStr, List.cons_append, List.append_assoc, List.singleton_append, value.eq_def]
  simp only [scanString_inside]
  rfl

omit [Codecs] in
theorem blank_cons {c : Char} (h : isBlank c = false) (cs : List Char) :
    blank (c :: cs) = c :: cs := by
  rw [blank, List.dropWhile_cons_of_neg (by simp [h])]

omit [Codecs] in
theorem blank_dumpsStr (s : String) (rest : List Char) :
    blank ((dumpsStr s).toList ++ rest) = (dumpsStr s).toList ++ rest := by
  rw [toList_dumpsStr, List.cons_append]
  exact blank_cons rfl _

theorem fields_cons (fuel : Nat) (k v : String) (rest : List Char) :
    fields (fuel + 2) ((dumpsStr k).toList ++ ':' :: ((dumpsStr v).toList ++ rest)) =
      match blank rest with
      | '\x7d' :: rest => .ok ([(k, .str v)], rest)
      | ',' :: rest => do
        let (others, rest) ← fields (fuel + 1) (blank rest)
        return ((k, .str v) :: others, rest)
      | _ => .error (.raised .valueError) := by
  rw [toList_dumpsStr, List.cons_append, List.append_assoc, List.singleton_append, fields.eq_def]
  simp only [scanString_inside, blank_cons (c := ':') rfl, blank_dumpsStr, value_dumpsStr,
    bind, Except.bind]
  rfl

omit [Codecs] in
theorem quote_compactFields (field : String × String) (others : List (String × String)) :
    ∃ cs, (compactFields (field :: others)).toList = '"' :: cs := by
  cases others with
  | nil =>
    simp only [compactFields, String.toList_append, toList_dumpsStr, List.cons_append]
    exact ⟨_, rfl⟩
  | cons next others =>
    simp only [compactFields, String.toList_append, toList_dumpsStr, List.cons_append]
    exact ⟨_, rfl⟩

theorem value_brace (fuel : Nat) (cs : List Char) :
    value (fuel + 1) ('\x7b' :: '"' :: cs) = do
      let (read, rest) ← fields fuel ('"' :: cs)
      return (.obj (distinct read), rest) := by
  rw [value.eq_def]
  simp only [blank_cons (c := '"') rfl]
  rfl

theorem fields_compact {l : List (String × String)} (some : l ≠ []) (fuel : Nat)
    (enough : l.length < fuel)
    (rest : List Char) :
    fields fuel ((compactFields l).toList ++ '\x7d' :: rest) = .ok (l.map fun f =>
      (f.1, .str f.2), rest) := by
  induction l generalizing fuel with
  | nil => exact absurd rfl some
  | cons field others ih =>
    obtain ⟨k, v⟩ := field
    obtain ⟨fuel, rfl⟩ : ∃ n, fuel = n + 2 :=
      ⟨fuel - 2, by simp only [List.length_cons] at enough; omega⟩
    cases others with
    | nil =>
      have text : (compactFields [(k, v)]).toList ++ '\x7d' :: rest =
          (dumpsStr k).toList ++ ':' :: ((dumpsStr v).toList ++ '\x7d' :: rest) := by
        simp [compactFields]
      rw [text, fields_cons, blank_cons rfl]
      rfl
    | cons next others =>
      have text : (compactFields ((k, v) :: next :: others)).toList ++ '\x7d' :: rest =
          (dumpsStr k).toList ++ ':' :: ((dumpsStr v).toList ++
            ',' :: ((compactFields (next :: others)).toList ++ '\x7d' :: rest)) := by
        simp [compactFields]
      rw [text, fields_cons, blank_cons rfl]
      change (do
        let (read, rest) ← fields (fuel + 1) (blank _)
        return ((k, Json.str v) :: read, rest)) = _
      obtain ⟨cs, quote⟩ := quote_compactFields next others
      have unchanged : blank ((compactFields (next :: others)).toList ++ '\x7d' :: rest) =
          (compactFields (next :: others)).toList ++ '\x7d' :: rest := by
        rw [quote, List.cons_append]
        exact blank_cons rfl _
      rw [unchanged, ih (by simp) _ (by simpa using enough)]
      rfl

omit [Codecs] in
theorem ascii_compact (l : List (String × String)) : ∀ b ∈ (compact l).toList, 0 < b.toNat ∧
      b.toNat < 128 := by
  have inner : ∀ b ∈ (compactFields l).toList, 0 < b.toNat ∧ b.toNat < 128 := by
    fun_induction compactFields l with
    | case1 => simp
    | case2 k v =>
      simp only [String.toList_append, List.forall_mem_append]
      exact ⟨⟨ascii_dumpsStr k, by simp⟩, ascii_dumpsStr v⟩
    | case3 k v rest more ih =>
      simp only [String.toList_append, List.forall_mem_append]
      exact ⟨⟨⟨⟨ascii_dumpsStr k, by simp⟩, ascii_dumpsStr v⟩, by simp⟩, ih⟩
  simp only [compact, String.toList_append, List.forall_mem_append]
  exact ⟨⟨by simp, inner⟩, by simp⟩

omit [Codecs] in
theorem length_compactFields (l : List (String × String)) :
    l.length ≤ (compactFields l).toList.length := by
  fun_induction compactFields l with
  | case1 => exact Nat.zero_le _
  | case2 k v =>
    simp only [String.toList_append, List.length_append, toList_dumpsStr, List.length_cons]
    omega
  | case3 k v rest more ih =>
    simp only [String.toList_append, List.length_append, toList_dumpsStr, List.length_cons]
    omega

omit [Codecs] in
theorem toList_compact (l : List (String × String)) :
    (compact l).toList = '\x7b' :: ((compactFields l).toList ++ ['\x7d']) := by
  simp [compact]

theorem value_compact {l : List (String × String)} (some : l ≠ []) (fuel : Nat)
    (enough : l.length < fuel) :
    value (fuel + 1) (compact l).toList = .ok
      (.obj (distinct (l.map fun f => (f.1, .str f.2))), []) := by
  obtain ⟨field, others, rfl⟩ := List.exists_cons_of_ne_nil some
  obtain ⟨cs, quote⟩ := quote_compactFields field others
  have read := fields_compact some fuel enough []
  rw [quote, List.cons_append] at read
  rw [toList_compact, quote, List.cons_append, value_brace, read]
  rfl

theorem loads_compact {l : List (String × String)} (some : l ≠ []) :
    loads ((compact l).toList.map Char.toNat) = .ok
      (.obj (distinct (l.map fun f => (f.1, .str f.2)))) := by
  have ascii : ((compact l).toList.map Char.toNat).all (fun b => 0 < b ∧ b < 128) = true := by
    simpa using ascii_compact l
  have same : ((compact l).toList.map Char.toNat).map Char.ofNat = (compact l).toList := by
    rw [List.map_map]
    simp [Function.comp_def, Char.ofNat_toNat]
  have unblank : blank (compact l).toList = (compact l).toList := by
    rw [toList_compact]
    exact blank_cons rfl _
  have room : l.length < 2 * (compact l).toList.length := by
    have enough := length_compactFields l
    rw [toList_compact, List.length_cons, List.length_append]
    omega
  rw [loads, if_pos ascii, same]
  dsimp only
  rw [parse, unblank, value_compact some _ room]
  rfl

end Written

end BlizzardMock.JsonText
