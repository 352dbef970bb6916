import BlizzardMock.Data.Flat
import BlizzardMock.Python.Url

namespace BlizzardMock.Url

open Substitution

def isQuoted (c : Char) : Bool := isSafe c || c = '+' || c = '%'

theorem hexDigit_spec : ∀ n < 16, JsonText.hexValue (quoteByte.hexDigit n) = some n ∧
      isSafe (quoteByte.hexDigit n) := by
  decide

theorem isAscii_of_isSafe {c : Char} (h : isSafe c = true) : isAscii c = true := by
  delta isSafe Char.isAlphanum Char.isAlpha Char.isUpper Char.isLower Char.isDigit at h
  simp only [Bool.or_eq_true, Bool.and_eq_true, decide_eq_true_eq, List.mem_cons, List.not_mem_nil,
    or_false] at h
  rw [isAscii, decide_eq_true_eq]
  obtain ((⟨-, high⟩ | ⟨-, high⟩) | ⟨-, high⟩) | rfl | rfl | rfl | rfl := h
  · exact Nat.lt_of_le_of_lt (UInt32.le_iff_toNat_le.mp high) (by decide)
  · exact Nat.lt_of_le_of_lt (UInt32.le_iff_toNat_le.mp high) (by decide)
  · exact Nat.lt_of_le_of_lt (UInt32.le_iff_toNat_le.mp high) (by decide)
  all_goals decide

theorem isQuoted_quoteByte {b : UInt8} {c : Char} (mem : c ∈ quoteByte b) : isQuoted c = true := by
  have bound := b.toNat_lt
  have high := (hexDigit_spec (b.toNat / 16) (by omega)).2
  have low := (hexDigit_spec (b.toNat % 16) (by omega)).2
  simp only [quoteByte, List.mem_cons, List.not_mem_nil, or_false] at mem
  obtain rfl | rfl | rfl := mem
  · decide
  · rw [isQuoted, high, Bool.true_or, Bool.true_or]
  · rw [isQuoted, low, Bool.true_or, Bool.true_or]

theorem isQuoted_quotePlus {text : Text} {c : Char} (mem : c ∈ quotePlus text) :
    isQuoted c = true := by
  obtain ⟨d, -, mem⟩ := List.mem_flatMap.mp mem
  rw [quoteChar] at mem
  split at mem
  · rw [List.mem_singleton.mp mem]
    decide
  · split at mem
    · next safe => rw [List.mem_singleton.mp mem, isQuoted, safe, Bool.true_or, Bool.true_or]
    · obtain ⟨b, -, mem⟩ := List.mem_flatMap.mp mem
      exact isQuoted_quoteByte mem

theorem notMem_quotePlus {c : Char} (other : isQuoted c = false) (text : Text) :
    c ∉ quotePlus text := fun mem => by
  rw [isQuoted_quotePlus mem] at other
  cases other

theorem mem_urlencode {query : List (Text × Text)} {c : Char} (mem : c ∈ urlencode query) :
    isQuoted c = true ∨ c = '&' ∨ c = '=' := by
  induction query with
  | nil => cases mem
  | cons item rest ih =>
    have first : c ∈ pair item → isQuoted c = true ∨ c = '&' ∨ c = '=' := by
      rw [pair, List.mem_append, List.mem_cons]
      rintro (name | rfl | value)
      · exact .inl (isQuoted_quotePlus name)
      · exact .inr (.inr rfl)
      · exact .inl (isQuoted_quotePlus value)
    rw [urlencode] at mem ih
    cases rest with
    | nil => exact first (by simpa using mem)
    | cons next rest =>
      have some : (next :: rest).map pair ≠ [] := List.cons_ne_nil _ _
      rw [List.map_cons, List.intercalate_cons_of_ne_nil some, List.append_assoc] at mem
      obtain here | parts := List.mem_append.mp mem
      · exact first here
      · obtain mark | behind := List.mem_append.mp parts
        · exact .inr (.inl (List.mem_singleton.mp mark))
        · exact ih behind

def spaced (c : Char) : Text := if c = ' ' then [' '] else quoteChar c

theorem map_quotePlus (text : Text) :
    (quotePlus text).map (fun c => if c = '+' then ' ' else c) = text.flatMap spaced := by
  rw [quotePlus, List.map_flatMap]
  congr 1
  funext c
  rw [spaced, quoteChar]
  by_cases blank : c = ' '
  · subst blank
    rfl
  · rw [if_neg blank, if_neg blank]
    have kept : ∀ text : Text, '+' ∉ text →
      text.map (fun c => if c = '+' then ' ' else c) = text := by
      intro text none
      refine (List.map_congr_left fun d mem => if_neg fun same => none ?_).trans (List.map_id _)
      rw [← same]
      exact mem
    refine kept _ ?_
    split
    · next safe =>
      intro mem
      rw [← List.mem_singleton.mp mem] at safe
      exact absurd safe (by decide)
    · intro mem
      obtain ⟨b, -, mem⟩ := List.mem_flatMap.mp mem
      have bound := b.toNat_lt
      have high := (hexDigit_spec (b.toNat / 16) (by omega)).2
      have low := (hexDigit_spec (b.toNat % 16) (by omega)).2
      simp only [quoteByte, List.mem_cons, List.not_mem_nil, or_false] at mem
      obtain mem | mem | mem := mem
      · exact absurd mem (by decide)
      · rw [← mem] at high
        exact absurd high (by decide)
      · rw [← mem] at low
        exact absurd low (by decide)

theorem unquoteToBytes_cons {c : Char} (other : c ≠ '%') (rest : Text) :
    unquoteToBytes (c :: rest) = byteOf c :: unquoteToBytes rest := by
  have none : findEscape (c :: rest) = none := by
    rw [findEscape.eq_2]
    rintro _ _ _ ⟨⟩
    exact other rfl
  rw [unquoteToBytes, sub_cons none]
  rfl

theorem unquoteToBytes_quoteByte (b : UInt8) (rest : Text) :
    unquoteToBytes (quoteByte b ++ rest) = b :: unquoteToBytes rest := by
  have bound := b.toNat_lt
  have high := (hexDigit_spec (b.toNat / 16) (by omega)).1
  have low := (hexDigit_spec (b.toNat % 16) (by omega)).1
  have whole : 16 * (b.toNat / 16) + b.toNat % 16 = b.toNat := Nat.div_add_mod _ _
  have found : findEscape (quoteByte b ++ rest) = some (b, 3) := by
    rw [quoteByte, List.cons_append, List.cons_append, List.cons_append, List.nil_append,
      findEscape, high, low]
    simp only [Option.pure_def, Option.bind_eq_bind, Option.bind_some, whole, UInt8.ofNat_toNat]
  have valid : b.toNat.isValidChar := .inl (by omega)
  have same : byteOf (Char.ofNat b.toNat) = b := by
    have whole : (Char.ofNat b.toNat).toNat = b.toNat := by
      rw [Char.ofNat, dif_pos valid]
      rfl
    rw [byteOf, whole, UInt8.ofNat_toNat]
  rw [unquoteToBytes,
    sub_match found (by simp [quoteByte]) (by decide), List.map_append, List.map_singleton, same]
  rfl

theorem unquoteToBytes_bytes (bytes : List UInt8) (rest : Text) :
    unquoteToBytes (bytes.flatMap quoteByte ++ rest) = bytes ++ unquoteToBytes rest := by
  induction bytes with
  | nil => rfl
  | cons b bytes ih =>
    rw [List.flatMap_cons, List.append_assoc, unquoteToBytes_quoteByte, ih, List.cons_append]

theorem utf8EncodeChar_ascii {c : Char} (h : isAscii c = true) :
    String.utf8EncodeChar c = [byteOf c] := by
  rw [isAscii, decide_eq_true_eq] at h
  exact if_pos (Nat.le_of_lt_succ h)

theorem unquoteToBytes_spaced (c : Char) (rest : Text) :
    unquoteToBytes (spaced c ++ rest) = String.utf8EncodeChar c ++ unquoteToBytes rest := by
  rw [spaced]
  split
  · next blank =>
    subst blank
    exact unquoteToBytes_cons (by decide) rest
  · next other =>
    rw [quoteChar, if_neg other]
    split
    · next safe =>
      rw [utf8EncodeChar_ascii (isAscii_of_isSafe safe)]
      exact unquoteToBytes_cons
        (fun same => by rw [same] at safe; exact absurd safe (by decide)) rest
    · exact unquoteToBytes_bytes _ rest

theorem unquoteToBytes_quoted (text : Text) :
    unquoteToBytes (text.flatMap spaced) = text.flatMap String.utf8EncodeChar := by
  induction text with
  | nil => rfl
  | cons c rest ih => rw [List.flatMap_cons, unquoteToBytes_spaced, ih, List.flatMap_cons]

variable [Replacing]

theorem decode_utf8 (text : Text) : decode (text.flatMap String.utf8EncodeChar) = text := by
  have read : (text.flatMap String.utf8EncodeChar).toByteArray.utf8Decode? = some text.toArray :=
    List.utf8Decode?_utf8Encode
  rw [decode, read]

theorem unquote_ascii {text : Text} (ascii : ∀ c ∈ text, isAscii c = true) :
    unquote text = decode (unquoteToBytes text) := by
  cases text with
  | nil => exact (decode_utf8 []).symm
  | cons c rest =>
    have chain : (c :: rest).IsChain fun a b => (isAscii a == isAscii b) = true := by
      refine List.Pairwise.isChain (List.pairwise_of_forall_mem_list fun a ha b hb => ?_)
      rw [ascii a ha, ascii b hb]
      rfl
    rw [unquote, List.splitBy_of_isChain (List.cons_ne_nil c rest) chain, List.flatMap_singleton,
      if_pos (List.all_eq_true.mpr ascii)]

theorem unquotePlus_quotePlus (text : Text) : unquotePlus (quotePlus text) = text := by
  have ascii : ∀ c ∈ text.flatMap spaced, isAscii c = true := by
    intro c mem
    rw [← map_quotePlus] at mem
    obtain ⟨d, written, rfl⟩ := List.mem_map.mp mem
    have quoted := isQuoted_quotePlus written
    split
    · decide
    · simp only [isQuoted, Bool.or_eq_true, decide_eq_true_eq] at quoted
      obtain (safe | rfl) | rfl := quoted
      · exact isAscii_of_isSafe safe
      · decide
      · decide
  rw [unquotePlus, map_quotePlus, unquote_ascii ascii, unquoteToBytes_quoted, decode_utf8]

theorem pair_read (item : Text × Text) : (unquotePlus ((pair item).takeWhile (· ≠ '=')),
    unquotePlus (((pair item).dropWhile (· ≠ '=')).drop 1)) = item := by
  have plain : '=' ∉ quotePlus item.1 := notMem_quotePlus (by decide) item.1
  rw [pair, Flat.takeWhile_before plain, Flat.dropWhile_before plain, List.drop_succ_cons,
    List.drop_zero,
    unquotePlus_quotePlus, unquotePlus_quotePlus]

theorem parseQsl_urlencode (query : List (Text × Text)) : parseQsl (urlencode query) = query := by
  by_cases empty : query = []
  · subst empty
    rfl
  have plain : ∀ piece ∈ query.map pair, '&' ∉ piece := by
    intro piece mem
    obtain ⟨item, -, rfl⟩ := List.mem_map.mp mem
    rw [pair, List.mem_append, List.mem_cons, not_or, not_or]
    exact ⟨notMem_quotePlus (by decide) _, by decide, notMem_quotePlus (by decide) _⟩
  have some : (query.map pair).filter (· ≠ []) = query.map pair := by
    refine List.filter_eq_self.mpr fun piece mem => ?_
    obtain ⟨item, -, rfl⟩ := List.mem_map.mp mem
    simp [pair]
  rw [parseQsl, urlencode,
    List.splitOn_intercalate '&' plain (by simpa using empty), some, List.map_map]
  exact (List.map_congr_left fun item _ => pair_read item).trans (List.map_id _)

end BlizzardMock.Url
