import Mathlib.Data.List.TakeWhile
import BlizzardMock.Python.Json

namespace BlizzardMock.Base64

def digit (n : Nat) : Char :=
  if n < 26 then Char.ofNat (65 + n)
  else if n < 52 then Char.ofNat (71 + n)
  else if n < 62 then Char.ofNat (n - 4)
  else if n = 62 then '-'
  else '_'

def value (c : Char) : Option Nat :=
  let n := c.toNat
  if 65 ≤ n ∧ n ≤ 90 then some (n - 65)
  else if 97 ≤ n ∧ n ≤ 122 then some (n - 71)
  else if 48 ≤ n ∧ n ≤ 57 then some (n + 4)
  else if c = '-' ∨ c = '+' then some 62
  else if c = '_' ∨ c = '/' then some 63
  else none

/-- `urlsafe_b64encode` -/
def encode : List Nat → List Char
  | a :: b :: c :: rest =>
    digit (a / 4) :: digit (a % 4 * 16 + b / 16) :: digit (b % 16 * 4 + c / 64) :: digit
      (c % 64) :: encode rest
  | [a, b] => [digit (a / 4), digit (a % 4 * 16 + b / 16), digit (b % 16 * 4), '=']
  | [a] => [digit (a / 4), digit (a % 4 * 16), '=', '=']
  | [] => []

/-- The loop of `a2b_base64`: how many characters of a group of four are read, the bits left over
from them, and how many pads stand behind them.  Characters of no alphabet are skipped. -/
def scan : Nat → Nat → Nat → List Char → Except PyError (List Nat)
  | quad, _, _, [] => if quad = 0 then .ok [] else .error .valueError
  | quad, left, pads, c :: rest =>
    if c = '=' then
      if 2 ≤ quad then
        if 4 ≤ quad + (pads + 1) then .ok [] else scan quad left (pads + 1) rest
      else scan quad left pads rest
    else
      match value c with
      | none => scan quad left pads rest
      | some bits =>
        match quad with
        | 0 => scan 1 bits 0 rest
        | 1 => (scan 2 (bits % 16) 0 rest).map ((left * 4 + bits / 16) :: ·)
        | 2 => (scan 3 (bits % 4) 0 rest).map ((left * 16 + bits / 4) :: ·)
        | _ => (scan 0 0 0 rest).map ((left * 64 + bits) :: ·)

/-- `urlsafe_b64decode`, of a text. -/
def decode (cs : List Char) : Except PyError (List Nat) :=
  if cs.all (·.toNat < 128) then scan 0 0 0 cs else .error .valueError

def strip (cs : List Char) : List Char := (cs.reverse.dropWhile (· = '=')).reverse

def pad (cs : List Char) : List Char := cs ++ List.replicate ((4 - cs.length % 4) % 4) '='

theorem value_digit : ∀ n < 64, value (digit n) = some n := by decide

theorem digit_ne_pad : ∀ n < 64, digit n ≠ '=' := by decide

theorem ascii_digit : ∀ n < 64, (digit n).toNat < 128 := by decide

variable {bytes : List Nat}

theorem scan_digit {n : Nat} (six : n < 64) (quad left pads : Nat) (rest : List Char) :
    scan quad left pads (digit n :: rest) =
      match quad with
      | 0 => scan 1 n 0 rest
      | 1 => (scan 2 (n % 16) 0 rest).map ((left * 4 + n / 16) :: ·)
      | 2 => (scan 3 (n % 4) 0 rest).map ((left * 16 + n / 4) :: ·)
      | _ => (scan 0 0 0 rest).map ((left * 64 + n) :: ·) := by
  rw [scan, if_neg (digit_ne_pad n six), value_digit n six]

theorem regroup {a b c : Nat} (hb : b < 256) (hc : c < 256) :
    a / 4 * 4 + (a % 4 * 16 + b / 16) / 16 = a ∧
      (a % 4 * 16 + b / 16) % 16 * 16 + (b % 16 * 4 + c / 64) / 4 = b ∧
      (b % 16 * 4 + c / 64) % 4 * 64 + c % 64 = c := by
  refine ⟨?_, ?_, ?_⟩ <;> omega

theorem scan_one_pad (left : Nat) : scan 3 left 0 ['='] = .ok [] := rfl

theorem scan_two_pads (left : Nat) : scan 2 left 0 ['=', '='] = .ok [] := rfl

theorem scan_encode (octets : ∀ b ∈ bytes, b < 256) : scan 0 0 0 (encode bytes) = .ok bytes := by
  induction bytes using encode.induct with
  | case1 a b c rest ih =>
    simp only [List.mem_cons, forall_eq_or_imp] at octets
    obtain ⟨ha, hb, hc, hrest⟩ := octets
    obtain ⟨first, second, third⟩ := regroup (a := a) hb hc
    simp (disch := omega) only [encode, scan_digit, ih hrest, Except.map, first, second, third]
  | case2 a b =>
    simp only [List.mem_cons, forall_eq_or_imp] at octets
    obtain ⟨ha, hb, -⟩ := octets
    obtain ⟨first, second, -⟩ := regroup (a := a) (c := 0) hb (by omega)
    simp only [Nat.zero_div, Nat.add_zero] at second
    simp (disch := omega) only [encode, scan_digit, scan_one_pad, Except.map, first, second]
  | case3 a =>
    simp only [List.mem_cons, forall_eq_or_imp] at octets
    obtain ⟨ha, -⟩ := octets
    obtain ⟨first, -, -⟩ := regroup (a := a) (b := 0) (c := 0) (by omega) (by omega)
    simp only [Nat.zero_div, Nat.add_zero] at first
    simp (disch := omega) only [encode, scan_digit, scan_two_pads, Except.map, first]
  | case4 => rfl

theorem ascii_encode (octets : ∀ b ∈ bytes, b < 256) : ∀ c ∈ encode bytes, c.toNat < 128 := by
  induction bytes using encode.induct with
  | case1 a b c rest ih =>
    simp only [List.mem_cons, forall_eq_or_imp] at octets
    obtain ⟨ha, hb, hc, hrest⟩ := octets
    simp only [encode, List.mem_cons, forall_eq_or_imp]
    exact ⟨ascii_digit _ (by omega), ascii_digit _ (by omega), ascii_digit _ (by omega),
      ascii_digit _ (by omega), ih hrest⟩
  | case2 a b =>
    simp only [List.mem_cons, forall_eq_or_imp] at octets
    obtain ⟨ha, hb, -⟩ := octets
    simp only [encode, List.mem_cons, forall_eq_or_imp]
    exact ⟨ascii_digit _
      (by omega), ascii_digit _ (by omega), ascii_digit _ (by omega), by decide, by simp⟩
  | case3 a =>
    simp only [List.mem_cons, forall_eq_or_imp] at octets
    obtain ⟨ha, -⟩ := octets
    simp only [encode, List.mem_cons, forall_eq_or_imp]
    exact ⟨ascii_digit _ (by omega), ascii_digit _ (by omega), by decide, by decide, by simp⟩
  | case4 => simp [encode]

theorem decode_encode (octets : ∀ b ∈ bytes, b < 256) : decode (encode bytes) = .ok bytes := by
  have ascii : (encode bytes).all (·.toNat < 128) = true := by simpa using ascii_encode octets
  rw [decode, if_pos ascii, scan_encode octets]

theorem scan_error {quad left pads : Nat} {cs : List Char} {e : PyError}
    (h : scan quad left pads cs = .error e) : e = .valueError := by
  have mapped {b : Nat} {x : Except PyError (List Nat)} (h : x.map (b :: ·) = .error e) :
    x = .error e := by
    cases x with
    | error _ => simpa [Except.map] using h
    | ok _ => cases h
  fun_induction scan quad left pads cs with
  | case1 => cases h
  | case2 =>
    cases h
    rfl
  | case3 => cases h
  | case4 _ _ _ _ _ _ ih => exact ih h
  | case5 _ _ _ _ _ ih => exact ih h
  | case6 _ _ _ _ _ _ _ ih => exact ih h
  | case7 _ _ _ _ _ _ _ ih => exact ih h
  | case8 _ _ _ _ _ _ _ ih => exact ih (mapped h)
  | case9 _ _ _ _ _ _ _ ih => exact ih (mapped h)
  | case10 _ _ _ _ _ _ _ _ _ _ _ ih => exact ih (mapped h)

theorem decode_error {cs : List Char} {e : PyError} (h : decode cs = .error e) :
    e = .valueError := by
  unfold decode at h
  split at h
  · exact scan_error h
  · cases h
    rfl

theorem encode_pads (octets : ∀ b ∈ bytes, b < 256) :
    ∃ body pads, encode bytes = body ++ List.replicate pads '=' ∧
    pads < 4 ∧ (body.length + pads) % 4 = 0 ∧ ∀ c ∈ body, c ≠ '=' := by
  induction bytes using encode.induct with
  | case1 a b c rest ih =>
    simp only [List.mem_cons, forall_eq_or_imp] at octets
    obtain ⟨ha, hb, hc, hrest⟩ := octets
    obtain ⟨body, pads, split, few, whole, none⟩ := ih hrest
    refine ⟨_ :: _ :: _ :: _ :: body, pads, by rw [encode, split]; rfl, few, ?_, ?_⟩
    · simp only [List.length_cons]
      omega
    · simp only [List.mem_cons, forall_eq_or_imp]
      exact ⟨digit_ne_pad _ (by omega), digit_ne_pad _ (by omega), digit_ne_pad _ (by omega),
        digit_ne_pad _ (by omega), none⟩
  | case2 a b =>
    simp only [List.mem_cons, forall_eq_or_imp] at octets
    obtain ⟨ha, hb, -⟩ := octets
    refine ⟨[_, _, _], 1, rfl, by decide, by simp, ?_⟩
    simp only [List.mem_cons, forall_eq_or_imp]
    exact ⟨digit_ne_pad _ (by omega), digit_ne_pad _ (by omega), digit_ne_pad _ (by omega), by simp⟩
  | case3 a =>
    simp only [List.mem_cons, forall_eq_or_imp] at octets
    obtain ⟨ha, -⟩ := octets
    refine ⟨[_, _], 2, rfl, by decide, by simp, ?_⟩
    simp only [List.mem_cons, forall_eq_or_imp]
    exact ⟨digit_ne_pad _ (by omega), digit_ne_pad _ (by omega), by simp⟩
  | case4 => exact ⟨[], 0, rfl, by decide, rfl, by simp⟩

theorem strip_pads {body : List Char} (none : ∀ c ∈ body, c ≠ '=') (pads : Nat) :
    strip (body ++ List.replicate pads '=') = body := by
  rw [strip, List.reverse_append, List.reverse_replicate, List.dropWhile_append_of_pos (by simp),
    List.dropWhile_eq_self_iff.mpr, List.reverse_reverse]
  intro some
  simpa using none _ (List.mem_reverse.mp (List.getElem_mem some))

theorem pad_strip (octets : ∀ b ∈ bytes, b < 256) : pad (strip (encode bytes)) = encode bytes := by
  obtain ⟨body, pads, split, few, whole, none⟩ := encode_pads octets
  have lost : (4 - body.length % 4) % 4 = pads := by omega
  rw [split, strip_pads none, pad, lost]

end BlizzardMock.Base64
