import BlizzardMock.Python.DateTime

namespace BlizzardMock.DateTime

theorem asciiDigit_of_isDigit {c : Char} (digit : c.isDigit = true) :
    asciiDigit c = some (c.toNat - 48) := by
  simp only [Char.isDigit, ge_iff_le, Bool.and_eq_true, decide_eq_true_eq] at digit
  simp only [asciiDigit]
  rw [if_pos]
  exact ⟨UInt32.le_iff_toNat_le.mp digit.1, UInt32.le_iff_toNat_le.mp digit.2⟩

theorem takeDigits_append {ds : List Char} (digits : ∀ c ∈ ds, c.isDigit = true) (n : Nat)
    (cs : List Char) :
    takeDigits ds.length n (ds ++ cs) = some (Nat.ofDigitChars 10 ds n, cs) := by
  induction ds generalizing n with
  | nil => rfl
  | cons d ds ih =>
    have rest := ih (fun c mem => digits c (List.mem_cons_of_mem d mem)) (10 * n + (d.toNat - 48))
    simp only [List.length_cons, List.cons_append, takeDigits,
      asciiDigit_of_isDigit (digits d List.mem_cons_self), Option.bind_eq_bind, Option.bind_some]
    rw [rest, Nat.ofDigitChars_cons]
    rfl

theorem toList_padded (width n : Nat) : (padded width n).toList =
    List.replicate (width - (Nat.toDigits 10 n).length) '0' ++ Nat.toDigits 10 n := by
  simp [padded]

theorem isDigit_padded {width n : Nat} {c : Char} (mem : c ∈ (padded width n).toList) :
    c.isDigit = true := by
  rw [toList_padded, List.mem_append] at mem
  cases mem with
  | inl mem => rw [(List.mem_replicate.mp mem).2]; rfl
  | inr mem => exact Nat.isDigit_of_mem_toDigits (by decide) (by decide) mem

theorem length_padded {width n : Nat} (wide : 0 < width) (fits : n < 10 ^ width) :
    (padded width n).toList.length = width := by
  have short := (Nat.length_toDigits_le_iff (by decide) wide).mpr fits
  rw [toList_padded, List.length_append, List.length_replicate]
  omega

theorem takeDigits_padded {width n : Nat} (wide : 0 < width) (fits : n < 10 ^ width)
    (cs : List Char) :
    takeDigits width 0 ((padded width n).toList ++ cs) = some (n, cs) := by
  have digits : ∀ c ∈ (padded width n).toList, c.isDigit = true := fun _ => isDigit_padded
  have read := takeDigits_append digits 0 cs
  rw [length_padded wide fits] at read
  rw [read, toList_padded, Nat.ofDigitChars_append, Nat.ofDigitChars_replicate_zero, Nat.mul_zero,
    Nat.ofDigitChars_ten_toDigits]

theorem daysBeforeMonth_succ (year : Nat) {month : Nat} (h : 1 ≤ month) :
    daysBeforeMonth year (month + 1) = daysBeforeMonth year month + daysInMonth year month := by
  obtain ⟨m, rfl⟩ := Nat.exists_eq_add_of_le' h
  simp [daysBeforeMonth, List.range_succ]

theorem monthDay_spec (year : Nat) {fuel month days : Nat} (first : 1 ≤ month)
    (last : month + fuel = 12)
    (within : daysBeforeMonth year month + days < daysBeforeMonth year 13) :
    let found := monthDay year fuel month days
    month ≤ found.1 ∧ found.1 ≤ 12 ∧ 1 ≤ found.2 ∧ found.2 ≤ daysInMonth year found.1 ∧
      daysBeforeMonth year found.1 + (found.2 - 1) = daysBeforeMonth year month + days := by
  induction fuel generalizing month days with
  | zero =>
    have december : month = 12 := last
    have ends : daysBeforeMonth year 13 = daysBeforeMonth year 12 + daysInMonth year 12 :=
      daysBeforeMonth_succ year (by decide)
    simp only [monthDay, december] at within ⊢
    omega
  | succ fuel ih =>
    simp only [monthDay]
    split
    case isTrue here => dsimp only; omega
    case isFalse past =>
      have ends := daysBeforeMonth_succ year first
      have later : daysBeforeMonth year (month + 1) + (days - daysInMonth year month) <
          daysBeforeMonth year 13 := by omega
      obtain ⟨low, high, day, inside, same⟩ := ih (Nat.le_add_left 1 month) (by omega) later
      exact ⟨by omega, high, day, inside, by omega⟩

theorem daysBeforeMonth_end (year : Nat) :
    daysBeforeMonth year 13 = if isLeap year then 366 else 365 := by
  simp only [daysBeforeMonth, List.range, List.range.loop, List.map, List.sum_cons,
    List.sum_nil, daysInMonth]
  split <;> rfl

theorem civil_cycles {n : Nat} (h : n < 3652059) : ∃ q400 q100 q4 q1 day,
    civil n = (q400 * 400 + q100 * 100 + q4 * 4 + q1 + 1,
      monthDay (q400 * 400 + q100 * 100 + q4 * 4 + q1 + 1) 11 1 day) ∧
    n = 146097 * q400 + 36524 * q100 + 1461 * q4 + 365 * q1 + day ∧
    q400 ≤ 24 ∧ q100 ≤ 3 ∧ q4 ≤ 24 ∧ q1 ≤ 3 ∧
    (day < 365 ∨ day = 365 ∧ q1 = 3 ∧ (q4 = 24 → q100 = 3)) := by
  obtain ⟨q400, r400, q400_eq, r400_eq⟩ : ∃ q r, n / 146097 = q ∧ n % 146097 = r := ⟨_, _, rfl, rfl⟩
  obtain ⟨q100, q100_eq⟩ : ∃ q, min (r400 / 36524) 3 = q := ⟨_, rfl⟩
  obtain ⟨q4, r4, q4_eq, r4_eq⟩ :
    ∃ q r, (r400 - q100 * 36524) / 1461 = q ∧ (r400 - q100 * 36524) % 1461 = r :=
    ⟨_, _, rfl, rfl⟩
  obtain ⟨q1, q1_eq⟩ : ∃ q, min (r4 / 365) 3 = q := ⟨_, rfl⟩
  refine ⟨q400, q100, q4, q1, r4 - q1 * 365, ?_, ?_, ?_, ?_, ?_, ?_, ?_⟩
  · simp only [civil, q400_eq, r400_eq, q100_eq, q4_eq, r4_eq, q1_eq]
  all_goals omega

theorem daysBeforeYear_cycles (q400 : Nat) {q100 q4 q1 : Nat} (h100 : q100 ≤ 3) (h4 : q4 ≤ 24)
    (h1 : q1 ≤ 3) :
    daysBeforeYear (q400 * 400 + q100 * 100 + q4 * 4 + q1 + 1) =
      146097 * q400 + 36524 * q100 + 1461 * q4 + 365 * q1 := by
  simp only [daysBeforeYear, Nat.add_sub_cancel]
  omega

theorem dayNumber_civil {n : Nat} (h : n < 3652059) :
    let date := civil n
    1 ≤ date.1 ∧ date.1 ≤ 9999 ∧ 1 ≤ date.2.1 ∧ date.2.1 ≤ 12 ∧ 1 ≤ date.2.2 ∧
      date.2.2 ≤ daysInMonth date.1 date.2.1 ∧ dayNumber date.1 date.2.1 date.2.2 = n := by
  obtain ⟨q400, q100, q4, q1, day, date, split, h400, h100, h4, h1, last⟩ := civil_cycles h
  have before := daysBeforeYear_cycles q400 h100 h4 h1
  rw [date]
  obtain ⟨year, year_eq⟩ : ∃ year, q400 * 400 + q100 * 100 + q4 * 4 + q1 + 1 = year := ⟨_, rfl⟩
  rw [year_eq] at before ⊢
  have within : daysBeforeMonth year 1 + day < daysBeforeMonth year 13 := by
    have none : daysBeforeMonth year 1 = 0 := rfl
    rw [none, daysBeforeMonth_end]
    cases last with
    | inl short => split <;> omega
    | inr long =>
      have leap : isLeap year = true := by
        simp only [isLeap, decide_eq_true_eq]
        omega
      rw [leap]
      change 0 + day < 366
      omega
  obtain ⟨first, twelfth, one, inside, same⟩ :=
    monthDay_spec year (le_refl 1) (show 1 + 11 = 12 from rfl) within
  refine ⟨by omega, by omega, first, twelfth, one, inside, ?_⟩
  change daysBeforeMonth year _ + _ = 0 + day at same
  simp only [dayNumber]
  omega

def Stops (cs : List Char) : Prop :=
  cs = [] ∨ ∃ sign rest, cs = sign :: rest ∧ (sign = '+' ∨ sign = '-')

theorem parseFraction_stops {cs : List Char} (stops : Stops cs) :
    parseFraction cs = some (0, cs) := by
  obtain rfl | ⟨sign, rest, rfl, rfl | rfl⟩ := stops
  all_goals rfl

theorem takeWhile_stops {cs : List Char} (stops : Stops cs) :
    cs.takeWhile (fun d => (asciiDigit d).isSome) = [] := by
  obtain rfl | ⟨sign, rest, rfl, rfl | rfl⟩ := stops
  all_goals rfl

theorem parseFraction_padded {n : Nat} (fits : n < 10 ^ 6) {cs : List Char} (stops : Stops cs) :
    parseFraction ('.' :: ((padded 6 n).toList ++ cs)) = some (n, cs) := by
  have six := length_padded (show 0 < 6 by decide) fits
  have digits : ((padded 6 n).toList ++ cs).takeWhile (fun d => (asciiDigit d).isSome) =
    (padded 6 n).toList := by
    rw [List.takeWhile_append_of_pos, takeWhile_stops stops, List.append_nil]
    intro c mem
    rw [asciiDigit_of_isDigit (isDigit_padded mem)]
    rfl
  have nonempty : (padded 6 n).toList.isEmpty = false := by
    rw [List.isEmpty_eq_false_iff, ← List.length_pos_iff, six]
    decide
  have first : ((padded 6 n).toList ++ List.replicate 6 '0').take 6 =
    (padded 6 n).toList ++ [] := by
    rw [List.append_nil]
    exact List.take_left' six
  have left : ((padded 6 n).toList ++ cs).drop 6 = cs := List.drop_left' six
  simp only [parseFraction, true_or, if_true, digits, six, nonempty, Bool.false_eq_true,
    if_false, first, left,
    takeDigits_padded (show 0 < 6 by decide) fits, Option.map_some]

theorem parseClock_seconds {hour minute second fraction : Nat} (h24 : hour < 24) (m60 : minute < 60)
    (s60 : second < 60) {cs rest : List Char} (read : parseFraction cs = some (fraction, rest)) :
    parseClock true ((padded 2 hour).toList ++ ':' :: ((padded 2 minute).toList ++
      ':' :: ((padded 2 second).toList ++ cs))) =
      some (((hour * 60 + minute) * 60 + second) * 1000000 + fraction, rest) := by
  have two : 0 < 2 := by decide
  have hours := takeDigits_padded two (show hour < 10 ^ 2 by omega)
  have minutes := takeDigits_padded two (show minute < 10 ^ 2 by omega)
  have seconds := takeDigits_padded two (show second < 10 ^ 2 by omega)
  simp [parseClock, hours, minutes, seconds, expect, read, h24, m60, s60]

theorem parseClock_minutes {hour minute : Nat} (h24 : hour < 24) (m60 : minute < 60) :
    parseClock true ((padded 2 hour).toList ++ ':' :: (padded 2 minute).toList) =
      some ((hour * 60 + minute) * 60000000, []) := by
  have two : 0 < 2 := by decide
  have hours := takeDigits_padded two (show hour < 10 ^ 2 by omega)
  have minutes := takeDigits_padded two (show minute < 10 ^ 2 by omega) []
  rw [List.append_nil] at minutes
  simp [parseClock, hours, minutes, expect, h24, m60]
  omega

theorem parseClock_isoTime {n : Nat} (h : n < 86400000000) {cs : List Char} (stops : Stops cs) :
    parseClock true ((isoTime n).toList ++ cs) = some (n, cs) := by
  have whole : ((n / 1000000 / 3600 * 60 + n / 1000000 / 60 % 60) * 60 + n / 1000000 % 60) * 1000000
    +
      n % 1000000 = n := by omega
  have h24 : n / 1000000 / 3600 < 24 := by omega
  have m60 : n / 1000000 / 60 % 60 < 60 := by omega
  have s60 : n / 1000000 % 60 < 60 := by omega
  have read : parseFraction
    ((if n % 1000000 = 0 then "" else "." ++ padded 6 (n % 1000000)).toList ++ cs) =
      some (n % 1000000, cs) := by
    split
    case isTrue none => rw [none]; exact parseFraction_stops stops
    case isFalse =>
      rw [String.toList_append]
      exact parseFraction_padded (Nat.mod_lt n (by decide)) stops
  have clock := parseClock_seconds h24 m60 s60 read
  rw [whole] at clock
  rw [← clock]
  simp [isoTime]

theorem isoOffset_eq (n : Int) : isoOffset n = (if n < 0 then "-" else "+") ++
    (if n.natAbs % 60000000 = 0 then
      padded 2 (n.natAbs / 60000000 / 60) ++ ":" ++ padded 2 (n.natAbs / 60000000 % 60)
    else isoTime n.natAbs) := by
  simp only [isoOffset]
  generalize n.natAbs = a
  by_cases whole : a % 60000000 = 0
  · simp only [if_pos whole, String.append_empty, String.append_assoc]
  · have hours : a / 60000000 / 60 = a / 1000000 / 3600 := by omega
    have minutes : a / 60000000 % 60 = a / 1000000 / 60 % 60 := by omega
    have seconds : a % 60000000 / 1000000 = a / 1000000 % 60 := by omega
    have fraction : a % 60000000 % 1000000 = a % 1000000 := by omega
    simp only [if_neg whole, hours, minutes, seconds, fraction, isoTime, String.append_assoc]

theorem parseClock_offset {a : Nat} (h : a < 86400000000) :
    parseClock true (if a % 60000000 = 0 then
      padded 2 (a / 60000000 / 60) ++ ":" ++ padded 2 (a / 60000000 % 60)
    else isoTime a).toList = some (a, []) := by
  split
  case isTrue whole =>
    have clock := parseClock_minutes
      (show a / 60000000 / 60 < 24 by omega) (show a / 60000000 % 60 < 60 by omega)
    have total : (a / 60000000 / 60 * 60 + a / 60000000 % 60) * 60000000 = a := by omega
    rw [total] at clock
    rw [← clock]
    simp
  case isFalse =>
    have clock := parseClock_isoTime h (.inl rfl)
    rwa [List.append_nil] at clock

def Offset (offset : Option Int) : Prop := ∀ n, offset = some n → n.natAbs < 86400000000

theorem parseOffset_isoOffset {offset : Option Int} (short : Offset offset) :
    parseOffset (offset.elim "" isoOffset).toList = some offset := by
  cases offset with
  | none => rfl
  | some n =>
    have clock := parseClock_offset (short n rfl)
    rw [Option.elim_some, isoOffset_eq, String.toList_append]
    generalize (if n.natAbs % 60000000 = 0 then _ else _ : String).toList = cs at clock ⊢
    split
    case isTrue negative =>
      have size : -(n.natAbs : Int) = n := by omega
      have read : parseOffset ('-' :: cs) = some (some (-(n.natAbs : Int))) := by
        simp [parseOffset, clock]
      change parseOffset ('-' :: cs) = _
      rw [read, size]
    case isFalse =>
      have size : (n.natAbs : Int) = n := by omega
      have read : parseOffset ('+' :: cs) = some (some (n.natAbs : Int)) := by
        simp [parseOffset, clock]
      change parseOffset ('+' :: cs) = _
      rw [read, size]

theorem stops_isoOffset (offset : Option Int) : Stops (offset.elim "" isoOffset).toList := by
  cases offset with
  | none => exact .inl rfl
  | some n =>
    rw [Option.elim_some, isoOffset_eq, String.toList_append]
    split
    · exact .inr ⟨'-', _, rfl, .inr rfl⟩
    · exact .inr ⟨'+', _, rfl, .inl rfl⟩

theorem daysInMonth_le (year month : Nat) : daysInMonth year month ≤ 31 := by
  simp only [daysInMonth]
  split
  case h_1 => split <;> decide
  all_goals decide

theorem parseDate_calendar {year month day : Nat} (first : 1 ≤ year) (last : year ≤ 9999)
    (january : 1 ≤ month)
    (december : month ≤ 12) (one : 1 ≤ day) (inside : day ≤ daysInMonth year month)
    (cs : List Char) :
    parseDate .calendar true ((padded 4 year).toList ++ '-' :: ((padded 2 month).toList ++
      '-' :: ((padded 2 day).toList ++ cs))) = some ((dayNumber year month day : Int), cs) := by
  have days31 := daysInMonth_le year month
  have years := takeDigits_padded (show 0 < 4 by decide) (show year < 10 ^ 4 by omega)
  have months := takeDigits_padded (show 0 < 2 by decide) (show month < 10 ^ 2 by omega)
  have days := takeDigits_padded (show 0 < 2 by decide) (show day < 10 ^ 2 by omega)
  simp [parseDate, years, months, days, expect, calendarDay, first, january, december, one, inside]

theorem fromisoformat_isoformat (t : DateTime) (short : Offset t.offset) :
    fromisoformat t.isoformat = .ok t := by
  have day : t.micros / 86400000000 < 3652059 := by
    have inRange : t.micros < 3652059 * 86400000000 := t.inRange
    omega
  obtain ⟨first, last, january, december, one, inside, same⟩ := dayNumber_civil day
  have date := parseDate_calendar first last january december one inside
    ('T' :: ((isoTime (t.micros % 86400000000)).toList ++ (t.offset.elim "" isoOffset).toList))
  have clock := parseClock_isoTime
    (Nat.mod_lt t.micros (show 0 < 86400000000 by decide)) (stops_isoOffset t.offset)
  have text : t.isoformat.toList = (padded 4 (civil (t.micros / 86400000000)).1).toList ++
      '-' :: ((padded 2 (civil (t.micros / 86400000000)).2.1).toList ++
      '-' :: ((padded 2 (civil (t.micros / 86400000000)).2.2).toList ++
      'T' :: ((isoTime (t.micros % 86400000000)).toList ++
        (t.offset.elim "" isoOffset).toList))) := by
    simp [isoformat]
  have time : parseTime ('T' :: ((isoTime (t.micros % 86400000000)).toList ++
      (t.offset.elim "" isoOffset).toList)) = some (t.micros % 86400000000, t.offset) := by
    simp [parseTime, clock, parseOffset_isoOffset short]
  have total : ((t.micros / 86400000000 : Nat) : Int) * 86400000000 + (t.micros % 86400000000 :
    Nat) = t.micros := by
    omega
  rw [same] at date
  simp only [fromisoformat, text, List.findSome?_cons, date, Option.bind_some, time,
    Option.map_some, total]
  simp [ofMicros, t.inRange]
  rfl

end BlizzardMock.DateTime
