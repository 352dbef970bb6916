import BlizzardMock.Python.Json
import Mathlib.Algebra.Ring.Nat

/-! The part of `datetime` the hub uses: aware and naive wall-clock readings, their conversion to
UTC, their ordering, `isoformat` and `fromisoformat`.  A reading counts microseconds from the first
instant of year 1, so that the representable years are an interval. -/

namespace BlizzardMock

def maxMicros : Nat := 3652059 * 86400000000

structure DateTime where
  micros : Nat
  inRange : micros < maxMicros
  offset : Option Int
  deriving DecidableEq

namespace DateTime

instance : Inhabited DateTime := ⟨⟨0, by decide, some 0⟩⟩

def ofMicros (n : Int) (offset : Option Int) : Except PyError DateTime :=
  if h : 0 ≤ n ∧ n.toNat < maxMicros then .ok ⟨n.toNat, h.2, offset⟩ else .error .overflowError

def astimezoneUTC (t : DateTime) (offset : Int) : Except PyError DateTime :=
  ofMicros (t.micros - offset) (some 0)

def replaceUTC (t : DateTime) : DateTime := { t with offset := some 0 }

def after (t u : DateTime) : Except PyError Bool :=
  match t.offset, u.offset with
  | some a, some b => .ok ((u.micros : Int) - b < t.micros - a)
  | none, none => .ok (u.micros < t.micros)
  | _, _ => .error .typeError

def isLeap (year : Nat) : Bool := year % 4 = 0 ∧ (year % 100 ≠ 0 ∨ year % 400 = 0)

def daysBeforeYear (year : Nat) : Nat :=
  let y := year - 1
  y * 365 + y / 4 - y / 100 + y / 400

def daysInMonth (year month : Nat) : Nat :=
  match month with
  | 2 => if isLeap year then 29 else 28
  | 4 | 6 | 9 | 11 => 30
  | _ => 31

def daysBeforeMonth (year month : Nat) : Nat :=
  ((List.range (month - 1)).map fun m => daysInMonth year (m + 1)).sum

def dayNumber (year month day : Nat) : Nat :=
  daysBeforeYear year + daysBeforeMonth year month + (day - 1)

/-- The month and the day of the month that lie `days` after the first of month `month`. -/
def monthDay (year : Nat) : Nat → Nat → Nat → Nat × Nat
  | 0, month, days => (month, days + 1)
  | fuel + 1, month, days =>
    if days < daysInMonth year month then (month, days + 1)
    else monthDay year fuel (month + 1) (days - daysInMonth year month)

def civil (n : Nat) : Nat × Nat × Nat :=
  let n400 := n / 146097
  let r400 := n % 146097
  let n100 := min (r400 / 36524) 3
  let r100 := r400 - n100 * 36524
  let n4 := r100 / 1461
  let r4 := r100 % 1461
  let n1 := min (r4 / 365) 3
  let year := n400 * 400 + n100 * 100 + n4 * 4 + n1 + 1
  let md := monthDay year 11 1 (r4 - n1 * 365)
  (year, md.1, md.2)

def padded (width n : Nat) : String :=
  let ds := Nat.toDigits 10 n
  String.ofList (List.replicate (width - ds.length) '0' ++ ds)

def isoTime (n : Nat) : String :=
  let seconds := n / 1000000
  let fraction := n % 1000000
  padded 2 (seconds / 3600) ++ ":" ++ padded 2 (seconds / 60 % 60) ++ ":" ++
    padded 2 (seconds % 60) ++ (if fraction = 0 then "" else "." ++ padded 6 fraction)

def isoOffset (n : Int) : String :=
  let a := n.natAbs
  let minutes := a / 60000000
  let rest := a % 60000000
  (if n < 0 then "-" else "+") ++ padded 2 (minutes / 60) ++ ":" ++ padded 2 (minutes % 60) ++
    (if rest = 0 then ""
      else ":" ++ padded 2 (rest / 1000000) ++
        (if rest % 1000000 = 0 then "" else "." ++ padded 6 (rest % 1000000)))

def isoformat (t : DateTime) : String :=
  let date := civil (t.micros / 86400000000)
  padded 4 date.1 ++ "-" ++ padded 2 date.2.1 ++ "-" ++ padded 2 date.2.2 ++ "T" ++
    isoTime (t.micros % 86400000000) ++ (t.offset.elim "" isoOffset)

def asciiDigit (c : Char) : Option Nat :=
  if 48 ≤ c.toNat ∧ c.toNat ≤ 57 then some (c.toNat - 48) else none

/-- Exactly `width` ASCII digits, and what follows them. -/
def takeDigits : Nat → Nat → List Char → Option (Nat × List Char)
  | 0, n, cs => some (n, cs)
  | _ + 1, _, [] => none
  | width + 1, n, c :: cs => do takeDigits width (10 * n + (← asciiDigit c)) cs

def expect (c : Char) : List Char → Option (List Char)
  | [] => none
  | d :: cs => if d = c then some cs else none

/-- The Monday that starts ISO year `year`, as a day number. -/
def isoYearStart (year : Nat) : Int :=
  let first : Int := dayNumber year 1 1
  -- the first of January of year 1 is a Monday
  let weekday := first % 7
  if weekday ≤ 3 then first - weekday else first + (7 - weekday)

def isoWeekDay (year week day : Nat) : Option Int :=
  let start := isoYearStart year + 7 * ((week : Int) - 1)
  if 1 ≤ year ∧ year ≤ 9999 ∧ 1 ≤ week ∧ start < isoYearStart (year + 1) ∧ 1 ≤ day ∧ day ≤ 7 then
    some (start + (day - 1))
  else none

def calendarDay (year month day : Nat) : Option Int :=
  if 1 ≤ year ∧ 1 ≤ month ∧ month ≤ 12 ∧ 1 ≤ day ∧ day ≤ daysInMonth year month then
    some (dayNumber year month day)
  else none

inductive DateForm | calendar | week | weekDay
  deriving DecidableEq

def parseDate (form : DateForm) (dashes : Bool) (cs : List Char) : Option (Int × List Char) := do
  let dash := fun cs => if dashes then expect '-' cs else some cs
  let (year, cs) ← takeDigits 4 0 cs
  let cs ← dash cs
  match form with
  | .calendar =>
    let (month, cs) ← takeDigits 2 0 cs
    let (day, cs) ← takeDigits 2 0 (← dash cs)
    return (← calendarDay year month day, cs)
  | .week =>
    let (week, cs) ← takeDigits 2 0 (← expect 'W' cs)
    return (← isoWeekDay year week 1, cs)
  | .weekDay =>
    let (week, cs) ← takeDigits 2 0 (← expect 'W' cs)
    let (day, cs) ← takeDigits 1 0 (← dash cs)
    return (← isoWeekDay year week day, cs)

def parseFraction (cs : List Char) : Option (Nat × List Char) :=
  match cs with
  | c :: rest =>
    if c = '.' ∨ c = ',' then
      let ds := rest.takeWhile fun d => (asciiDigit d).isSome
      if ds.isEmpty then none
      else
        let six := (ds ++ List.replicate 6 '0').take 6
        (takeDigits 6 0 six).map fun r => (r.1, rest.drop ds.length)
    else some (0, cs)
  | [] => some (0, [])

def parseClock (colons : Bool) (cs : List Char) : Option (Nat × List Char) := do
  let more := fun cs => if colons then (expect ':' cs).bind (takeDigits 2 0) else takeDigits 2 0 cs
  let (hour, cs) ← takeDigits 2 0 cs
  let (minute, cs, short) := match more cs with
    | some (minute, cs) => (minute, cs, false)
    | none => (0, cs, true)
  let (second, cs, short) := match (if short then none else more cs) with
    | some (second, cs) => (second, cs, false)
    | none => (0, cs, true)
  let (fraction, cs) ← if short then some (0, cs) else parseFraction cs
  if hour < 24 ∧ minute < 60 ∧ second < 60 then
    some (((hour * 60 + minute) * 60 + second) * 1000000 + fraction, cs)
  else none

/-- Nothing, `Z`, or a signed clock below a whole day. -/
def parseOffset (cs : List Char) : Option (Option Int) :=
  match cs with
  | [] => some none
  | ['Z'] => some (some 0)
  | sign :: rest =>
    if sign = '+' ∨ sign = '-' then
      [true, false].findSome? fun colons =>
        match parseClock colons rest with
        | some (n, []) => some (some (if sign = '-' then -(n : Int) else n))
        | _ => none
    else none

def parseTime (cs : List Char) : Option (Nat × Option Int) :=
  match cs with
  | [] => some (0, none)
  | _ :: rest =>
    [true, false].findSome? fun colons =>
      (parseClock colons rest).bind fun (n, cs) => (parseOffset cs).map fun o => (n, o)

def fromisoformat (s : String) : Except PyError DateTime :=
  let forms := [(DateForm.calendar, true), (.calendar, false), (.weekDay, true), (.week, true),
    (.weekDay, false), (.week, false)]
  let parsed := forms.findSome? fun (form, dashes) =>
    (parseDate form dashes s.toList).bind fun (day, cs) =>
      (parseTime cs).map fun (n, offset) => (day * 86400000000 + n, offset)
  match parsed with
  | none => .error .valueError
  | some (n, offset) => (ofMicros n offset).mapError fun _ => .valueError

end DateTime

/-- What the program stands on besides its own source: the character database, the double-precision
milliseconds of a reading, and the request framework's lax reading of a `datetime` field. -/
class Platform extends Unicode where
  timestampMillis : DateTime → Int
  laxDatetime : Json → Option DateTime

/-- A platform to compute on: every character prints, and no instant tells its time. -/
abbrev Platform.plain : Platform where
  isPrintable _ := true
  timestampMillis _ := 0
  laxDatetime _ := none

end BlizzardMock
