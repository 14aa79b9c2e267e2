import GeoPolicy.Text.Numeral

/-!
# Points in time

A point in time counts seconds from the start of 1970 in universal time, with a fraction in
nanoseconds. A fraction of a whole second or more lies in the leap second that follows. Dates are
those of the Gregorian calendar, continued into the past, and text follows RFC 3339.

## Main definitions

* `Timestamp` — a point in time.
* `Calendar.dayNumber`, `Calendar.ofDayNumber` — dates and days since the start of 1970.
* `Timestamp.text` — the text of a point in time, to the millisecond.
* `Timestamp.parse` — the point in time that a text denotes, or why there is none.
-/

namespace GeoPolicy

/-! ## Dates -/

namespace Calendar

/-- A date of the Gregorian calendar. -/
structure Date where
  year : Int
  month : Nat
  day : Nat
  deriving DecidableEq, Repr

/-- Whether a year has 366 days. -/
def isLeap (year : Int) : Bool :=
  year % 4 = 0 && (year % 100 ≠ 0 || year % 400 = 0)

/-- The number of days of a month. -/
def monthLength (year : Int) (month : Nat) : Nat :=
  if month = 2 then (if isLeap year then 29 else 28)
  else if month = 4 ∨ month = 6 ∨ month = 9 ∨ month = 11 then 30
  else 31

/-- Whether a date exists. -/
def Date.isValid (d : Date) : Bool :=
  1 ≤ d.month && d.month ≤ 12 && 1 ≤ d.day && d.day ≤ monthLength d.year d.month

/-- The number of days from the start of 1970 to a date. Years are counted from March, so that
the leap day ends a year, and in cycles of 400 years, which all have 146097 days. -/
def dayNumber (d : Date) : Int :=
  let year := if d.month ≤ 2 then d.year - 1 else d.year
  let yearOfCycle := year % 400
  let month := (d.month + 9) % 12
  let dayOfYear : Int := ((153 * month + 2) / 5 + d.day - 1 : Nat)
  year / 400 * 146097 + yearOfCycle * 365 + yearOfCycle / 4 - yearOfCycle / 100 + dayOfYear - 719468

/-- The date that lies a number of days after the start of 1970. -/
def ofDayNumber (days : Int) : Date :=
  let days := days + 719468
  let dayOfCycle := (days % 146097).toNat
  let yearOfCycle :=
    (dayOfCycle - dayOfCycle / 1460 + dayOfCycle / 36524 - dayOfCycle / 146096) / 365
  let dayOfYear := dayOfCycle - (365 * yearOfCycle + yearOfCycle / 4 - yearOfCycle / 100)
  let month := (5 * dayOfYear + 2) / 153
  let year : Int := yearOfCycle + days / 146097 * 400
  { year := if month < 10 then year else year + 1
    month := if month < 10 then month + 3 else month - 9
    day := dayOfYear - (153 * month + 2) / 5 + 1 }

end Calendar

/-! ## Points in time -/

/-- A point in time: seconds since the start of 1970, and nanoseconds. From 1000000000 on, the
nanoseconds count into a leap second. -/
structure Timestamp where
  seconds : Int
  nanos : Nat
  deriving DecidableEq, Repr

namespace Timestamp

open Text Calendar

/-! ## Writing -/

/-- The text of a year: four digits, and outside of these a sign before at least four digits. -/
def yearText (year : Int) : List Char :=
  if 0 ≤ year ∧ year ≤ 9999 then paddedDigits 10 4 year.toNat
  else if 0 ≤ year then '+' :: paddedDigits 10 4 year.toNat
  else '-' :: paddedDigits 10 4 (-year).toNat

/-- The text of a point in time in universal time, to the millisecond. A leap second is second
number 60 of its minute. -/
def text (t : Timestamp) : String :=
  let date := ofDayNumber (t.seconds / 86400)
  let second := (t.seconds % 86400).toNat
  let leap := t.nanos / 1000000000
  let millis := t.nanos % 1000000000 / 1000000
  let two := paddedDigits 10 2
  String.ofList (yearText date.year ++ ['-'] ++ two date.month ++ ['-'] ++ two date.day ++ ['T'] ++
    two (second / 3600) ++ [':'] ++ two (second / 60 % 60) ++ [':'] ++ two (second % 60 + leap) ++
    ['.'] ++ paddedDigits 10 3 millis ++ ['Z'])

/-! ## Reading -/

/-- Why a text denotes no point in time. -/
inductive Fault where
  /-- The text ends too early. -/
  | tooShort
  /-- A character stands where another one has to. -/
  | unexpected
  /-- There is no such date, time of day or distance. -/
  | outOfRange
  /-- The text goes on after its last part. -/
  | tooLong
  deriving DecidableEq, Repr

/-- The words for a fault. -/
def Fault.message : Fault → String
  | tooShort => "premature end of input"
  | unexpected => "input contains invalid characters"
  | outOfRange => "input is out of range"
  | tooLong => "trailing input"

/-- Whether a text takes fewer bytes than a number of digits. -/
def isShorter (count : Nat) (s : List Char) : Bool :=
  s.foldl (fun size c => size + c.utf8Size) 0 < count

/-- A number of exactly `count` decimal digits at the start of a text. -/
def readNumber (count : Nat) (s : List Char) : Except Fault (Nat × List Char) :=
  if isShorter count s then .error .tooShort
  else
    match readDecimal? (s.take count) with
    | some n => .ok (n, s.drop count)
    | none => .error .unexpected

/-- The rest of a text that starts with one of the given characters. -/
def skip (allowed : List Char) : List Char → Except Fault (List Char)
  | [] => .error .tooShort
  | c :: rest => if c ∈ allowed then .ok rest else .error .unexpected

/-- A fraction of a second in nanoseconds, if one is written. Digits after the ninth are dropped. -/
def readFraction : List Char → Except Fault (Nat × List Char)
  | '.' :: s =>
    match s.takeWhile Char.isDigit with
    | [] => .error (if s = [] then .tooShort else .unexpected)
    | digits =>
      .ok (Nat.ofDigitChars 10 ((digits.take 9).rightpad 9 '0') 0, s.dropWhile Char.isDigit)
  | s => .ok (0, s)

/-- The distance from universal time in seconds: `Z`, or a sign, two digits of hours, a colon and
two digits of minutes. The sign may be the mathematical minus. -/
def readOffset : List Char → Except Fault (Int × List Char)
  | [] => .error .tooShort
  | sign :: s =>
    if sign = 'Z' ∨ sign = 'z' then .ok (0, s)
    else if sign = '+' ∨ sign = '-' ∨ sign = '\u2212' then do
      let (hours, s) ← readNumber 2 s
      let (minutes, s) ← readNumber 2 (← skip [':'] s)
      if 59 < minutes then throw .outOfRange
      else
        let distance : Int := (hours * 3600 + minutes * 60 : Nat)
        return (if sign = '+' then distance else -distance, s)
    else
      .error .unexpected

/-- A date: year, month and day with hyphens between them. -/
def readDate (s : List Char) : Except Fault (Date × List Char) := do
  let (year, s) ← readNumber 4 s
  let (month, s) ← readNumber 2 (← skip ['-'] s)
  let (day, s) ← readNumber 2 (← skip ['-'] s)
  let date : Date := { year, month, day }
  if date.isValid then return (date, s) else throw .outOfRange

/-- A time of day in seconds and nanoseconds. Second number 60 is a leap second at the end of any
minute. -/
def readTime (s : List Char) : Except Fault (Nat × Nat × List Char) := do
  let (hour, s) ← readNumber 2 s
  let (minute, s) ← readNumber 2 (← skip [':'] s)
  let (second, s) ← readNumber 2 (← skip [':'] s)
  let (fraction, s) ← readFraction s
  if 23 < hour ∨ 59 < minute ∨ 60 < second then throw .outOfRange
  else
    let nanos := if second = 60 then fraction + 1000000000 else fraction
    return (hour * 3600 + minute * 60 + min second 59, nanos, s)

/-- The number of bytes that a date and a time of day take without a fraction. -/
def leastSize : Nat := 19

/-- The point in time that a whole text denotes: a date, `T` or a space, a time of day and the
distance from universal time, which is less than a day. -/
def parse (s : String) : Except Fault Timestamp := do
  let s := s.toList
  if isShorter leastSize s then throw .tooShort
  else
    let (date, s) ← readDate s
    let (second, nanos, s) ← readTime (← skip ['T', 't', ' '] s)
    let (offset, s) ← readOffset s
    if s ≠ [] then throw .tooLong
    else if 86400 ≤ offset.natAbs then throw .outOfRange
    else return { seconds := dayNumber date * 86400 + second - offset, nanos }

end Timestamp

end GeoPolicy
