/-
**Dates and times of day in the proleptic Gregorian calendar.**

Days are counted from 1970-01-01.  The count is taken apart from the first of March of a year
divisible by 400, so that a leap day is the last day of the year it belongs to and every cycle of
400 years has the same 146097 days.

Main definitions:

* `Calendar.Date`, `Calendar.Date.ofDays`, `Calendar.Date.toDays` — a date, and its day count;
* `Calendar.DateTime`, `Calendar.DateTime.ofMillis`, `Calendar.DateTime.toMillis` — a date with a
  time of day, and the milliseconds since the start of 1970-01-01;
* `Calendar.DateTime.toText` — the RFC 3339 text of a date with a time of day.
-/

set_option autoImplicit false

namespace RevisionStore.Calendar

/-! ### Dates -/

/-- A day of the calendar; the year before year 1 is year 0. -/
structure Date where
  year : Int
  month : Int
  day : Int
deriving DecidableEq, Repr

/-- The days of a whole cycle of 400 years. -/
def daysPerCycle : Int := 146097

/-- The day count of 0000-03-01, negated. -/
def cycleOffset : Int := 719468

/-- The date of a day count. -/
def Date.ofDays (days : Int) : Date :=
  let shifted := days + cycleOffset
  let cycle := shifted / daysPerCycle
  let dayOfCycle := shifted % daysPerCycle
  -- A leap day ends every fourth year but not every hundredth, and the cycle as a whole.
  let yearOfCycle :=
    (dayOfCycle - dayOfCycle / 1460 + dayOfCycle / 36524 - dayOfCycle / 146096) / 365
  let dayOfYear := dayOfCycle - (365 * yearOfCycle + yearOfCycle / 4 - yearOfCycle / 100)
  -- Five months in a row from March on, and from August on, have 153 days.
  let monthFromMarch := (5 * dayOfYear + 2) / 153
  let day := dayOfYear - (153 * monthFromMarch + 2) / 5 + 1
  let month := if monthFromMarch < 10 then monthFromMarch + 3 else monthFromMarch - 9
  ⟨yearOfCycle + cycle * 400 + (if month ≤ 2 then 1 else 0), month, day⟩

/-- The day count of a date. -/
def Date.toDays (date : Date) : Int :=
  let year := if date.month ≤ 2 then date.year - 1 else date.year
  let cycle := year / 400
  let yearOfCycle := year % 400
  let monthFromMarch := if date.month ≤ 2 then date.month + 9 else date.month - 3
  let dayOfYear := (153 * monthFromMarch + 2) / 5 + date.day - 1
  let dayOfCycle := yearOfCycle * 365 + yearOfCycle / 4 - yearOfCycle / 100 + dayOfYear
  cycle * daysPerCycle + dayOfCycle - cycleOffset

/-! ### Times of day -/

/-- A date with a time of day, to the millisecond. -/
structure DateTime where
  date : Date
  hour : Int
  minute : Int
  second : Int
  millisecond : Int
deriving DecidableEq, Repr

/-- The milliseconds of a day. -/
def millisPerDay : Int := 86400000

/-- The date and time of day so many milliseconds after the start of 1970-01-01. -/
def DateTime.ofMillis (millis : Int) : DateTime :=
  let time := millis % millisPerDay
  { date := Date.ofDays (millis / millisPerDay)
    hour := time / 3600000
    minute := time / 60000 % 60
    second := time / 1000 % 60
    millisecond := time % 1000 }

/-- The milliseconds since the start of 1970-01-01. -/
def DateTime.toMillis (t : DateTime) : Int :=
  t.date.toDays * millisPerDay + t.hour * 3600000 + t.minute * 60000 + t.second * 1000
    + t.millisecond

/-! ### Text -/

/-- The decimal digits of a number, with leading zeros up to `width` of them. -/
def padded (width : Nat) (n : Nat) : String :=
  let digits := Nat.toDigits 10 n
  String.ofList (List.replicate (width - digits.length) '0' ++ digits)

/-- A year has at least four digits, and outside 0 to 9999 a sign. -/
def yearText (year : Int) : String :=
  if 0 ≤ year ∧ year ≤ 9999 then padded 4 year.toNat
  else (if year < 0 then "-" else "+") ++ padded 4 year.natAbs

/-- The date as year, month and day. -/
def Date.toText (date : Date) : String :=
  yearText date.year ++ "-" ++ padded 2 date.month.toNat ++ "-" ++ padded 2 date.day.toNat

/-- The text of RFC 3339, in universal time; milliseconds are shown only where there are any. -/
def DateTime.toText (t : DateTime) : String :=
  t.date.toText ++ "T" ++ padded 2 t.hour.toNat ++ ":" ++ padded 2 t.minute.toNat ++ ":"
    ++ padded 2 t.second.toNat
    ++ (if t.millisecond = 0 then "" else "." ++ padded 3 t.millisecond.toNat)
    ++ "+00:00"

end RevisionStore.Calendar
