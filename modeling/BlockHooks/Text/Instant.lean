/-
BlockHooks/Text/Instant.lean

Moments in time as text.

A moment is a count of seconds since the start of 1970, and its text is the
date and time of the proleptic Gregorian calendar in the form
`2023-11-14T22:13:20Z`.  A year between 0 and 9999 has four digits; any
other carries its sign and at least four digits.  The calendar ends at the
years -262143 and 262142; outside it a moment is told as `@` and its
seconds.
-/
import BlockHooks.Decimal.Text

namespace BlockHooks

namespace Calendar

/-- A day of the Gregorian calendar. -/
structure Date where
  year : Int
  month : Nat
  day : Nat
  deriving DecidableEq, Repr

/-- Days have one length; leap seconds are not counted. -/
def secondsPerDay : Int := 86400

/-- The day with the given number, day 0 being 1970-01-01.

Years are counted from March, so that the leap day is the last of its year;
400 such years have 146097 days, and the months from March on have 153 days
in five. -/
def ofDayNumber (n : Int) : Date :=
  let shifted := n + 719468
  let era := shifted.fdiv 146097
  let dayOfEra := (shifted.fmod 146097).toNat
  let yearOfEra := (dayOfEra - dayOfEra / 1460 + dayOfEra / 36524 - dayOfEra / 146096) / 365
  let dayOfYear := dayOfEra - (365 * yearOfEra + yearOfEra / 4 - yearOfEra / 100)
  let fromMarch := (5 * dayOfYear + 2) / 153
  let month := if fromMarch < 10 then fromMarch + 3 else fromMarch - 9
  { year := era * 400 + yearOfEra + (if month ≤ 2 then 1 else 0)
    month := month
    day := dayOfYear - (153 * fromMarch + 2) / 5 + 1 }

/-- `n` with at least two digits. -/
def twoDigits (n : Nat) : String := String.ofList (paddedDigits 2 n)

/-- A year: four digits, or a sign and at least four. -/
def yearText (y : Int) : String :=
  let digits := String.ofList (paddedDigits 4 y.natAbs)
  if 0 ≤ y && y ≤ 9999 then digits
  else if y < 0 then "-" ++ digits
  else "+" ++ digits

/-- A day as year, month and day. -/
def Date.text (d : Date) : String :=
  yearText d.year ++ "-" ++ twoDigits d.month ++ "-" ++ twoDigits d.day

/-- The year that the calendar begins with. -/
def firstYear : Int := -262143

/-- The year that the calendar ends with. -/
def lastYear : Int := 262142

end Calendar

/-- A moment in seconds since 1970, as date and time. -/
def instantText (seconds : Int64) : String :=
  let date := Calendar.ofDayNumber (seconds.toInt.fdiv Calendar.secondsPerDay)
  let second := (seconds.toInt.fmod Calendar.secondsPerDay).toNat
  if Calendar.firstYear ≤ date.year && date.year ≤ Calendar.lastYear then
    date.text ++ "T" ++ Calendar.twoDigits (second / 3600) ++ ":"
      ++ Calendar.twoDigits (second / 60 % 60) ++ ":" ++ Calendar.twoDigits (second % 60) ++ "Z"
  else
    "@" ++ toString seconds.toInt

end BlockHooks
