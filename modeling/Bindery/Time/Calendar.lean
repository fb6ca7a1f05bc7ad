/-!
# Calendar text

The date and time of day of a second in the proleptic Gregorian calendar, and its text in the form
`Tue Nov 14 22:13:20 2023`. Years start in March for the computation, so that the leap day is the
last of its year: in such a year day `d` lies in month `(5 d + 2) / 153`, and 400 of them last
146097 days.
-/

namespace Bindery.Time

structure Calendar where
  year : Int
  /-- From 1 for January. -/
  month : Nat
  /-- From 1. -/
  day : Nat
  hour : Nat
  minute : Nat
  second : Nat
  /-- From 0 for Sunday. -/
  weekday : Nat
  deriving DecidableEq

namespace Calendar

def secondsPerDay : Int := 86400

/-- Year, month and day of a day counted from the epoch. -/
def dateOfDay (epochDay : Int) : Int × Nat × Nat :=
  let z := epochDay + 719468
  let era := z.fdiv 146097
  let dayOfEra := (z.fmod 146097).toNat
  let yearOfEra := (dayOfEra - dayOfEra / 1460 + dayOfEra / 36524 - dayOfEra / 146096) / 365
  let dayOfYear := dayOfEra - (365 * yearOfEra + yearOfEra / 4 - yearOfEra / 100)
  let marchMonth := (5 * dayOfYear + 2) / 153
  let day := dayOfYear - (153 * marchMonth + 2) / 5 + 1
  let month := if marchMonth < 10 then marchMonth + 3 else marchMonth - 9
  let year := (yearOfEra : Int) + era * 400 + (if month ≤ 2 then 1 else 0)
  (year, month, day)

/-- The calendar reading of a second at a place `offset` seconds east of the meridian. -/
def ofSeconds (seconds offset : Int) : Calendar :=
  let shown := seconds + offset
  let epochDay := shown.fdiv secondsPerDay
  let time := (shown.fmod secondsPerDay).toNat
  let (year, month, day) := dateOfDay epochDay
  { year, month, day
    hour := time / 3600
    minute := time / 60 % 60
    second := time % 60
    weekday := ((epochDay + 4).fmod 7).toNat }

/-- The names of the days of the week, from Sunday. -/
def weekdayNames : List String := ["Sun", "Mon", "Tue", "Wed", "Thu", "Fri", "Sat"]

/-- The names of the months, from January. -/
def monthNames : List String :=
  ["Jan", "Feb", "Mar", "Apr", "May", "Jun", "Jul", "Aug", "Sep", "Oct", "Nov", "Dec"]

/-- Decimal digits, filled up on the left to a least width. -/
def padded (fill : Char) (width n : Nat) : String :=
  String.ofList ((Nat.toDigits 10 n).leftpad width fill)

/-- A year has four digits at least, a sign below zero and above 9999. -/
def yearText (year : Int) : String :=
  if year < 0 then "-" ++ padded '0' 4 year.natAbs
  else if 9999 < year then "+" ++ padded '0' 4 year.natAbs
  else padded '0' 4 year.natAbs

/-- The text of a calendar reading: weekday, month, day filled with a space, time of day, year. -/
def text (c : Calendar) : String :=
  String.intercalate " "
    [weekdayNames.getD c.weekday "", monthNames.getD (c.month - 1) "", padded ' ' 2 c.day,
      String.intercalate ":" [padded '0' 2 c.hour, padded '0' 2 c.minute, padded '0' 2 c.second],
      yearText c.year]

end Calendar

end Bindery.Time
