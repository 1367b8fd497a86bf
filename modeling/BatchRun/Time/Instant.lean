import BatchRun.Number.Reading
import BatchRun.Text.Blank

/-!
# Instants

Points in time of the proleptic Gregorian calendar, to the nanosecond, in the time zone of the
prime meridian. A leap second is the second before it, held for longer than a second. Instants
are counted in days, so that an offset is plain arithmetic, and written as dates.

## Main definitions

* `Instant`, `Instant.text`: a point in time and how it is written
* `Date`, `Date.day`, `Date.ofDay`: dates and the count of days
-/

namespace BatchRun

/-- A date of the calendar. -/
structure Date where
  year : Int
  month : Nat
  day : Nat
  deriving DecidableEq, Repr

namespace Date

/-- Whether a year has a leap day. -/
def isLeapYear (year : Int) : Bool := year % 4 == 0 && (year % 100 != 0 || year % 400 == 0)

/-- The days of a month. -/
def daysInMonth (year : Int) (month : Nat) : Nat :=
  if month = 2 then if isLeapYear year then 29 else 28
  else if month = 4 || month = 6 || month = 9 || month = 11 then 30
  else 31

/-- The years that dates can have. -/
def leastYear : Int := -262143
def greatestYear : Int := 262142

/-- Whether the calendar has the date, within the years that dates can have. -/
def isValid (d : Date) : Bool :=
  leastYear ≤ d.year && d.year ≤ greatestYear && 1 ≤ d.month && d.month ≤ 12 &&
    1 ≤ d.day && d.day ≤ daysInMonth d.year d.month

/-- The days from the first of March of the year zero to a date. Years are counted from March, so
that a leap day is the last day of its year. -/
def dayNumber (d : Date) : Int :=
  let year := if d.month ≤ 2 then d.year - 1 else d.year
  let month := (d.month + 9) % 12
  let inYear := (153 * month + 2) / 5 + d.day - 1
  year * 365 + year / 4 - year / 100 + year / 400 + inYear

/-- The date so many days after the first of March of the year zero. -/
def ofDayNumber (n : Int) : Date :=
  let era := n / 146097
  let inEra := (n % 146097).toNat
  -- the days of leap years are taken out before days are divided into years
  let yearOfEra := (inEra - inEra / 1460 + inEra / 36524 - inEra / 146096) / 365
  let inYear := inEra - (365 * yearOfEra + yearOfEra / 4 - yearOfEra / 100)
  let fromMarch := (5 * inYear + 2) / 153
  let day := inYear - (153 * fromMarch + 2) / 5 + 1
  let month := if fromMarch < 10 then fromMarch + 3 else fromMarch - 9
  let year := era * 400 + yearOfEra
  ⟨if month ≤ 2 then year + 1 else year, month, day⟩

end Date

/-- A point in time. -/
structure Instant where
  /-- Days since the first of March of the year zero. -/
  day : Int
  /-- Seconds since midnight. -/
  second : Nat
  /-- Nanoseconds since the second began; a thousand million and more in a leap second. -/
  nanos : Nat
  deriving DecidableEq, Repr

namespace Instant

/-- The first second of 1970. -/
def epoch : Instant := ⟨Date.dayNumber ⟨1970, 1, 1⟩, 0, 0⟩

/-- The last millisecond of the year 9999, counted from the first second of 1970. -/
def lastMillisecond : Nat := 253402300799999

/-- So many milliseconds after the first second of 1970. -/
def ofMilliseconds (n : Nat) : Instant :=
  ⟨epoch.day + n / 86400000, n / 1000 % 86400, n % 1000 * 1000000⟩

/-- A number with zeros in front, at least so many characters long. -/
def padded (count n : Nat) : String :=
  let digits := Nat.toDigits 10 n
  String.ofList (List.replicate (count - digits.length) '0' ++ digits)

/-- The text of a year: four digits, and a sign if those are not enough. -/
def yearText (year : Int) : String :=
  if 0 ≤ year && year ≤ 9999 then padded 4 year.toNat
  else (if year < 0 then "-" else "+") ++ padded 4 year.natAbs

/-- The text of a fraction of a second, in thousandths, millionths or thousand millionths. -/
def fractionText (nanos : Nat) : String :=
  if nanos = 0 then ""
  else if nanos % 1000000 = 0 then "." ++ padded 3 (nanos / 1000000)
  else if nanos % 1000 = 0 then "." ++ padded 6 (nanos / 1000)
  else "." ++ padded 9 nanos

/-- The text of an instant. -/
def text (t : Instant) : String :=
  let date := Date.ofDayNumber t.day
  let second := t.second % 60 + t.nanos / 1000000000
  yearText date.year ++ "-" ++ padded 2 date.month ++ "-" ++ padded 2 date.day ++ "T" ++
    padded 2 (t.second / 3600) ++ ":" ++ padded 2 (t.second / 60 % 60) ++ ":" ++
    padded 2 second ++ fractionText (t.nanos % 1000000000) ++ "Z"

/-- The instant that a clock shows so many seconds ahead of the prime meridian, if its date is
one of the calendar's there as well. -/
def ofLocal? (local_ : Instant) (ahead : Int) : Option Instant :=
  let seconds := (local_.second : Int) - ahead
  let day := local_.day + seconds / 86400
  let year := (Date.ofDayNumber day).year
  if Date.leastYear ≤ year && year ≤ Date.greatestYear then
    some ⟨day, (seconds % 86400).toNat, local_.nanos⟩
  else none

end Instant

end BatchRun
