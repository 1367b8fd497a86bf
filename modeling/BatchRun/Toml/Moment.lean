import BatchRun.Number.Reading

/-!
# Dates and times of TOML

A date, a time of day, or both with or without an offset, read and written in the canonical form:
a `T` between date and time, no zeros at the end of a fraction, and `Z` or hours and minutes for
the offset. Hours and minutes, those of an offset too, keep to the clock; a minute may end with a
leap second.

## Main definitions

* `moment?`: a moment in front of other characters
* `momentOf?`: the moment that a whole text is
-/

namespace BatchRun.Toml

open BatchRun.Number

/-- Exactly so many digits. -/
def digits? (count : Nat) (cs : List Char) : Option (Nat × List Char) :=
  let digits := cs.take count
  if digits.length < count || !digits.all isDigit then none
  else some (digitsValue digits, cs.drop count)

/-- A number with zeros in front, at least so many characters long. -/
def padded (count n : Nat) : String :=
  let digits := Nat.toDigits 10 n
  String.ofList (List.replicate (count - digits.length) '0' ++ digits)

private def sign? (c : Char) (cs : List Char) : Option (List Char) :=
  match cs with
  | d :: rest => if c == d then some rest else none
  | [] => none

/-- The days of a month. -/
def daysInMonth (year month : Nat) : Nat :=
  if month = 2 then
    if year % 4 = 0 && (year % 100 ≠ 0 || year % 400 = 0) then 29 else 28
  else if month = 4 || month = 6 || month = 9 || month = 11 then 30
  else 31

/-- A date in canonical form. -/
def date? (cs : List Char) : Option (String × List Char) := do
  let (year, cs) ← digits? 4 cs
  let (month, cs) ← digits? 2 (← sign? '-' cs)
  let (day, cs) ← digits? 2 (← sign? '-' cs)
  if 1 ≤ month && month ≤ 12 && 1 ≤ day && day ≤ daysInMonth year month then
    some (padded 4 year ++ "-" ++ padded 2 month ++ "-" ++ padded 2 day, cs)
  else none

private def secondFraction? (cs : List Char) : Option (String × List Char) :=
  match cs with
  | '.' :: rest =>
    let digits := rest.takeWhile isDigit
    if digits.isEmpty then none
    else
      -- nanoseconds are all that is kept, and without zeros at the end
      let kept := ((digits.take 9).reverse.dropWhile (· == '0')).reverse
      some (if kept.isEmpty then "" else "." ++ String.ofList kept, rest.dropWhile isDigit)
  | _ => some ("", cs)

/-- A time of day in canonical form. -/
def time? (cs : List Char) : Option (String × List Char) := do
  let (hour, cs) ← digits? 2 cs
  let (minute, cs) ← digits? 2 (← sign? ':' cs)
  let (second, cs) ← digits? 2 (← sign? ':' cs)
  if 23 < hour || 59 < minute || 60 < second then none
  let (fraction, cs) ← secondFraction? cs
  some (padded 2 hour ++ ":" ++ padded 2 minute ++ ":" ++ padded 2 second ++ fraction, cs)

private def hoursAndMinutes? (negative : Bool) (cs : List Char) : Option (String × List Char) := do
  let (hours, cs) ← digits? 2 cs
  let (minutes, cs) ← digits? 2 (← sign? ':' cs)
  if 23 < hours || 59 < minutes then none
  let total := hours * 60 + minutes
  let sign := if negative && total ≠ 0 then "-" else "+"
  some (sign ++ padded 2 (total / 60) ++ ":" ++ padded 2 (total % 60), cs)

/-- An offset in canonical form, which is empty if there is none. -/
def offset? : List Char → Option (String × List Char)
  | 'Z' :: rest => some ("Z", rest)
  | 'z' :: rest => some ("Z", rest)
  | '+' :: rest => hoursAndMinutes? false rest
  | '-' :: rest => hoursAndMinutes? true rest
  | cs => some ("", cs)

/-- A date, a time, or a date with a time and perhaps an offset, and the characters behind it. -/
def moment? (cs : List Char) : Option (String × List Char) :=
  match date? cs with
  | none => time? cs
  | some (date, rest) =>
    let timed (cs : List Char) := do
      let (time, cs) ← time? cs
      let (offset, cs) ← offset? cs
      some (date ++ "T" ++ time ++ offset, cs)
    match rest with
    | 'T' :: cs => timed cs
    | 't' :: cs => timed cs
    -- what follows a space may be a time, or else the date ends there
    | ' ' :: cs => (timed cs).orElse fun _ => some (date, rest)
    | _ => some (date, rest)

/-- The moment that a whole text is. -/
def momentOf? (text : String) : Option String :=
  match moment? text.toList with
  | some (moment, []) => some moment
  | _ => none

end BatchRun.Toml
