import BatchRun.Time.Instant

/-!
# Reading instants

An instant is written as a date, a time of day and an offset. The reader is lenient: numbers need
not be padded, blanks may stand between the parts, a blank may part date and time, and a year of
more than four digits takes a sign.

## Main definitions

* `TimeProblem`: why a text is no instant
* `Instant.read`: the instant of a text
-/

namespace BatchRun

open BatchRun.Number
open BatchRun.Text

/-- Why a text is no instant. -/
inductive TimeProblem where
  | tooShort
  | invalid
  | outOfRange
  | trailing
  /-- No date of the calendar is meant once the offset is taken into account. -/
  | impossible
  deriving DecidableEq, Repr

/-- The wording of the problem. -/
def TimeProblem.message : TimeProblem → String
  | tooShort => "premature end of input"
  | invalid => "input contains invalid characters"
  | outOfRange => "input is out of range"
  | trailing => "trailing input"
  | impossible => "no possible date and time matching input"

namespace Instant

/-- A number of at least one digit and at most so many, if there is a limit. -/
def digits (most : Option Nat) (cs : List Char) : Except TimeProblem (Nat × List Char) :=
  let window := match most with
    | some n => cs.take n
    | none => cs
  let written := window.takeWhile isDigit
  if cs.isEmpty then .error .tooShort
  else if written.isEmpty then .error .invalid
  else
    let value := digitsValue written
    if int64Greatest < value then .error .outOfRange
    else .ok (value, cs.drop written.length)

/-- A number of one or two digits behind blanks, between two bounds. -/
def field (least greatest : Nat) (cs : List Char) :
    Except TimeProblem (Nat × List Char) := do
  let (value, rest) ← digits (some 2) (skipBlanks cs)
  if least ≤ value ∧ value ≤ greatest then pure (value, rest) else throw .outOfRange

/-- A year behind blanks; one with a sign may have any number of digits. -/
def year (cs : List Char) : Except TimeProblem (Int × List Char) := do
  let (value, rest) ←
    match skipBlanks cs with
    | '-' :: rest => do
      let (n, rest) ← digits none rest
      pure (-(n : Int), rest)
    | '+' :: rest => do
      let (n, rest) ← digits none rest
      pure ((n : Int), rest)
    | cs => do
      let (n, rest) ← digits (some 4) cs
      pure ((n : Int), rest)
  if -2147483648 ≤ value ∧ value < 2147483648 then pure (value, rest) else throw .outOfRange

/-- A separator behind blanks. -/
def separator (c : Char) (cs : List Char) : Except TimeProblem (List Char) :=
  match skipBlanks cs with
  | d :: rest => if c == d then .ok rest else .error .invalid
  | [] => .error .tooShort

/-- Nanoseconds behind a point, if there is one; digits beyond the ninth do not count. -/
def fraction (cs : List Char) : Except TimeProblem (Nat × List Char) :=
  match cs with
  | '.' :: rest => do
    let (value, _) ← digits (some 9) rest
    -- how many digits were written decides what they are worth
    let written := (rest.take 9).takeWhile isDigit
    pure (value * Nat.pow 10 (9 - written.length), rest.dropWhile isDigit)
  | _ => pure (0, cs)

/-- A number of two digits. What is shorter than two digits when encoded ends too soon; one
character may be long enough to be something else than digits. -/
def twoDigits (cs : List Char) : Except TimeProblem (Nat × List Char) :=
  match cs with
  | a :: b :: rest =>
    if isDigit a && isDigit b then .ok (digitsValue [a, b], rest) else .error .invalid
  | [a] => .error (if a.utf8Size < 2 then .tooShort else .invalid)
  | [] => .error .tooShort

/-- Hours and minutes ahead of the prime meridian, behind the sign. -/
def hoursAndMinutes (negative : Bool) (cs : List Char) :
    Except TimeProblem (Int × List Char) := do
  let (hours, rest) ← twoDigits cs
  let (minutes, rest) ← twoDigits (rest.dropWhile fun c => c == ':' || isBlank c)
  if 60 ≤ minutes then throw .outOfRange
  let seconds : Int := hours * 3600 + minutes * 60
  pure (if negative then -seconds else seconds, rest)

/-- An offset in seconds ahead of the prime meridian. -/
def offset (cs : List Char) : Except TimeProblem (Int × List Char) :=
  if (cs.take 3).map Char.toUpper == ['U', 'T', 'C'] then .ok (0, cs.drop 3)
  else
    match cs with
    | [] => .error .tooShort
    | c :: rest =>
      if c == 'Z' || c == 'z' then .ok (0, rest)
      else if c == '+' then hoursAndMinutes false rest
      else if c == '-' || c == '\u2212' then hoursAndMinutes true rest
      else .error .invalid

/-- The instant of a text. -/
def read (text : String) : Except TimeProblem Instant := do
  let (year, cs) ← year text.toList
  let (month, cs) ← field 1 12 (← separator '-' cs)
  let (day, cs) ← field 1 31 (← separator '-' cs)
  let cs ←
    match cs with
    | [] => throw .tooShort
    | c :: rest => if c == 'T' || c == 't' || c == ' ' then pure rest else throw .invalid
  let (hour, cs) ← field 0 23 cs
  let (minute, cs) ← field 0 59 (← separator ':' cs)
  let (second, cs) ← field 0 60 (← separator ':' cs)
  let (nanos, cs) ← fraction cs
  let (ahead, cs) ← offset (skipBlanks cs)
  if !(skipBlanks cs).isEmpty then throw .trailing
  let date : Date := ⟨year, month, day⟩
  if !date.isValid || ahead ≤ -86400 || 86400 ≤ ahead then throw .outOfRange
  -- the sixtieth second of a minute is kept as a second that lasts longer
  let leap := second / 60
  let clock : Instant :=
    ⟨date.dayNumber, hour * 3600 + minute * 60 + (second - leap), nanos + leap * 1000000000⟩
  match ofLocal? clock ahead with
  | some instant => pure instant
  | none => throw .impossible

end Instant

end BatchRun
