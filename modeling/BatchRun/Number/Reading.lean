/-!
# Reading numbers

Readers for the number texts that settings and signals use: whole numbers with an optional sign
and bounds, and decimal numbers that are rounded to the nearest 64-bit number.

## Main definitions

* `wholeNumber?`: a whole number between two bounds
* `scaled`: `mantissa * 10 ^ exponent`, rounded to the nearest number
* `decimal?`: a decimal number, an infinity or what is not a number
-/

namespace BatchRun.Number

/-- An ASCII digit; no other character stands for a digit in these texts. -/
def isDigit (c : Char) : Bool := '0' ≤ c && c ≤ '9'

/-- The value of a digit. -/
def digitValue (c : Char) : Nat := c.toNat - '0'.toNat

/-- The value of a row of digits. -/
def digitsValue (cs : List Char) : Nat := cs.foldl (fun n c => 10 * n + digitValue c) 0

/-- A row of one or more digits. -/
def natural? (cs : List Char) : Option Nat :=
  if cs.isEmpty || !cs.all isDigit then none else some (digitsValue cs)

/-- Split an optional sign off; the flag is set for a minus sign. -/
def splitSign : List Char → Bool × List Char
  | '-' :: rest => (true, rest)
  | '+' :: rest => (false, rest)
  | cs => (false, cs)

/-- A whole number with an optional sign, between `least` and `greatest`. A minus sign is
refused where no negative number is in range, even in front of zero. -/
def wholeNumber? (least greatest : Int) (text : String) : Option Int :=
  let (negative, cs) := splitSign text.toList
  if negative && 0 ≤ least then none
  else
    (natural? cs).bind fun n =>
      let value : Int := if negative then -n else n
      if least ≤ value && value ≤ greatest then some value else none

/-- The bounds of 64-bit words, signed and unsigned. -/
def int64Least : Int := -(UInt64.size / 2)
def int64Greatest : Int := UInt64.size / 2 - 1
def word64Greatest : Int := UInt64.size - 1

/-- The number `mantissa * 10 ^ exponent`, rounded to the nearest 64-bit number. Magnitudes far
outside the range are decided by their number of digits, so a huge exponent costs nothing. -/
def scaled (mantissa : Nat) (exponent : Int) : Float :=
  let magnitude := (Nat.toDigits 10 mantissa).length + exponent
  -- beyond these bounds every number is rounded to zero or to infinity
  if mantissa = 0 || magnitude < -400 then 0.0
  else if 400 < magnitude then 1.0 / 0.0
  else Float.ofScientific mantissa (exponent < 0) exponent.natAbs

/-- The same number with a sign in front, which zero keeps. -/
def signed (negative : Bool) (x : Float) : Float := if negative then -x else x

/-- Digits with at most one point and an optional exponent, of which at least one digit stands
in front of the exponent. -/
def decimalMagnitude? (cs : List Char) : Option Float :=
  let whole := cs.takeWhile isDigit
  let afterWhole := cs.dropWhile isDigit
  let fraction := match afterWhole with
    | '.' :: rest => rest.takeWhile isDigit
    | _ => []
  let afterFraction := match afterWhole with
    | '.' :: rest => rest.dropWhile isDigit
    | rest => rest
  let mantissa := digitsValue (whole ++ fraction)
  if whole.isEmpty && fraction.isEmpty then none
  else
    match afterFraction with
    | [] => some (scaled mantissa (-fraction.length))
    | c :: rest =>
      if c == 'e' || c == 'E' then
        let (negative, digits) := splitSign rest
        (natural? digits).map fun e =>
          scaled mantissa ((if negative then -e else e) - fraction.length)
      else none

/-- A decimal number with an optional sign, or one of the words for the infinities and for what
is not a number, in any case. -/
def decimal? (text : String) : Option Float :=
  let (negative, cs) := splitSign text.toList
  let word := String.ofList (cs.map Char.toLower)
  if word == "inf" || word == "infinity" then some (signed negative (1.0 / 0.0))
  else if word == "nan" then some (0.0 / 0.0)
  else (decimalMagnitude? cs).map (signed negative)

end BatchRun.Number
