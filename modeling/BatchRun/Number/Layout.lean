import BatchRun.Number.Shortest

/-!
# Layouts of decimal numbers

A layout says how the shortest digits of a number are written: which numbers are written
positionally, whether a whole number keeps a fractional part, which sign an exponent has, and
which of two equally near decimals is taken. The library writes three layouts, all of them read
back to the same number.

## Main definitions

* `Layout.plain`: never an exponent, `3`, `0.1`, `10000000000000000000000`
* `Layout.debug`: a point in every number, an exponent from `1e16` on and below `1e-4`
* `Layout.json`: an exponent from `1e+16` on and below `1e-5` only, and ties to even
* `float64Text`, `float32Text`: the text of a number in a layout
-/

namespace BatchRun.Number

/-- How the digits of a finite number are written. -/
structure Layout where
  /-- Positions of the decimal point that are written positionally; `none` for all. -/
  positional : Option (Int × Int)
  /-- What follows a whole number that is written positionally. -/
  wholeEnding : String
  /-- What stands before the digits of an exponent that is not negative. -/
  exponentSign : String
  /-- The choice between two decimals that are equally near. -/
  tie : Tie

namespace Layout

/-- Messages and answers never use an exponent. -/
def plain : Layout := ⟨none, "", "", .up⟩

/-- Descriptions of values use an exponent from `1e16` on and below `1e-4`. -/
def debug : Layout := ⟨some (-3, 16), ".0", "", .up⟩

/-- JSON text uses an exponent from `1e+16` on and below `1e-5`. -/
def json : Layout := ⟨some (-4, 16), ".0", "+", .toEven⟩

/-- Whether a number whose decimal point stands at `point` is written positionally. -/
def isPositional (l : Layout) (point : Int) : Bool :=
  match l.positional with
  | none => true
  | some (least, greatest) => least ≤ point && point ≤ greatest

private def zeros (n : Nat) : String := String.ofList (List.replicate n '0')

/-- The digits with a decimal point among, before or after them. -/
def writePositional (l : Layout) (d : Digits) : String :=
  let count := d.digits.length
  if d.point ≤ 0 then
    -- the point is in front of all digits
    "0." ++ zeros (-d.point).toNat ++ String.ofList d.digits
  else if d.point < count then
    -- the point is among the digits
    String.ofList (d.digits.take d.point.toNat) ++ "." ++
      String.ofList (d.digits.drop d.point.toNat)
  else
    -- a whole number
    String.ofList d.digits ++ zeros (d.point.toNat - count) ++ l.wholeEnding

/-- The digits with one of them before the decimal point, and the exponent that makes up for
it. -/
def writeExponent (l : Layout) (d : Digits) : String :=
  let sign := if d.point < 1 then "" else l.exponentSign
  let exponent := "e" ++ sign ++ toString (d.point - 1)
  match d.digits with
  | [] => "0" ++ exponent
  | [first] => first.toString ++ exponent
  | first :: rest => first.toString ++ "." ++ String.ofList rest ++ exponent

/-- The text of a number of the given format. -/
def write (l : Layout) (f : BinaryFormat) : Decoded → String
  | .nan => "NaN"
  | .infinite negative => if negative then "-inf" else "inf"
  | .finite negative significand exponent =>
    let sign := if negative then "-" else ""
    if significand = 0 then sign ++ "0" ++ l.wholeEnding
    else
      let d := shortest f l.tie significand exponent
      sign ++ if l.isPositional d.point then l.writePositional d else l.writeExponent d

end Layout

/-- The text of a 64-bit number. -/
def float64Text (l : Layout) (x : Float) : String :=
  l.write binary64 (binary64.decode x.toBits.toNat)

/-- The text of a 32-bit number, with the digits that 32 bits need. -/
def float32Text (l : Layout) (x : Float32) : String :=
  l.write binary32 (binary32.decode x.toBits.toNat)

end BatchRun.Number
