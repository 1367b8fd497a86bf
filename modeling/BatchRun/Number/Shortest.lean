/-!
# Shortest decimal digits of binary floating-point numbers

A finite binary number `m * 2 ^ q` is the nearest representable number of every real in an
interval around it. `shortest` looks for a point of a decimal grid in that interval, from the
coarsest grid to the finest: the first grid that has one gives the fewest digits that read back
to the number, and of two points of one grid the nearer is taken. Which of two points that are
equally near is taken is a parameter, `Tie`.

Everything is exact arithmetic on naturals. No power of two or ten is ever rounded.

## Main definitions

* `BinaryFormat.decode`: the value that a bit pattern stands for
* `Tie`: which of two equally near grid points is taken
* `Span`: the reals that round to a number, as bounds over a common unit
* `shortest`: the digits and the position of the decimal point
-/

namespace BatchRun.Number

/-- Widths of the stored fields of a binary interchange format. -/
structure BinaryFormat where
  significandBits : Nat
  exponentBits : Nat

/-- The format of 64-bit numbers. -/
def binary64 : BinaryFormat := ⟨52, 11⟩

/-- The format of 32-bit numbers. -/
def binary32 : BinaryFormat := ⟨23, 8⟩

/-- What a bit pattern stands for; a finite number is `± significand * 2 ^ exponent`. -/
inductive Decoded where
  | nan
  | infinite (negative : Bool)
  | finite (negative : Bool) (significand : Nat) (exponent : Int)
  deriving DecidableEq, Repr

namespace BinaryFormat

/-- The exponent field of infinities and of what is not a number. -/
def topExponent (f : BinaryFormat) : Nat := Nat.pow 2 f.exponentBits - 1

/-- The exponent that belongs to the last bit of the smallest numbers. -/
def leastExponent (f : BinaryFormat) : Int :=
  1 - ((Nat.pow 2 (f.exponentBits - 1) - 1 : Nat) : Int) - f.significandBits

/-- Split a bit pattern into sign, significand and exponent. -/
def decode (f : BinaryFormat) (bits : Nat) : Decoded :=
  let stored := bits % Nat.pow 2 f.significandBits
  let field := bits / Nat.pow 2 f.significandBits % Nat.pow 2 f.exponentBits
  let negative := bits / Nat.pow 2 (f.significandBits + f.exponentBits) % 2 == 1
  if field = f.topExponent then
    if stored = 0 then .infinite negative else .nan
  else if field = 0 then
    .finite negative stored f.leastExponent
  else
    .finite negative (Nat.pow 2 f.significandBits + stored) (f.leastExponent + (field - 1 : Nat))

end BinaryFormat

/-- Which of two grid points that are equally near stands for a number. -/
inductive Tie where
  | up
  | toEven
  deriving DecidableEq, Repr

/-- The choice between the grid points `c` and `c + 1`. -/
def Tie.choose : Tie → Nat → Nat
  | .up, c => c + 1
  | .toEven, c => if c % 2 = 0 then c else c + 1

/-- The reals that round to a number, in quarters of its last binary place: the number is
`4 * significand` quarters, and `closed` says whether the two ends round to it too. -/
structure Span where
  centre : Nat
  below : Nat
  above : Nat
  exponent : Int
  closed : Bool

/-- The neighbour below a power of two is nearer than the one above, unless the exponent is the
least. Ends belong to the span of an even significand, because ties go to even. -/
def Span.around (f : BinaryFormat) (significand : Nat) (exponent : Int) : Span where
  centre := 4 * significand
  below := if significand = Nat.pow 2 f.significandBits ∧ f.leastExponent < exponent then 1 else 2
  above := 2
  exponent := exponent - 2
  closed := significand % 2 == 0

namespace Span

/-- A number of quarters, over the common unit of the span and the grid `10 ^ place`. -/
def quarters (s : Span) (place : Int) (n : Nat) : Nat :=
  n * Nat.pow 2 s.exponent.toNat * Nat.pow 10 (-place).toNat

/-- A point of the grid `10 ^ place`, over the same common unit. -/
def gridPoint (s : Span) (place : Int) (c : Nat) : Nat :=
  c * Nat.pow 10 place.toNat * Nat.pow 2 (-s.exponent).toNat

/-- Whether a point of the grid `10 ^ place` lies in the span. -/
def contains (s : Span) (place : Int) (c : Nat) : Bool :=
  let low := s.quarters place (s.centre - s.below)
  let high := s.quarters place (s.centre + s.above)
  let point := s.gridPoint place c
  if s.closed then low ≤ point && point ≤ high else low < point && point < high

/-- The last point of the grid `10 ^ place` that is not above the number. -/
def floorPoint (s : Span) (place : Int) : Nat :=
  s.quarters place s.centre / s.gridPoint place 1

/-- The grid point that stands for the number: of the two around it that are in the span the
nearer one. -/
def nearest? (s : Span) (tie : Tie) (place : Int) : Option Nat :=
  let c := s.floorPoint place
  match s.contains place c, s.contains place (c + 1) with
  | true, true =>
    -- both sides are doubled, so that the middle between two points is a whole number
    match compare (s.gridPoint place c + s.gridPoint place (c + 1))
        (2 * s.quarters place s.centre) with
    | .lt => some (c + 1)
    | .eq => some (tie.choose c)
    | .gt => some c
  | true, false => some c
  | false, true => some (c + 1)
  | false, false => none

/-- The first grid, from `10 ^ place` to ever finer ones, that has a point in the span. -/
def search (s : Span) (tie : Tie) : Nat → Int → Nat × Int
  | 0, place => (s.floorPoint place, place)
  | fuel + 1, place =>
    match s.nearest? tie place with
    | some c => (c, place)
    | none => search s tie fuel (place - 1)

end Span

/-- Digits of a positive number, which is `0.d₁d₂… * 10 ^ point`; the first and the last digit
are not zero. -/
structure Digits where
  digits : List Char
  point : Int
  deriving DecidableEq, Repr

/-- Digits of `c * 10 ^ place`. -/
def Digits.ofGridPoint (c : Nat) (place : Int) : Digits :=
  let written := Nat.toDigits 10 c
  ⟨(written.reverse.dropWhile (· == '0')).reverse, written.length + place⟩

/-- A power of ten that is above the number `significand * 2 ^ exponent`. -/
def coarsestPlace (significand : Nat) (exponent : Int) : Int :=
  (((Nat.log2 significand + 1 : Nat) + exponent) * 30103).fdiv 100000 + 1

/-- The fewest digits that read back to `significand * 2 ^ exponent`. Seventeen digits always
do in the formats above, and the coarsest grid is at most two places too coarse. -/
def shortest (f : BinaryFormat) (tie : Tie) (significand : Nat) (exponent : Int) : Digits :=
  let found := (Span.around f significand exponent).search tie 20
    (coarsestPlace significand exponent)
  Digits.ofGridPoint found.1 found.2

end BatchRun.Number
