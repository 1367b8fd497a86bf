import BatchRun.Number.Reading
import BatchRun.Toml.Value

/-!
# Numbers of TOML

Whole numbers of 64 bits, decimal or with a base in front, and decimal numbers with a point or an
exponent. Single underscores may stand between digits. The words for the infinities and for what
is not a number are numbers too, but a decimal number may not be so large that it would be read
as the positive infinity.
-/

namespace BatchRun.Toml

open BatchRun.Number

/-- Digits with single underscores between them, and what follows. -/
def spacedDigits (isDigit : Char → Bool) : List Char → List Char × List Char
  | c :: '_' :: d :: rest =>
    if isDigit c then
      if isDigit d then
        let (digits, rest) := spacedDigits isDigit (d :: rest)
        (c :: digits, rest)
      else ([c], '_' :: d :: rest)
    else ([], c :: '_' :: d :: rest)
  | c :: rest =>
    if isDigit c then
      let (digits, rest) := spacedDigits isDigit rest
      (c :: digits, rest)
    else ([], c :: rest)
  | [] => ([], [])

private def whole (n : Int) : Option Value :=
  if int64Least ≤ n && n ≤ int64Greatest then some (.int n) else none

private def digitOf (base : Nat) (c : Char) : Option Nat :=
  let value :=
    if isDigit c then digitValue c
    else if 'a' ≤ c && c ≤ 'f' then c.toNat - 'a'.toNat + 10
    else if 'A' ≤ c && c ≤ 'F' then c.toNat - 'A'.toNat + 10
    else base
  if value < base then some value else none

/-- A whole number in a base that is written in front. -/
def based? (base : Nat) (cs : List Char) : Option (Value × List Char) := do
  let (digits, rest) := spacedDigits (fun c => (digitOf base c).isSome) cs
  if digits.isEmpty then none
  let value := digits.foldl (fun n c => base * n + (digitOf base c).getD 0) 0
  some (← whole value, rest)

private def fraction? (cs : List Char) : Option (List Char × List Char) :=
  match cs with
  | '.' :: rest =>
    let (digits, rest) := spacedDigits isDigit rest
    if digits.isEmpty then none else some (digits, rest)
  | _ => some ([], cs)

private def exponent? (cs : List Char) : Option (Int × List Char) :=
  match cs with
  | c :: rest =>
    if c == 'e' || c == 'E' then
      let (negative, rest) := splitSign rest
      let (digits, rest) := spacedDigits isDigit rest
      (natural? digits).map fun (e : Nat) => (if negative then -(e : Int) else e, rest)
    else some (0, cs)
  | [] => some (0, [])

/-- A decimal number behind its sign: no zero in front of other digits. -/
def decimal? (negative : Bool) (cs : List Char) : Option (Value × List Char) := do
  let (digits, rest) ←
    match cs with
    | '0' :: rest => some (['0'], rest)
    | _ => some (spacedDigits isDigit cs)
  if digits.isEmpty then none
  let (fraction, rest') ← fraction? rest
  let (exponent, rest'') ← exponent? rest'
  -- neither point nor exponent was written
  if rest''.length = rest.length then
    let n := digitsValue digits
    some (← whole (if negative then -n else n), rest)
  else
    -- with a point or an exponent it is a decimal number; one that is too large is none
    let places := exponent - fraction.length
    let x := signed negative (scaled (digitsValue (digits ++ fraction)) places)
    if x == 1.0 / 0.0 then none else some (.real x, rest'')

private def word? (negative : Bool) : List Char → Option (Value × List Char)
  | 'i' :: 'n' :: 'f' :: rest => some (.real (signed negative (1.0 / 0.0)), rest)
  | 'n' :: 'a' :: 'n' :: rest => some (.real (0.0 / 0.0), rest)
  | _ => none

/-- A number. -/
def number? (cs : List Char) : Option (Value × List Char) :=
  match cs with
  | '0' :: 'x' :: rest => based? 16 rest
  | '0' :: 'o' :: rest => based? 8 rest
  | '0' :: 'b' :: rest => based? 2 rest
  | _ =>
    let (negative, unsigned) := splitSign cs
    (word? negative unsigned).orElse fun _ => decimal? negative unsigned

end BatchRun.Toml
