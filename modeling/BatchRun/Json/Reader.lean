import BatchRun.Json.Basic
import BatchRun.Number.Reading

/-!
# Reading JSON text

A reader for the whole of JSON. A number without point and exponent that fits into 64 bits is a
whole number, any other is rounded to the nearest 64-bit floating-point number.

The readers for values recurse on a bound for the depth and length of what is still to come; the
length of the text is such a bound, because every step takes at least one character.

## Main definitions

* `Json.read?`: the value that a text stands for
-/

namespace BatchRun.Json

open BatchRun.Number

/-- The text behind white space. -/
def skipSpace (cs : List Char) : List Char :=
  cs.dropWhile fun c => c == ' ' || c == '\t' || c == '\n' || c == '\r'

private def hexValue? (c : Char) : Option Nat :=
  if isDigit c then some (digitValue c)
  else if 'a' ≤ c && c ≤ 'f' then some (c.toNat - 'a'.toNat + 10)
  else if 'A' ≤ c && c ≤ 'F' then some (c.toNat - 'A'.toNat + 10)
  else none

private def hexQuad? (a b c d : Char) : Option Nat := do
  let a ← hexValue? a
  let b ← hexValue? b
  let c ← hexValue? c
  let d ← hexValue? d
  some (((a * 16 + b) * 16 + c) * 16 + d)

private def shortEscape? : Char → Option Char
  | '"' => some '"'
  | '\\' => some '\\'
  | '/' => some '/'
  | 'b' => some '\x08'
  | 'f' => some '\x0c'
  | 'n' => some '\n'
  | 'r' => some '\r'
  | 't' => some '\t'
  | _ => none

/-- Characters from code units: a pair of surrogates is one character, a single surrogate
none. -/
def ofUnits? : List Nat → Option (List Char)
  | [] => some []
  | high :: low :: rest =>
    if 0xd800 ≤ high && high < 0xdc00 then
      if 0xdc00 ≤ low && low < 0xe000 then
        (ofUnits? rest).map
          (Char.ofNat (0x10000 + (high - 0xd800) * 0x400 + (low - 0xdc00)) :: ·)
      else none
    else if 0xdc00 ≤ high && high < 0xe000 then none
    else (ofUnits? (low :: rest)).map (Char.ofNat high :: ·)
  | [unit] =>
    if 0xd800 ≤ unit && unit < 0xe000 then none else some [Char.ofNat unit]

/-- The code units of a quoted text behind its opening quote, newest first in `done`. -/
def readUnits : List Char → List Nat → Option (List Nat × List Char)
  | '"' :: rest, done => some (done.reverse, rest)
  | '\\' :: 'u' :: a :: b :: c :: d :: rest, done =>
    match hexQuad? a b c d with
    | some unit => readUnits rest (unit :: done)
    | none => none
  | '\\' :: c :: rest, done =>
    match shortEscape? c with
    | some c => readUnits rest (c.toNat :: done)
    | none => none
  -- control characters have to be escaped
  | c :: rest, done => if c.toNat < 0x20 then none else readUnits rest (c.toNat :: done)
  | [], _ => none

/-- A quoted text behind its opening quote. -/
def readText (cs : List Char) : Option (String × List Char) := do
  let (units, rest) ← readUnits cs []
  let chars ← ofUnits? units
  some (String.ofList chars, rest)

/-- The value of a number: whole if it is written so and fits, rounded otherwise. -/
def numberValue (negative : Bool) (whole fraction : List Char) (exponent : Option Int) : Json :=
  let magnitude := digitsValue whole
  -- minus zero is rounded as well, because no whole number has its sign
  let rounded :=
    Json.real (signed negative
      (scaled (digitsValue (whole ++ fraction)) (exponent.getD 0 - fraction.length)))
  if fraction.isEmpty && exponent.isNone then
    if negative then
      if magnitude = 0 || UInt64.size / 2 < magnitude then rounded else .int (-magnitude)
    else if UInt64.size ≤ magnitude then rounded else .int magnitude
  else rounded

private def readExponent (cs : List Char) : Option (Option Int × List Char) :=
  match cs with
  | c :: rest =>
    if c == 'e' || c == 'E' then
      let (negative, digits) := splitSign rest
      let written := digits.takeWhile isDigit
      (natural? written).map fun (e : Nat) =>
        (some (if negative then -(e : Int) else e), digits.dropWhile isDigit)
    else some (none, cs)
  | [] => some (none, [])

/-- A number: no leading zeros, a digit on both sides of the point. -/
def readNumber (cs : List Char) : Option (Json × List Char) := do
  let (negative, cs) := match cs with
    | '-' :: rest => (true, rest)
    | _ => (false, cs)
  let whole := cs.takeWhile isDigit
  let rest := cs.dropWhile isDigit
  -- no zero stands in front of other digits
  if whole.isEmpty || (whole.length > 1 && whole.head? == some '0') then none
  let (fraction, rest) ← match rest with
    | '.' :: rest =>
      let fraction := rest.takeWhile isDigit
      if fraction.isEmpty then none else some (fraction, rest.dropWhile isDigit)
    | _ => some ([], rest)
  let (exponent, rest) ← readExponent rest
  some (numberValue negative whole fraction exponent, rest)

private def afterWord? (word : List Char) (cs : List Char) : Option (List Char) :=
  if word.isPrefixOf cs then some (cs.drop word.length) else none

mutual

/-- A value, and the text behind it. -/
def readValue : Nat → List Char → Option (Json × List Char)
  | 0, _ => none
  | bound + 1, cs =>
    match skipSpace cs with
    | '\x7b' :: rest =>
      match skipSpace rest with
      | '\x7d' :: rest => some (.object [], rest)
      | rest => (readFields bound rest []).map fun (fields, rest) => (record fields, rest)
    | '[' :: rest =>
      match skipSpace rest with
      | ']' :: rest => some (.list [], rest)
      | rest => (readItems bound rest []).map fun (items, rest) => (.list items, rest)
    | '"' :: rest => (readText rest).map fun (s, rest) => (.text s, rest)
    | 't' :: rest => (afterWord? ['r', 'u', 'e'] rest).map fun rest => (.bool true, rest)
    | 'f' :: rest => (afterWord? ['a', 'l', 's', 'e'] rest).map fun rest => (.bool false, rest)
    | 'n' :: rest => (afterWord? ['u', 'l', 'l'] rest).map fun rest => (.null, rest)
    | cs => readNumber cs

/-- The items of a list up to its closing bracket, newest first in `done`. -/
def readItems : Nat → List Char → List Json → Option (List Json × List Char)
  | 0, _, _ => none
  | bound + 1, cs, done =>
    match readValue bound cs with
    | none => none
    | some (item, rest) =>
      match skipSpace rest with
      | ',' :: rest => readItems bound rest (item :: done)
      | ']' :: rest => some ((item :: done).reverse, rest)
      | _ => none

/-- The fields of an object up to its closing brace, newest first in `done`. -/
def readFields : Nat → List Char → List (String × Json) →
    Option (List (String × Json) × List Char)
  | 0, _, _ => none
  | bound + 1, cs, done =>
    match skipSpace cs with
    | '"' :: rest =>
      match readText rest with
      | none => none
      | some (name, rest) =>
        match skipSpace rest with
        | ':' :: rest =>
          match readValue bound rest with
          | none => none
          | some (value, rest) =>
            match skipSpace rest with
            | ',' :: rest => readFields bound rest ((name, value) :: done)
            | '\x7d' :: rest => some (((name, value) :: done).reverse, rest)
            | _ => none
        | _ => none
    | _ => none

end

/-- The value that a text stands for, if it is the text of exactly one value. -/
def read? (text : String) : Option Json :=
  let cs := text.toList
  match readValue (cs.length + 1) cs with
  | some (value, rest) => if (skipSpace rest).isEmpty then some value else none
  | none => none

end BatchRun.Json
