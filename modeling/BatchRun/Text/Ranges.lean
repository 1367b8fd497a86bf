/-!
# Ranges of code points

Sets of characters that are given by a table of the code points that belong to them.
-/

namespace BatchRun.Text

/-- Inclusive ranges of code points, in increasing order. -/
abbrev Ranges := Array (Nat × Nat)

/-- Whether a code point lies in one of the ranges, by bisection of the rows from `low` up to
`high`. -/
def Ranges.containsIn (r : Ranges) (code : Nat) : Nat → Nat → Nat → Bool
  | 0, _, _ => false
  | fuel + 1, low, high =>
    if low < high then
      let middle := (low + high) / 2
      match r[middle]? with
      | none => false
      | some (first, last) =>
        if code < first then r.containsIn code fuel low middle
        else if last < code then r.containsIn code fuel (middle + 1) high
        else true
    else false

/-- Whether a code point lies in one of the ranges. -/
def Ranges.contains (r : Ranges) (code : Nat) : Bool :=
  r.containsIn code (r.size + 1) 0 r.size

end BatchRun.Text
