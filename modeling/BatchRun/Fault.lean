/-!
# Faults

A fault is arithmetic that left its range, or a size that no memory can hold. It is no error that
a caller can handle: whatever was under way ends with it. Operations that can fault return
`Except Fault`, so that no number is ever wrapped or cut.
-/

namespace BatchRun

/-- Arithmetic or a size that left its range. -/
inductive Fault where
  /-- A sum of whole numbers of a fixed width. -/
  | sum
  /-- A difference of whole numbers without a sign. -/
  | difference
  /-- A sum of elapsed times. -/
  | elapsedSum
  /-- An elapsed time whose fraction carries into the seconds. -/
  | elapsedCarry
  /-- A concurrency limit beyond what can be counted. -/
  | permits (most : Nat)
  /-- More items than can be addressed. -/
  | size
  /-- A bounded queue whose places cannot be numbered. -/
  | places
  /-- More keys than a table has places for. -/
  | keys
  deriving DecidableEq, Repr

/-- The wording of a fault. -/
def Fault.message : Fault → String
  | .sum => "attempt to add with overflow"
  | .difference => "attempt to subtract with overflow"
  | .elapsedSum => "overflow when adding durations"
  | .elapsedCarry => "overflow in Duration::new"
  | .permits most =>
    "a semaphore may not have more than MAX_PERMITS permits (" ++ toString most ++ ")"
  | .size => "capacity overflow"
  | .places => "bounded channel capacity is too large"
  | .keys => "Hash table capacity overflow"

/-- The bytes that an address can tell apart. -/
def addressableBytes : Nat := UInt64.size / 2 - 1

end BatchRun
