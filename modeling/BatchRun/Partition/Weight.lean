import BatchRun.Number.Layout

/-!
# Weights

The cost of an item, which is used for scheduling only. Partitioning needs little of a number:
sums, comparisons, an even share rounded up, and a text for messages. The weights of a run are
64-bit numbers, for which sums are rounded and comparisons with what is not a number fail; laws
that hold in exact arithmetic are stated for exact weights.
-/

namespace BatchRun

/-- Numbers that can serve as weights. -/
class Weight (W : Type) extends Add W, LT W, LE W where
  zero : W
  one : W
  decidableLT : DecidableLT W
  decidableLE : DecidableLE W
  isFinite : W → Bool
  /-- The weight divided by a number of parts and rounded up to a whole number. -/
  share : W → Nat → W
  /-- The text of a weight in messages and labels. -/
  text : W → String

namespace Weight

variable {W : Type} [Weight W]

instance : DecidableLT W := decidableLT

instance : DecidableLE W := decidableLE

/-- Whether a weight is above zero; what is not a number is not. -/
def isPositive (w : W) : Bool := decide (zero < w)

/-- Whether a weight is finite and not below zero. -/
def isOrdinary (w : W) : Bool := isFinite w && !decide (w < zero)

/-- The lesser of two weights. -/
def least (a b : W) : W := if b < a then b else a

instance : Weight Float where
  zero := 0.0
  one := 1.0
  decidableLT := inferInstance
  decidableLE := inferInstance
  isFinite := Float.isFinite
  share total parts := (total / Float.ofNat parts).ceil
  text := Number.float64Text .plain

end Weight

end BatchRun
