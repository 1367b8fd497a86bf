import BatchRun.Partition.Weight
import BatchRun.RunError

/-!
# Work items

The smallest pieces of work: a weight, the key of the group that the item belongs to, and a
payload that only the work function looks at. The weight of an item is finite and not negative.
-/

namespace BatchRun

/-- A weighted piece of work that belongs to a group. -/
structure WorkItem (W κ ρ : Type) [Weight W] where
  weight : W
  key : κ
  payload : ρ
  ordinary : Weight.isOrdinary weight = true

/-- An item, unless its weight is negative or not finite. -/
def WorkItem.of {W κ ρ : Type} [Weight W] (weight : W) (key : κ) (payload : ρ) :
    Except RunError (WorkItem W κ ρ) :=
  if h : Weight.isOrdinary weight = true then .ok ⟨weight, key, payload, h⟩
  else .error (.invalidSetting "weight" (.badItemWeight (Weight.text weight)))

end BatchRun
