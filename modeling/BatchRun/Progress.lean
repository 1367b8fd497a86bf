import BatchRun.Text.Record

/-!
# Progress of a run

Units of work computed against the units expected. The counters never pass the total: an amount
that would is refused whole, and the counters stay as they are.

## Main definitions

* `Progress`: units computed, at most the total
* `Progress.advance`: count the units that a task reports
-/

namespace BatchRun

/-- Units computed out of the units expected. -/
structure Progress where
  computed : Nat
  total : Nat
  computed_le : computed ≤ total
  deriving DecidableEq

/-- An amount that would take the counters past the total. -/
structure ProgressOverflow where
  computed : Nat
  total : Nat
  amount : Nat
  deriving DecidableEq, Repr

/-- The wording of a refused amount. -/
def ProgressOverflow.message (o : ProgressOverflow) : String :=
  "reported " ++ toString o.amount ++ " units with " ++ toString o.computed ++ " of " ++
    toString o.total ++ " already computed"

namespace Progress

/-- Nothing computed yet. -/
def start (total : Nat) : Progress := ⟨0, total, Nat.zero_le _⟩

/-- Units still expected. -/
def remaining (p : Progress) : Nat := p.total - p.computed

/-- Whether all units are computed. -/
def isComplete (p : Progress) : Bool := p.computed == p.total

/-- Count a reported amount, unless it is more than what remains. -/
def advance (p : Progress) (amount : Nat) : Except ProgressOverflow Progress :=
  if h : p.computed + amount ≤ p.total then .ok ⟨p.computed + amount, p.total, h⟩
  else .error ⟨p.computed, p.total, amount⟩

/-- The percentage computed; where nothing is expected all is done. -/
def percent (p : Progress) : Float :=
  if p.total = 0 then 100.0 else Float.ofNat p.computed * 100.0 / Float.ofNat p.total

/-- The counters on one line. -/
def describe (p : Progress) : String :=
  Text.record "ProgressCounters" [
    ("computed", toString p.computed), ("total", toString p.total)]

end Progress

end BatchRun
