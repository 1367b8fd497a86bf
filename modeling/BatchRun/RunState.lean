/-!
# States of a run

A run fills its executor, drains it with one new task per acknowledged one, and ends done or
aborted.
-/

namespace BatchRun

/-- Where a run stands. -/
inductive RunState where
  /-- Tasks are submitted up to the concurrency limit. -/
  | filling
  /-- Signals are awaited, and each makes room for one more task. -/
  | draining
  /-- All units are computed. -/
  | done
  /-- A task failed or the signals could not be trusted; what is left is abandoned. -/
  | aborted
  deriving DecidableEq, Repr

namespace RunState

/-- The states by the names they are written with. -/
def named : List (String × RunState) :=
  [("filling", .filling), ("draining", .draining), ("done", .done), ("aborted", .aborted)]

/-- The name of a state. -/
def name : RunState → String
  | filling => "filling"
  | draining => "draining"
  | done => "done"
  | aborted => "aborted"

/-- The state of a name. -/
def ofName? (name : String) : Option RunState := named.lookup name

/-- The name of a state in descriptions. -/
def describe : RunState → String
  | filling => "Filling"
  | draining => "Draining"
  | done => "Done"
  | aborted => "Aborted"

/-- Whether the run is over. -/
def isTerminal : RunState → Bool
  | done | aborted => true
  | filling | draining => false

/-- Whether tasks may still be submitted. -/
def acceptsTasks : RunState → Bool
  | filling | draining => true
  | done | aborted => false

/-- The wording for a name that no state has. -/
def unknownName (name : String) : String := "Invalid tracker state: " ++ name

theorem ofName?_name (s : RunState) : ofName? s.name = some s := by cases s <;> rfl

end RunState

end BatchRun
