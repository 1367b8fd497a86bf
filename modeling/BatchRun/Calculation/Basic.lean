import BatchRun.Partition.Block
import BatchRun.Run.Task

/-!
# Calculations

A calculation is a computation over weighted items of groups, in a fixed sequence of stages
around one run. Each stage may fail, may change the state of the calculation, and may measure
scopes.

## Main definitions

* `Stage`: the stages, in their order
* `Effect`: what a stage does
* `Calculation`: the stages of a calculation with states of type `γ`, items of type `ι`, groups
  of type `κ` and results with keys of type `κ'` and values of type `β`
-/

namespace BatchRun

/-- The stages around a run. -/
inductive Stage where
  /-- Inputs are read. -/
  | preExecute
  /-- The items are named. -/
  | workItems
  /-- The result of the run is taken in. -/
  | postExecute
  | postProcess
  /-- Outputs are written. -/
  | exportOutputs
  /-- Resources are given back, after success and failure alike. -/
  | cleanUp
  deriving DecidableEq, Repr

namespace Stage

/-- The name of a stage. -/
def name : Stage → String
  | preExecute => "pre_execute"
  | workItems => "work_items"
  | postExecute => "post_execute"
  | postProcess => "post_process"
  | exportOutputs => "export"
  | cleanUp => "clean_up"

end Stage

/-- What a stage does. -/
structure Effect (γ α : Type) where
  result : Except Cause α
  /-- The state of the calculation behind the stage, also if it failed. -/
  state : γ
  /-- The scopes that it measured, by their paths, in the order in which they ended. -/
  scopes : List (String × Elapsed)

/-- A stage that does nothing but hand a value on. -/
def Effect.pass {γ α : Type} (state : γ) (value : α) : Effect γ α := ⟨.ok value, state, []⟩

/-- The stages of a calculation. -/
structure Calculation (γ ι κ κ' β : Type) [Ord κ'] where
  name : String
  preExecute : Monitor → γ → Effect γ Unit := fun _ state => .pass state ()
  /-- The items, in the order in which they are worked on. -/
  workItems : γ → Effect γ (List ι)
  /-- What an item costs, for scheduling. -/
  weight : ι → Float
  /-- The group of an item; a block holds items of one group. -/
  groupKey : ι → κ
  /-- What is done for every block. -/
  work : γ → WorkFunction (Block ι κ Float) κ' β
  postExecute : Tally κ' β → Monitor → γ → Effect γ Unit
  postProcess : Monitor → γ → Effect γ Unit := fun _ state => .pass state ()
  /-- The names of what was written. -/
  exportOutputs : Monitor → γ → Effect γ (List String) := fun _ state => .pass state []
  cleanUp : γ → Effect γ Unit := fun state => .pass state ()

end BatchRun
