import BatchRun.Calculation.Runner
import BatchRun.Partition.GroupKey
import BatchRun.Rehearsal.ScriptedTask

/-!
# Calculations that follow a script

In a rehearsal a calculation works on items of given weights and groups. For every block it
returns the number and the weight of its items under the label of the block and under the groups
of the items. The script says which stages and which blocks fail.

## Main definitions

* `CalculationScript`, `CalculationScript.calculation`
-/

namespace BatchRun

/-- What a calculation does. -/
structure CalculationScript where
  name : String
  items : List (Float × GroupKey)
  /-- Why stages fail. -/
  failures : List (Stage × Cause)
  exported : List String
  /-- What goes wrong with single blocks. -/
  mishaps : List (Nat × Mishap)
  /-- Only what every calculation has to bring along is there: the items, and a stage that takes
  the result in. -/
  minimal : Bool

/-- What a scripted calculation keeps: the result of its run. -/
abbrev ScriptedCalculation.State := Option (Tally String (List Float))

namespace CalculationScript

open ScriptedCalculation

/-- Whether the calculation brings a stage along. -/
def brings (c : CalculationScript) (stage : Stage) : Bool :=
  !c.minimal || stage == .workItems || stage == .postExecute

/-- A stage that hands a value on, unless it fails. -/
def effect {α : Type} (c : CalculationScript) (stage : Stage)
    (scopes : List (String × Elapsed)) (state : State) (value : α) : Effect State α :=
  ⟨match c.failures.lookup stage with
    | some cause => .error cause
    | none => .ok value, state, scopes⟩

/-- The entries of a block: under its label, under a count of all blocks, and under the group of
each item. -/
def entries (block : Block (Float × GroupKey) GroupKey Float) : List (String × List Float) :=
  [(block.label, [Float.ofNat block.size, block.weight]), ("blocks", [1.0])] ++
    block.items.toList.map fun (weight, key) => ("group " ++ key.describe, [1.0, weight])

/-- What is done for every block. -/
def perform (c : CalculationScript) :
    WorkFunction (Block (Float × GroupKey) GroupKey Float) String (List Float) := fun task =>
  { verdict :=
      match c.mishaps.lookup task.args.index with
      | some mishap => mishap.verdict
      | none => .ofCollected (Tally.collect (entries task.args))
    scopes := [(task.monitor.path "tally", .zero)]
    took := 0 }

/-- The stages that every calculation has to bring along. -/
def core (c : CalculationScript) :
    Calculation State (Float × GroupKey) GroupKey String (List Float) where
  name := c.name
  workItems state := c.effect .workItems [] state c.items
  weight := Prod.fst
  groupKey := Prod.snd
  work _ := c.perform
  postExecute result _ _ := c.effect .postExecute [] (some result) ()

/-- The calculation. -/
def calculation (c : CalculationScript) :
    Calculation State (Float × GroupKey) GroupKey String (List Float) :=
  if c.minimal then c.core
  else
    { c.core with
      preExecute := fun _ state => c.effect .preExecute [] state ()
      postProcess := fun monitor state =>
        c.effect .postProcess [((monitor.child "post_process").path "custom", .zero)] state ()
      exportOutputs := fun _ state => c.effect .exportOutputs [] state c.exported
      cleanUp := fun state => c.effect .cleanUp [] state () }

end CalculationScript

end BatchRun
