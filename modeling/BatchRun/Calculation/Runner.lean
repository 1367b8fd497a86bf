import BatchRun.Calculation.Basic
import BatchRun.Run.Dispatcher

/-!
# Running a calculation

The runner takes a calculation through its stages. Between the naming of the items and the stage
that takes the result in, it divides the items into blocks and runs one task for each. The first
failure ends the sequence of stages; the calculation cleans up whatever the outcome, and a
failure to clean up shows only where nothing failed before.

A fault on the way ends everything at once: nothing is there to catch it, and the calculation
does not clean up.

How the tasks are run is left open, so that what is said of the stages holds for every way.

## Main definitions

* `Trail`: what a calculation under way leaves behind
* `CalculationRunner.stages`: the stages up to the last one but `cleanUp`
* `CalculationRunner.runBy`, `CalculationRunner.run`: the whole calculation
-/

namespace BatchRun

open Std

/-- What a calculation under way leaves behind. -/
structure Trail (σ γ : Type) where
  /-- The state of the calculation. -/
  state : γ
  transport : σ
  timings : Timings
  journal : List Event
  /-- The stages that were called, in their order. -/
  called : List Stage

/-- Why a calculation ended before its last stage. -/
inductive Stop where
  | failed (error : RunError)
  | crashed (fault : Fault)
  /-- The run never came to an end. -/
  | stalled

/-- Part of a calculation under way. -/
abbrev Course (σ γ : Type) := ExceptT Stop (StateM (Trail σ γ))

/-- What is reported of a calculation that went well. -/
structure CalculationReport where
  name : String
  run : Summary
  exported : List String
  timings : List (String × ScopeTotal)

/-- Takes calculations through their stages. -/
structure CalculationRunner where
  settings : Settings Float
  monitor : Monitor

/-- A way to run the tasks of a dispatcher: over some transport, for arguments that follow those
that are collected, and a total of units. -/
abbrev Player (σ α κ β : Type) [Ord κ] :=
  Dispatcher α κ β → σ → Pending α → Nat → Played σ κ β

namespace Trail

variable {σ γ : Type}

/-- Write an entry into the journal. -/
def note (t : Trail σ γ) (event : Event) : Trail σ γ := { t with journal := t.journal ++ [event] }

/-- Record a scope that took no time worth telling. -/
def record (t : Trail σ γ) (path : String) : Trail σ γ :=
  { t with timings := (t.timings.record path .zero).1 }

/-- Call a stage. -/
def call {α : Type} (t : Trail σ γ) (stage : Stage) (act : γ → Effect γ α) :
    Except Cause α × Trail σ γ :=
  let effect := act t.state
  (effect.result, { t with
    state := effect.state
    timings := t.timings.recordAll effect.scopes
    called := t.called ++ [stage] })

end Trail

namespace CalculationRunner

variable {σ γ ι κ κ' β : Type} [Ord κ']

/-- A runner, unless its settings are refused. -/
def new (settings : Settings Float) : Except RunError CalculationRunner :=
  match settings.validate with
  | .ok () => .ok ⟨settings, .named "calculation"⟩
  | .error error => .error error

/-- The runner on one line. -/
def describe (r : CalculationRunner) : String :=
  Text.record "CalculationRunner" [
    ("config", r.settings.describe), ("monitor", Text.quoted r.monitor.name)]

/-- The error of a stage. -/
def stageError (stage : Stage) (cause : Cause) : RunError := .phaseFailed stage.name cause.line

/-- Call a stage, neither measured nor noted. -/
def call {α : Type} (stage : Stage) (act : γ → Effect γ α) : Course σ γ α := do
  match ← modifyGet (·.call stage act) with
  | .ok value => pure value
  | .error cause => throw (.failed (stageError stage cause))

/-- Call a stage that is measured, and noted in the journal. -/
def callNoted {α : Type} (r : CalculationRunner) (calculation : String) (stage : Stage)
    (act : Monitor → γ → Effect γ α) : Course σ γ α := do
  modify (·.note (.phaseStarted calculation stage.name))
  let result ← modifyGet (·.call stage (act r.monitor))
  -- a stage is measured whether or not it fails
  modify (·.record (r.monitor.path stage.name))
  match result with
  | .ok value =>
    modify (·.note (.phaseCompleted calculation stage.name))
    pure value
  | .error cause => throw (.failed (stageError stage cause))

/-- A value, or the error that ends the calculation. -/
def orFail {α : Type} : Except RunError α → Course σ γ α
  | .ok value => pure value
  | .error error => throw (.failed error)

/-- Run the tasks of a dispatcher, measured. -/
def execute {α : Type} (r : CalculationRunner) (player : Player σ α κ' β)
    (d : Dispatcher α κ' β) (pending : Pending α) (total : Nat) :
    Course σ γ (Tally κ' β × Summary) := do
  let before ← get
  let played := player
    { d with monitor := r.monitor.child "execute", timings := before.timings, journal := [] }
    before.transport pending total
  modify fun t =>
    { t with
      transport := played.transport
      timings := played.timings
      journal := t.journal ++ played.journal }.record (r.monitor.path "execute")
  match played.ending with
  | .finished result summary => pure (result, summary)
  | .failed error => throw (.failed error)
  | .crashed fault => throw (.crashed fault)
  | .stalled => throw .stalled

variable [BEq κ]

/-- All stages but the last, which cleans up. -/
def stages (r : CalculationRunner) (player : Player σ (Block ι κ Float) κ' β) (runId : RunId)
    (c : Calculation γ ι κ κ' β) : Course σ γ CalculationReport := do
  r.callNoted c.name .preExecute c.preExecute
  let items ← call .workItems c.workItems
  let total := (items.map c.weight).foldl (· + ·) 0.0
  let maxWeight ← orFail (r.settings.blockWeight total)
  let splitter ← orFail (Splitter.of (items.map some) maxWeight c.weight c.groupKey)
  -- the work function sees the state as it is now; later stages do not change its view
  let work := c.work (← get).state
  let dispatcher ← orFail (Dispatcher.new r.settings work runId)
  let (result, summary) ← r.execute player dispatcher (.lazy splitter.blocks) items.length
  r.callNoted c.name .postExecute (c.postExecute result)
  r.callNoted c.name .postProcess c.postProcess
  let exported ← r.callNoted c.name .exportOutputs c.exportOutputs
  pure ⟨c.name, summary, exported, (← get).timings.report⟩

/-- Clean up, and put the failure to do so in place of a success. -/
def cleanUp (r : CalculationRunner) (c : Calculation γ ι κ κ' β)
    (outcome : Except RunError CalculationReport) (t : Trail σ γ) :
    Except RunError CalculationReport × Trail σ γ :=
  let (cleaned, t) := t.call .cleanUp c.cleanUp
  let t := t.record (r.monitor.path Stage.cleanUp.name)
  match outcome, cleaned with
  | .error error, _ => (.error error, t)
  | .ok _, .error cause => (.error (stageError .cleanUp cause), t)
  | .ok report, .ok () => (.ok report, t)

/-- The whole calculation, over a way to run tasks. -/
def runBy (r : CalculationRunner) (player : Player σ (Block ι κ Float) κ' β) (runId : RunId)
    (c : Calculation γ ι κ κ' β) (t : Trail σ γ) :
    Except Stop CalculationReport × Trail σ γ :=
  let settled outcome (t : Trail σ γ) :=
    match r.cleanUp c outcome t with
    | (.ok report, t) => (.ok report, t)
    | (.error error, t) => (.error (.failed error), t)
  match (r.stages player runId c).run.run t with
  | (.ok report, t) => settled (.ok report) t
  | (.error (.failed error), t) => settled (.error error) t
  -- nothing cleans up after a fault
  | (.error stop, t) => (.error stop, t)

variable [TransOrd κ'] [Mergeable β] [Transport σ] [Described κ]

/-- The whole calculation, with its run played for a number of moves per reply at most. -/
def run (r : CalculationRunner) (patience : Nat) (runId : RunId)
    (c : Calculation γ ι κ κ' β) (t : Trail σ γ) :
    Except Stop CalculationReport × Trail σ γ :=
  r.runBy (fun d transport pending total => d.execute patience transport pending total) runId c
    t

end CalculationRunner

end BatchRun
