import BatchRun.Rehearsal.ScriptedTask
import BatchRun.Run.Schedule
import BatchRun.Signal.Polling

/-!
# Executors on a bench

An executor can be tried out without a control node: scripted tasks are submitted to it by hand,
and the signals and outcomes that it brings forth are collected. Workers do what they can as soon
as they can. Gated tasks wait until the gates are opened, once for all.

## Main definitions

* `Bench`: an executor with all that it needs
* `Bench.submit`, `Bench.drive`, `Bench.runTask`, `Bench.collect`
-/

namespace BatchRun

/-- An executor with all that it needs. -/
structure Bench where
  executor : Executor ScriptedTask String Count
  /-- How many workers a pool was made with. -/
  workers : Option Nat
  shop : Workshop ScriptedTask String Count
  channel : Channel
  commons : Commons Broker String Count
  gatesOpen : Bool
  /-- How many steps workers may do before it is the bench's turn again. -/
  patience : Nat

namespace Bench

/-- The monitor under which tasks are measured. -/
def monitor : Monitor := .named "exec"

/-- A bench with an executor of a mode, which merges into a shared tally or does not. -/
def of (mode : ExecutionMode) (workers : Nat) (shares : Bool) (patience : Nat) :
    Except Failure Bench := do
  let executor ← Executor.ofMode mode workers
  let (channel, broker) ←
    (Channel.openOn ⟨"1"⟩ .usual (Broker.new Signaling.usual.exchange)).mapError .refused
  pure {
    executor
    workers := if mode = .threads then some workers else none
    shop := ⟨ScriptedTask.perform, channel.notifier⟩
    channel
    commons := .start broker shares .empty
    gatesOpen := false
    patience }

/-- Let the workers do what they can. -/
def settle (b : Bench) : Bench :=
  let (executor, commons) :=
    Executor.windDown b.shop (fun t => t.gated && !b.gatesOpen) b.patience b.executor b.commons
  { b with executor, commons }

/-- A task for the given arguments. -/
def taskOf (taskNo : Nat) (args : ScriptedTask) : Task ScriptedTask :=
  ⟨taskNo, args, monitor.forTask taskNo⟩

/-- Submit a task. -/
def submit (taskNo : Nat) (args : ScriptedTask) (b : Bench) : Except RunError Unit × Bench :=
  match b.executor.submit (taskOf taskNo args) with
  | .ok executor => (.ok (), { b with executor }.settle)
  | .error error => (.error error, b)

/-- Submit a task again and again until there are no workers any more, for a number of times at
most. -/
def submitUntilGone (taskNo : Nat) (args : ScriptedTask) :
    Nat → Bench → Except RunError Unit × Bench
  | 0, b => b.submit taskNo args
  | times + 1, b =>
    match b.submit taskNo args with
    | (.error (.transport (.workersGone no)), b) => (.error (.transport (.workersGone no)), b)
    | (_, b) => submitUntilGone taskNo args times b

/-- Run a task at once, without the executor. -/
def runTask (taskNo : Nat) (args : ScriptedTask) (b : Bench) : Option Fault × Bench :=
  let (fault, commons) := Worker.runTask b.shop (taskOf taskNo args) b.commons
  (fault, { b with commons })

/-- Give queued tasks a chance. -/
def drive (b : Bench) : Option Fault × Bench :=
  let (fault, executor, commons) := b.executor.drive b.shop b.commons
  (fault, { b with executor, commons })

/-- Drop queued tasks. -/
def abort (b : Bench) : Bench := { b with executor := b.executor.abort }.settle

/-- Run what is queued on the control node, for a number of tasks at most. -/
def driveAll : Nat → Bench → Option Fault × Bench
  | 0, b => (none, b)
  | tasks + 1, b =>
    match b.drive with
    | (some fault, b) => (some fault, b)
    | (none, b) => b.driveAll tasks

/-- Accept no more tasks and see all that are queued through. -/
def shutdown (b : Bench) : Option Fault × Bench :=
  let b := { b with executor := b.executor.close }.settle
  -- threads are through by now, and a sequential executor runs what is left
  b.driveAll b.executor.queued

/-- Open the gates. -/
def openGates (b : Bench) : Bench := { b with gatesOpen := true }.settle

/-- Lose the outcomes that were sent and those that will be. -/
def loseOutcomes (b : Bench) : Bench :=
  { b with commons := { b.commons with outcomes := [], outcomesWanted := false } }

/-- Take the signals that are there, a given number at most, and all outcomes. -/
def collect (signals : Option Nat) (b : Bench) :
    List (Except RunError Signal) × List (Outcome String Count) × Bench :=
  let most := signals.getD (b.commons.transport.waiting b.channel.queue).length
  let (received, channel, transport) := b.channel.pollUpTo most b.commons.transport
  (received, b.commons.outcomes,
    { b with channel, commons := { b.commons with transport, outcomes := [] } })

/-- What workers have merged so far, if they merge. -/
def shared (b : Bench) : Option (Except Fault (Tally String Count)) :=
  b.commons.shared.map (·.tally.snapshot)

end Bench

end BatchRun
