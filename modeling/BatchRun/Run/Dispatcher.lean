import BatchRun.Run.Schedule
import BatchRun.Settings.Codec

/-!
# Dispatchers

A dispatcher collects the arguments of tasks and starts a run over them. Further arguments may
follow lazily; how many they are need not be known. The settings are checked before anything is
submitted.

## Main definitions

* `Dispatcher`: what is collected before a run starts
* `Pending`: arguments that follow
* `Dispatcher.start`: the run at its start
* `Dispatcher.reduce`, `Dispatcher.execute`: the run played to its end
-/

namespace BatchRun

open Std

/-- Arguments that follow those that are collected. -/
structure Pending (α : Type) where
  args : List α
  /-- How many they are at most, if that is known. -/
  atMost : Option Nat

namespace Pending

variable {α : Type}

/-- Nothing follows. -/
def none : Pending α := ⟨[], some 0⟩

/-- Arguments whose number is known. -/
def ofList (args : List α) : Pending α := ⟨args, some args.length⟩

/-- Arguments whose number is not known before they come. -/
def lazy (args : List α) : Pending α := ⟨args, Option.none⟩

end Pending

/-- What is collected before a run starts. -/
structure Dispatcher (α κ β : Type) [Ord κ] where
  settings : Settings Float
  work : WorkFunction α κ β
  runId : RunId
  monitor : Monitor
  timings : Timings
  /-- Arguments of tasks, in the order in which they came. -/
  queued : List α
  journal : List Event

/-- The most permits that can be counted. -/
def mostPermits : Nat := (UInt64.size - 1) / 8

/-- A sum of numbers of 64 bits. -/
def checkedSum : List Nat → Except Fault Nat
  | [] => .ok 0
  | n :: rest =>
    match checkedSum rest with
    | .error fault => .error fault
    | .ok sum => if n + sum < UInt64.size then .ok (n + sum) else .error .sum

/-- A run that was played to its end, and what it leaves behind. -/
structure Played (σ κ β : Type) [Ord κ] where
  ending : Ending κ β
  /-- How many tasks were submitted. -/
  submitted : Nat
  transport : σ
  timings : Timings
  journal : List Event

/-- What a run leaves behind once its caller has let go of it and its workers are through. -/
def Played.ofRun {σ α κ β : Type} [Ord κ] [TransOrd κ] [Mergeable β] [Transport σ] [Workload α]
    (patience : Nat) (ending : Ending κ β) (run : Run σ α κ β) : Played σ κ β :=
  let run := run.close patience
  ⟨ending, run.nextTaskNo, run.commons.transport, run.commons.timings, run.journal⟩

namespace Dispatcher

variable {σ α κ β : Type} [Ord κ]

/-- A dispatcher of a run, unless the settings are refused. -/
def new (settings : Settings Float) (work : WorkFunction α κ β) (runId : RunId) :
    Except RunError (Dispatcher α κ β) :=
  match settings.validate with
  | .ok () => .ok ⟨settings, work, runId, .named "dispatch", .empty, [], []⟩
  | .error error => .error error

/-- Collect the arguments of one more task. -/
def submit (d : Dispatcher α κ β) (args : α) : Dispatcher α κ β :=
  { d with
    queued := d.queued ++ [args]
    journal := d.journal ++ [.taskQueued d.runId d.queued.length] }

/-- Collect the arguments of several tasks. -/
def submitAll (d : Dispatcher α κ β) (args : List α) : Dispatcher α κ β := args.foldl submit d

/-- How many tasks are expected, if that is known. -/
def expectedTasks (d : Dispatcher α κ β) (pending : Pending α) : Except Fault (Option Nat) :=
  match pending.atMost with
  | none => .ok none
  | some most => (checkedSum [most, d.queued.length]).map some

/-- The dispatcher on one line. -/
def describe (d : Dispatcher α κ β) : String :=
  Text.record "TaskDispatcher" [
    ("run_id", d.runId.describe),
    ("config", d.settings.describe),
    ("queued", toString d.queued.length)]

variable [TransOrd κ] [Mergeable β] [Transport σ] [Workload α]

/-- The run over all arguments, before anyone asks for a completion. A limit beyond what can be
counted makes the run crash at once. -/
def start (d : Dispatcher α κ β) (transport : σ) (pending : Pending α) (total : Nat) :
    Except Failure (Run σ α κ β) :=
  match d.expectedTasks pending with
  | .error fault => .error (.faulted fault)
  | .ok expected =>
    let mode := d.settings.mode.resolve d.settings.limit expected
    -- a queue that is refused is reported before an executor that is
    match Channel.openOn d.runId d.settings.signaling transport with
    | .error error => .error (.refused error)
    | .ok (channel, transport) =>
      match Executor.ofMode mode d.settings.limit with
      | .error why => .error why
      | .ok executor =>
        .ok {
          mode
          limit := d.settings.limit
          shop := ⟨d.work, channel.notifier⟩
          monitor := d.monitor
          state := .filling
          phase := if mostPermits < d.settings.limit then .crashed (.permits mostPermits)
            else .resting
          pending := d.queued ++ pending.args
          semaphore := ⟨d.settings.limit⟩
          inFlight := .empty
          channel
          buffered := .empty
          progress := .start total
          showsShared := true
          nextTaskNo := 0
          peak := 0
          executor
          commons := .start transport (d.settings.accumulation = .inWorker) d.timings
          journal := d.journal ++ [.runStarted d.runId] }

/-- The units of all arguments that are collected. -/
def totalUnits (d : Dispatcher α κ β) : Except Fault Nat :=
  checkedSum (d.queued.map Workload.units)

/-- How a run that did not start turned out. -/
def unstarted (d : Dispatcher α κ β) (transport : σ) : Failure → Played σ κ β
  | .refused error => ⟨.failed error, 0, transport, d.timings, d.journal⟩
  | .faulted fault => ⟨.crashed fault, 0, transport, d.timings, d.journal⟩

/-- Start a run over all arguments and play it to its end. -/
def execute (d : Dispatcher α κ β) (patience : Nat) (transport : σ) (pending : Pending α)
    (total : Nat) : Played σ κ β :=
  match d.start transport pending total with
  | .error why => d.unstarted transport why
  | .ok run =>
    let (ending, run) := run.toEnd patience run.questions .empty
    .ofRun patience ending run

/-- Play a run over the arguments that are collected, which are all of the work. -/
def reduce (d : Dispatcher α κ β) (patience : Nat) (transport : σ) : Played σ κ β :=
  match d.totalUnits with
  | .error fault => d.unstarted transport (.faulted fault)
  | .ok total => d.execute patience transport .none total

end Dispatcher

end BatchRun
