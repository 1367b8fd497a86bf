import BatchRun.Journal
import BatchRun.Run.Executor
import BatchRun.Run.Slots
import BatchRun.RunState

/-!
# Runs and their control node

The control node submits tasks up to the concurrency limit, then waits for signals. Each signal
that it acknowledges makes room for one more task. It ends when all units are computed and no
task is in flight; the first error aborts the run.

A run is a state, and everything that happens to it is a move: the control node does its next
step, a worker does its next step, or the time for waiting is over. Moves of different actors may
come in any order, as long as they are possible. A caller asks the control node for the next
completion, and finds the reply once the control node has made enough moves.

## Main definitions

* `Completion`, `Reply`: what a caller is told
* `Phase`: where the control node stands with the caller's question
* `Run`, `Run.control?`, `Run.worker?`, `Run.expire?`: a run and its moves
-/

namespace BatchRun

open Std

/-- An acknowledged task. -/
structure Completion (κ β : Type) [Ord κ] where
  taskNo : Nat
  label : String
  /-- The units that its signal reported. -/
  amount : Nat
  /-- The counters with these units. -/
  progress : Progress
  /-- The partial result; none if a worker has merged it. -/
  part : Option (Tally κ β)

/-- What a caller is told: the next completion, that there is none, or an error. -/
abbrev Reply (κ β : Type) [Ord κ] := Except RunError (Option (Completion κ β))

/-- Where the control node stands with the caller's question. -/
inductive Phase (κ β : Type) [Ord κ] where
  /-- Nobody has asked yet. -/
  | resting
  /-- Tasks are submitted, at first or because a task was acknowledged. -/
  | filling (acknowledged : Option (Completion κ β))
  /-- All tasks that there was room for are submitted. -/
  | deciding
  /-- A signal is awaited since the given time. -/
  | awaiting (since : Nat)
  /-- The run is done as soon as the executor is. -/
  | joining (last : Option (Completion κ β))
  | replied (reply : Reply κ β)
  /-- The control node has come to a sudden end. -/
  | crashed (fault : Fault)

/-- A run under way. -/
structure Run (σ α κ β : Type) [Ord κ] where
  mode : ExecutionMode
  limit : Nat
  shop : Workshop α κ β
  monitor : Monitor
  state : RunState
  phase : Phase κ β
  /-- Arguments of tasks that are still to be submitted. -/
  pending : List α
  /-- The permits that no task in flight holds. -/
  semaphore : Semaphore
  /-- The tasks that are submitted and not acknowledged. -/
  inFlight : SortedMap Nat Slot
  channel : Channel
  /-- Outcomes that were taken before their signals came. -/
  buffered : SortedMap Nat (Outcome κ β)
  progress : Progress
  /-- Whether the shared tally can be looked at. -/
  showsShared : Bool
  nextTaskNo : Nat
  /-- The most tasks that were in flight at once. -/
  peak : Nat
  executor : Executor α κ β
  commons : Commons σ κ β
  journal : List Event

/-- Take the outcome of a task from those that were sent; others that come first are put aside. -/
def takeSent {κ β : Type} [Ord κ] (taskNo : Nat) :
    List (Outcome κ β) → SortedMap Nat (Outcome κ β) →
      Option (Outcome κ β) × List (Outcome κ β) × SortedMap Nat (Outcome κ β)
  | [], aside => (none, [], aside)
  | outcome :: rest, aside =>
    if outcome.taskNo = taskNo then (some outcome, rest, aside)
    else takeSent taskNo rest (aside.insert outcome.taskNo outcome)

namespace Run

variable {σ α κ β : Type} [Ord κ]

/-- The identifier of the run. -/
def runId (r : Run σ α κ β) : RunId := r.channel.runId

/-- Write an entry into the journal. -/
def note (r : Run σ α κ β) (event : Event) : Run σ α κ β :=
  { r with journal := r.journal ++ [event] }

/-- The tally that workers merge into, as long as the run may show it. -/
def accumulator (r : Run σ α κ β) : Option (SharedTally κ β) :=
  if r.showsShared then r.commons.shared else none

/-- Give a permit back. -/
def release (r : Run σ α κ β) (permit : Permit) : Run σ α κ β :=
  { r with semaphore := r.semaphore.release permit }

/-- Abort the run with an error. All tasks in flight are let go, and merges of an aborted run are
never shown. -/
def fail (r : Run σ α κ β) (error : RunError) : Run σ α κ β :=
  { r with
    state := .aborted
    phase := .replied (.error error)
    executor := r.executor.abort
    semaphore := r.semaphore.releaseAll (r.inFlight.values.map Slot.permit)
    inFlight := .empty
    buffered := .empty
    showsShared := false }.note (.runFailed r.runId error)

/-- The run is done: no more tasks, and the executor is waited for. -/
def finish (r : Run σ α κ β) (last : Option (Completion κ β)) : Run σ α κ β :=
  { r with state := .done, phase := .joining last, executor := r.executor.close }

/-- Whether all units are computed and no task is in flight. -/
def isFinished (r : Run σ α κ β) : Bool := r.progress.isComplete && r.inFlight.isEmpty

/-- Submit a task for the given arguments. If it is accepted it holds the permit. -/
def submit [Workload α] (r : Run σ α κ β) (args : α) (permit : Permit) : Run σ α κ β :=
  let no := r.nextTaskNo
  let r := { r with nextTaskNo := no + 1 }
  match r.executor.submit ⟨no, args, r.monitor.forTask no⟩ with
  | .error error => (r.fail error).release permit
  | .ok executor =>
    let inFlight := r.inFlight.insert no ⟨Workload.label args, permit⟩
    { r with executor, inFlight, peak := max r.peak inFlight.size }

/-- All tasks that there was room for are submitted. -/
def filled (r : Run σ α κ β) : Option (Completion κ β) → Run σ α κ β
  | none => { r with state := .draining, phase := .deciding }
  | some completion =>
    if r.isFinished then r.finish (some completion)
    else { r with phase := .replied (.ok (some completion)) }

/-- Submit one more task, if there is a permit for it and work left. -/
def fill [Workload α] (r : Run σ α κ β) (acknowledged : Option (Completion κ β)) :
    Run σ α κ β :=
  if r.state.acceptsTasks then
    -- the permit is taken before it is known whether there is work for it
    match r.semaphore.acquire with
    | none => r.filled acknowledged
    | some (permit, semaphore) =>
      let r := { r with semaphore }
      match r.pending with
      | [] => (r.release permit).filled acknowledged
      | args :: rest => { r with pending := rest }.submit args permit
  else r.filled acknowledged

/-- Take the outcome of a task, if it has been sent. -/
def takeOutcome (r : Run σ α κ β) (taskNo : Nat) : Option (Outcome κ β) × Run σ α κ β :=
  match r.buffered.get? taskNo with
  | some outcome => (some outcome, { r with buffered := r.buffered.erase taskNo })
  | none =>
    let (found, sent, aside) := takeSent taskNo r.commons.outcomes r.buffered
    (found, { r with buffered := aside, commons := { r.commons with outcomes := sent } })

/-- Why a task failed: what its outcome says, or else what its signal says. -/
def causeOf (outcome : Option (Outcome κ β)) (signal : Signal) : Cause :=
  match outcome.map Outcome.result with
  | some (.error cause) => cause
  | _ => .said (signal.errorMessage.getD "task reported failure")

/-- Acknowledge the signal of a task in flight. -/
def acknowledge (r : Run σ α κ β) (signal : Signal) : Run σ α κ β :=
  let taskNo := signal.taskNo
  match r.inFlight.get? taskNo with
  | none => r.fail (.anomaly r.runId (.notInFlight taskNo))
  | some slot =>
    -- from here on the task is not in flight, not even if the run fails because of it
    let r := { r with inFlight := r.inFlight.erase taskNo }
    if signal.failed then
      let (outcome, r) := r.takeOutcome taskNo
      (r.fail (.taskFailed taskNo slot.label (causeOf outcome signal))).release slot.permit
    else
      -- units are counted before the outcome is looked for
      match r.progress.advance signal.amount with
      | .error refused =>
        (r.fail (.anomaly r.runId (.tooManyUnits taskNo refused))).release slot.permit
      | .ok progress =>
        let (outcome, r) := { r with progress }.takeOutcome taskNo
        match outcome.map Outcome.result with
        | none => (r.fail (.anomaly r.runId (.withoutResult taskNo))).release slot.permit
        | some (.error cause) =>
          (r.fail (.taskFailed taskNo slot.label cause)).release slot.permit
        | some (.ok part) =>
          -- the permit is there again before the next task needs one
          { r.release slot.permit with
            phase := .filling (some ⟨taskNo, slot.label, signal.amount, progress, part⟩) }

/-- Take in what was received. -/
def receive (r : Run σ α κ β) (payload : Json) : Run σ α κ β :=
  match r.channel.examine payload with
  | (.refused error, channel) => { r with channel }.fail error
  -- waiting starts anew with every payload that is dropped
  | (.repeated, channel) => { r with channel, phase := .awaiting r.commons.clock }
  | (.passed signal, channel) => { r with channel }.acknowledge signal

/-- Ask for the next completion. A run that is over has none, and one that has crashed gives no
reply. -/
def ask (r : Run σ α κ β) : Run σ α κ β :=
  match r.phase, r.state with
  | .crashed _, _ => r
  | _, .done | _, .aborted => { r with phase := .replied (.ok none) }
  | _, .filling => { r with phase := .filling none }
  | _, .draining => { r with phase := .deciding }

variable [TransOrd κ] [Mergeable β] [Transport σ] [Workload α]

/-- Run a queued task on the control node, if that is where tasks are run, and go on. -/
def driveThen (r : Run σ α κ β) (next : Run σ α κ β → Phase κ β) : Run σ α κ β :=
  match r.executor.drive r.shop r.commons with
  | (some fault, executor, commons) => { r with executor, commons, phase := .crashed fault }
  | (none, executor, commons) =>
    let r := { r with executor, commons }
    { r with phase := next r }

/-- With all tasks submitted: wait for a signal, or end the run if none can come. -/
def waitOrEnd (r : Run σ α κ β) : Run σ α κ β :=
  if r.inFlight.isEmpty then
    if r.progress.isComplete then r.finish none
    else r.fail (.incomplete r.progress.computed r.progress.total)
  else r.driveThen fun r => .awaiting r.commons.clock

/-- Wait for the executor of a run that is done. -/
def join? (r : Run σ α κ β) (last : Option (Completion κ β)) : Option (Run σ α κ β) :=
  if r.executor.isFinished then
    some ({ r with phase := .replied (.ok last) }.note (.runCompleted r.runId))
  else
    match r.executor with
    | .sequential .. => some (r.driveThen fun _ => .joining last)
    | .pool _ => none

/-- The next step of the control node, if there is one and nothing keeps it waiting. -/
def control? (r : Run σ α κ β) : Option (Run σ α κ β) :=
  match r.phase with
  | .resting | .replied _ | .crashed _ => none
  | .filling acknowledged => some (r.fill acknowledged)
  | .deciding => some r.waitOrEnd
  | .awaiting _ =>
    match Transport.receive r.channel.queue r.commons.transport with
    | (.pending, _) => none
    | (.closed, transport) =>
      some ({ r with commons := { r.commons with transport } }.fail
        (.transport (.queueClosed r.channel.queue)))
    | (.payload payload, transport) =>
      some ({ r with commons := { r.commons with transport } }.receive payload)
  | .joining last => r.join? last

/-- The next step of a worker, if it has one. -/
def worker? (r : Run σ α κ β) (index : Nat) : Option (Run σ α κ β) :=
  (r.executor.step r.shop index r.commons).map fun (executor, commons) =>
    { r with executor, commons }

/-- The time for waiting is over, if a signal is awaited, none is there and there is such a
time. -/
def expire? (r : Run σ α κ β) : Option (Run σ α κ β) :=
  match r.phase, r.channel.timeout with
  | .awaiting _, some milliseconds =>
    match Transport.receive r.channel.queue r.commons.transport with
    -- a payload that came in time is received instead
    | (.pending, _) => some (r.fail (r.channel.timeoutError milliseconds))
    | _ => none
  | _, _ => none

end Run

/-- What can happen to a run. -/
inductive Move where
  | control
  | worker (index : Nat)
  | expire
  deriving DecidableEq, Repr

/-- A run after a move, if the move is possible. -/
def Run.move? {σ α κ β : Type} [Ord κ] [TransOrd κ] [Mergeable β] [Transport σ] [Workload α]
    (r : Run σ α κ β) : Move → Option (Run σ α κ β)
  | .control => r.control?
  | .worker index => r.worker? index
  | .expire => r.expire?

end BatchRun
