import BatchRun.Run.Control

/-!
# Playing a run

Of the orders in which the moves of a run can come, this is one: the control node goes first
whenever it can, workers take tasks as soon as there are any, work functions end in the order of
the times that they take, and waiting ends once nothing else can happen in time. What is said
about runs in general holds for every order; this one makes a run a function of its start.

A run can be played for ever only if its transport never falls silent. The number of moves is
therefore bounded, and a run that has not replied within its bound counts as stalled, just as one
in which no move is possible.

## Main definitions

* `Run.play`, `Run.next`: moves until the control node replies
* `Run.completions`, `Run.toEnd`: all completions one by one, or merged
* `Summary`
-/

namespace BatchRun

open Std

/-- What is kept of a run beside its result. -/
structure Summary where
  runId : RunId
  state : RunState
  mode : ExecutionMode
  limit : Nat
  tasksSubmitted : Nat
  unitsComputed : Nat
  unitsTotal : Nat
  peakInFlight : Nat
  duplicatesDiscarded : Nat
  timings : List (String × ScopeTotal)

/-- How a run that was played to its end turned out. -/
inductive Ending (κ β : Type) [Ord κ] where
  | finished (result : Tally κ β) (summary : Summary)
  | failed (error : RunError)
  /-- Something ended the run suddenly. -/
  | crashed (fault : Fault)
  /-- Nothing can happen any more, or not in time. -/
  | stalled

namespace Pool

variable {α κ β : Type} [Ord κ]

/-- The first worker that can do a step which takes no time, if there is one: it has a task in
hand, or can take one, or can go. -/
def ready (p : Pool α κ β) : Option Nat :=
  -- what was taken begins before anyone goes on with what has begun
  (p.workers.findIdx? fun w => match w with
      | .holding _ => true
      | .idle => !p.queue.isEmpty || !p.accepting
      | _ => false).orElse fun _ =>
    p.workers.findIdx? fun w => match w with
      | .merging .. | .reporting _ | .signalling .. => true
      | _ => false

/-- The workers whose work functions are at work and not held up, with the times at which they
end. -/
def running (held : α → Bool) (p : Pool α κ β) : List (Nat × Nat) :=
  p.workers.zipIdx.filterMap fun (w, index) => match w with
    | .running task ends => if held task.args then none else some (ends, index)
    | _ => none

/-- The worker whose work function ends first, with the time at which it ends. -/
def earliest (held : α → Bool) (p : Pool α κ β) : Option (Nat × Nat) :=
  (p.running held).foldl
    (fun best next => match best with
      | none => some next
      | some best => if next.1 < best.1 then some next else some best)
    none

end Pool

namespace Executor

variable {α κ β : Type} [Ord κ]

/-- The next step of a worker, if there is one, and the time that it needs. -/
def nextStep (held : α → Bool) : Executor α κ β → Option (Option Nat × Nat)
  | .sequential .. => none
  | .pool p =>
    match p.ready with
    | some index => some (none, index)
    | none => (p.earliest held).map fun (time, index) => (some time, index)

/-- Let the workers of a pool do what they can, for a number of steps at most. -/
def windDown {σ : Type} [TransOrd κ] [Mergeable β] [Transport σ] [Workload α]
    (shop : Workshop α κ β) (held : α → Bool) :
    Nat → Executor α κ β → Commons σ κ β → Executor α κ β × Commons σ κ β
  | 0, e, commons => (e, commons)
  | patience + 1, e, commons =>
    match e.nextStep held with
    | none => (e, commons)
    | some (_, index) =>
      match e.step shop index commons with
      | none => (e, commons)
      | some (e, commons) => windDown shop held patience e commons

end Executor

namespace Run

variable {σ α κ β : Type} [Ord κ]

/-- The time at which waiting ends, if a signal is awaited and it does. -/
def deadline (r : Run σ α κ β) : Option Nat :=
  match r.phase, r.channel.timeout with
  | .awaiting since, some milliseconds => some (since + milliseconds)
  | _, _ => none

variable [TransOrd κ] [Mergeable β] [Transport σ] [Workload α]

/-- The next move: the control node first, then workers, and the end of waiting only when no
worker gets there before it. -/
def nextMove (held : α → Bool) (r : Run σ α κ β) : Option (Run σ α κ β) :=
  r.control?.orElse fun _ =>
    match r.executor.nextStep held, r.deadline with
    | some (none, index), _ => r.worker? index
    -- a work function that ends just when waiting does is still in time
    | some (some time, index), some deadline =>
      if deadline < time then r.expire? else r.worker? index
    | some (some _, index), none => r.worker? index
    | none, _ => r.expire?

/-- Whether the control node has nothing more to do until it is asked again. -/
def isSettled (r : Run σ α κ β) : Bool :=
  match r.phase with
  | .resting | .replied _ | .crashed _ => true
  | _ => false

/-- Play a run until the control node replies, for a number of moves at most. -/
def play (held : α → Bool) : Nat → Run σ α κ β → Run σ α κ β
  | 0, r => r
  | patience + 1, r =>
    if r.isSettled then r
    else
      match r.nextMove held with
      | none => r
      | some r => r.play held patience

/-- Ask for the next completion and play until there is a reply. -/
def next (patience : Nat) (r : Run σ α κ β) : Run σ α κ β := r.ask.play (fun _ => false) patience

/-- Play what workers have still to do, for a number of moves at most. -/
def windDown (patience : Nat) (r : Run σ α κ β) : Run σ α κ β :=
  let (executor, commons) :=
    Executor.windDown r.shop (fun _ => false) patience r.executor r.commons
  { r with executor, commons }

/-- The summary of a run as it stands. -/
def summary (r : Run σ α κ β) : Summary :=
  ⟨r.runId, r.state, r.mode, r.limit, r.nextTaskNo, r.progress.computed, r.progress.total,
    r.peak, r.channel.discarded, r.commons.timings.report⟩

/-- The caller lets go of the run, and the channel is closed. -/
def leave (r : Run σ α κ β) : Run σ α κ β :=
  { r with
    executor := match r.executor with
      | .sequential .. => .sequential [] true
      | .pool p => .pool p.abort
    commons := { r.commons with
      transport := Transport.release r.channel.queue r.commons.transport
      outcomesWanted := false } }

/-- The caller lets go of the run, and its workers come to their ends, within a number of moves. -/
def close (patience : Nat) (r : Run σ α κ β) : Run σ α κ β := r.leave.windDown patience

/-- The run on one line. -/
def describe (r : Run σ α κ β) : String :=
  Text.record "CompletionTracker" [
    ("run_id", r.runId.describe),
    ("state", r.state.describe),
    ("progress", r.progress.describe),
    ("in_flight", toString r.inFlight.size)]

/-- All completions up to the last one or the first error, for a number of questions at most. -/
def completions (patience : Nat) :
    Nat → Run σ α κ β → List (Except RunError (Completion κ β)) × Run σ α κ β
  | 0, r => ([], r)
  | questions + 1, r =>
    let r := r.next patience
    match r.phase with
    | .replied (.ok (some completion)) =>
      let (rest, r) := r.completions patience questions
      (.ok completion :: rest, r)
    | .replied (.error error) => ([.error error], r)
    | _ => ([], r)

/-- The result of a run that is over: what was merged on the control node, and what workers
merged. -/
def conclude (result : Tally κ β) (r : Run σ α κ β) : Ending κ β :=
  match r.accumulator with
  | none => .finished result r.summary
  | some shared =>
    match shared.tally.snapshot with
    | .error fault => .crashed fault
    | .ok merged =>
      match result.mergeTally merged with
      | .error fault => .crashed fault
      | .ok result => .finished result r.summary

/-- Play a run to its end and merge the partial results into a tally, for a number of questions
at most. -/
def toEnd (patience : Nat) : Nat → Tally κ β → Run σ α κ β → Ending κ β × Run σ α κ β
  | 0, _, r => (.stalled, r)
  | questions + 1, result, r =>
    let r := r.next patience
    match r.phase with
    | .replied (.ok (some completion)) =>
      -- a partial result that a worker has merged is not merged again
      match completion.part with
      | none => r.toEnd patience questions result
      | some part =>
        match result.mergeTally part with
        | .ok result => r.toEnd patience questions result
        | .error fault => (.crashed fault, r)
    | .replied (.ok none) => (r.conclude result, r)
    | .replied (.error error) => (.failed error, r)
    | .crashed fault => (.crashed fault, r)
    | _ => (.stalled, r)

/-- Enough questions for all completions of a run. -/
def questions (r : Run σ α κ β) : Nat := r.pending.length + r.inFlight.size + 2

end Run

end BatchRun
