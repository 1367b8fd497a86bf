import BatchRun.Monitor
import BatchRun.Signal.Channel
import BatchRun.Tally.Shared
import BatchRun.Workload

/-!
# Tasks and their outcomes

A task is a piece of work with a number. The work function is called once for it, and its attempt
ends in one of three ways. What the control node gets to know of it is an outcome.

## Main definitions

* `Task`, `Verdict`, `Attempt`, `WorkFunction`
* `Outcome`: what is handed back to the control node
* `Commons`: what control node and workers share
-/

namespace BatchRun

open Std

/-- A numbered piece of work. -/
structure Task (α : Type) where
  no : Nat
  args : α
  monitor : Monitor

/-- How a call of the work function ends. -/
inductive Verdict (κ β : Type) [Ord κ] where
  /-- With a partial result. -/
  | finished (part : Tally κ β)
  /-- With an error. -/
  | failed (cause : Cause)
  /-- With a panic, that is a text or something else. -/
  | panicked (message : Option String)

/-- A call of the work function. -/
structure Attempt (κ β : Type) [Ord κ] where
  verdict : Verdict κ β
  /-- The scopes that it measured, by their paths, in the order in which they ended. -/
  scopes : List (String × Elapsed)
  /-- How long it took, in milliseconds. -/
  took : Nat

/-- The computation that is done for every task. -/
abbrev WorkFunction (α κ β : Type) [Ord κ] := Task α → Attempt κ β

/-- What the control node gets to know of a task. -/
structure Outcome (κ β : Type) [Ord κ] where
  taskNo : Nat
  units : Nat
  label : String
  /-- The partial result, none if a worker has merged it, or why the task failed. -/
  result : Except Cause (Option (Tally κ β))

/-- The partial result or why there is none; a panic is told as an error. -/
def Verdict.result {κ β : Type} [Ord κ] : Verdict κ β → Except Cause (Tally κ β)
  | .finished part => .ok part
  | .failed cause => .error cause
  | .panicked message =>
    -- a panic is an error like any other from here on
    .error (.said ("work function panicked: " ++ message.getD "non-string panic payload"))

/-- What control node and workers share. -/
structure Commons (σ κ β : Type) [Ord κ] where
  transport : σ
  /-- Outcomes that were sent and not yet taken, oldest first. -/
  outcomes : List (Outcome κ β)
  /-- Whether anyone is left to take outcomes. -/
  outcomesWanted : Bool
  /-- The tally that workers merge into, if they do. -/
  shared : Option (SharedTally κ β)
  timings : Timings
  /-- Milliseconds since the run began. -/
  clock : Nat

namespace Commons

variable {σ κ β : Type} [Ord κ]

/-- Nothing sent, nothing merged. -/
def start (transport : σ) (shares : Bool) (timings : Timings) : Commons σ κ β :=
  ⟨transport, [], true, if shares then some .new else none, timings, 0⟩

/-- Send an outcome; if nobody wants it, it is lost. -/
def send (c : Commons σ κ β) (outcome : Outcome κ β) : Commons σ κ β :=
  if c.outcomesWanted then { c with outcomes := c.outcomes ++ [outcome] } else c

/-- Publish a signal; if the transport refuses it, it is lost. -/
def publish [Transport σ] (c : Commons σ κ β) (notifier : Notifier) (signal : Signal) :
    Commons σ κ β :=
  match notifier.publish signal c.transport with
  | .ok transport => { c with transport }
  | .error _ => c

/-- The time of the clock. After the year 9999 it stands still, so that every time has a text with
a year of four digits. -/
def now (c : Commons σ κ β) : Instant :=
  .ofMilliseconds (min c.clock Instant.lastMillisecond)

/-- Let time pass up to a given one. -/
def passUntil (c : Commons σ κ β) (time : Nat) : Commons σ κ β :=
  { c with clock := max c.clock time }

end Commons

end BatchRun
