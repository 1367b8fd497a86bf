import BatchRun.Run.Task

/-!
# Workers

A worker takes a task through its stations: the work function is called, the partial result is
merged into the shared tally if there is one, the outcome is sent, and only then is the signal
published, so that whoever receives the signal finds the outcome. Between two stations, and
between the merges of two keys, anything may happen elsewhere.

An error or a panic of the work function is an outcome like any other. A merge that faults is
none: the worker is lost, without outcome and without signal.

## Main definitions

* `Worker`: the stations
* `Worker.step`: from one station to the next
* `Worker.finish`: to the end of the task, with nothing happening elsewhere
-/

namespace BatchRun

open Std

/-- Where a worker stands with its task. -/
inductive Worker (α κ β : Type) [Ord κ] where
  | idle
  /-- The task is taken, and not yet begun. -/
  | holding (task : Task α)
  /-- The work function is at work, until the given time. -/
  | running (task : Task α) (ends : Nat)
  /-- The values of a partial result that are still to be merged. -/
  | merging (task : Task α) (rest : List (κ × β))
  | reporting (outcome : Outcome κ β)
  /-- The outcome is sent; what is left to say is the units or the error. -/
  | signalling (taskNo : Nat) (said : Except String Nat)
  /-- There are no more tasks to take. -/
  | gone
  /-- A merge faulted. -/
  | lost (fault : Fault)

/-- What a worker needs to know of its run. -/
structure Workshop (α κ β : Type) [Ord κ] where
  work : WorkFunction α κ β
  notifier : Notifier

namespace Worker

variable {σ α κ β : Type} [Ord κ]

/-- Whether the worker has a task in its hands that has begun. -/
def isBusy : Worker α κ β → Bool
  | running .. | merging .. | reporting .. | signalling .. => true
  | idle | holding _ | gone | lost _ => false

/-- A worker with a task that has begun is at one of these stations. -/
@[elab_as_elim]
theorem busyCases {motive : (w : Worker α κ β) → w.isBusy = true → Prop}
    (running : ∀ task ends, motive (.running task ends) rfl)
    (merged : ∀ task, motive (.merging task []) rfl)
    (merging : ∀ task k delta rest, motive (.merging task ((k, delta) :: rest)) rfl)
    (reporting : ∀ outcome, motive (.reporting outcome) rfl)
    (signalling : ∀ taskNo said, motive (.signalling taskNo said) rfl)
    (w : Worker α κ β) (hbusy : w.isBusy = true) : motive w hbusy := by
  cases w with
  | idle => cases hbusy
  | holding => cases hbusy
  | gone => cases hbusy
  | lost => cases hbusy
  | running task ends => exact running task ends
  | merging task rest =>
    cases rest with
    | nil => exact merged task
    | cons entry rest => exact merging task entry.1 entry.2 rest
  | reporting outcome => exact reporting outcome
  | signalling taskNo said => exact signalling taskNo said

/-- Begin a task. -/
def begin (shop : Workshop α κ β) (task : Task α) (commons : Commons σ κ β) : Worker α κ β :=
  .running task (commons.clock + (shop.work task).took)

/-- The outcome of a task. -/
def outcomeOf [Workload α] (task : Task α) (result : Except Cause (Option (Tally κ β))) :
    Outcome κ β :=
  ⟨task.no, Workload.units task.args, Workload.label task.args, result⟩

/-- What the signal of an outcome says. -/
def saidOf (outcome : Outcome κ β) : Except String Nat :=
  match outcome.result with
  | .ok _ => .ok outcome.units
  | .error cause => .error cause.line

/-- The signal that is published for a task. -/
def signalOf (shop : Workshop α κ β) (taskNo : Nat) (said : Except String Nat) (now : Instant) :
    Signal :=
  match said with
  | .ok units => .completed shop.notifier.runId taskNo units now
  | .error text => .failure shop.notifier.runId taskNo text now

/-- The scopes of an attempt, the whole of it last. -/
def scopesOf (task : Task α) (attempt : Attempt κ β) : List (String × Elapsed) :=
  attempt.scopes ++
    [(task.monitor.path "task", (Elapsed.ofNanos? (attempt.took * 1000000)).getD .zero)]

variable [TransOrd κ] [Mergeable β] [Transport σ] [Workload α]

/-- The end of the work function: what it measured is recorded, and its verdict decides where the
worker goes next. -/
def conclude (shop : Workshop α κ β) (task : Task α) (commons : Commons σ κ β) :
    Worker α κ β × Commons σ κ β :=
  let attempt := shop.work task
  let commons := { commons with timings := commons.timings.recordAll (scopesOf task attempt) }
  match attempt.verdict.result with
  | .error cause => (.reporting (outcomeOf task (.error cause)), commons)
  -- only without a shared tally does the partial result travel with the outcome
  | .ok part =>
    match commons.shared with
    | some _ => (.merging task part.entries, commons)
    | none => (.reporting (outcomeOf task (.ok (some part))), commons)

/-- Go from one station to the next. -/
def step (shop : Workshop α κ β) : Worker α κ β → Commons σ κ β → Worker α κ β × Commons σ κ β
  | .running task ends, commons => conclude shop task (commons.passUntil ends)
  -- with everything merged there is nothing left to hand over
  | .merging task [], commons => (.reporting (outcomeOf task (.ok none)), commons)
  | .merging task ((k, delta) :: rest), commons =>
    match commons.shared with
    | none => (.merging task rest, commons)
    | some shared =>
      match shared.mergeInto k delta with
      | (shared, none) => (.merging task rest, { commons with shared := some shared })
      -- what was merged up to the fault stays, and nobody will hear of the task
      | (shared, some fault) => (.lost fault, { commons with shared := some shared })
  | .reporting outcome, commons =>
    (.signalling outcome.taskNo (saidOf outcome), commons.send outcome)
  | .signalling taskNo said, commons =>
    (.idle, commons.publish shop.notifier (signalOf shop taskNo said commons.now))
  | worker, commons => (worker, commons)

/-- How many stations are ahead at most. -/
def ahead (shop : Workshop α κ β) : Worker α κ β → Nat
  | .running task _ =>
    match (shop.work task).verdict.result with
    | .ok part => part.entries.length + 4
    | .error _ => 4
  | .merging _ rest => rest.length + 3
  | .reporting _ => 2
  | .signalling .. => 1
  | _ => 0

/-- Every station takes a worker closer to the end of its task. -/
theorem ahead_step_lt (shop : Workshop α κ β) (w : Worker α κ β) (commons : Commons σ κ β)
    (h : w.isBusy = true) : (w.step shop commons).1.ahead shop < w.ahead shop := by
  cases w, h using busyCases with
  | running task ends =>
    simp only [step, conclude, ahead]
    cases (shop.work task).verdict.result with
    | ok part => cases (commons.passUntil ends).shared <;> simp
    | error cause => simp
  | merged task => simp [step, ahead]
  | merging task k delta rest =>
    simp only [step]
    split
    · simp [ahead]
    · split <;> simp [ahead]
  | reporting outcome => simp [step, ahead]
  | signalling taskNo said => simp [step, ahead]

/-- Take the task in hand to its end. -/
def finish (shop : Workshop α κ β) (w : Worker α κ β) (commons : Commons σ κ β) :
    Worker α κ β × Commons σ κ β :=
  if h : w.isBusy = true then
    have := ahead_step_lt shop w commons h
    (w.step shop commons).1.finish shop (w.step shop commons).2
  else (w, commons)
termination_by w.ahead shop

/-- Take a task from its beginning to its end. -/
def runTask (shop : Workshop α κ β) (task : Task α) (commons : Commons σ κ β) :
    Option Fault × Commons σ κ β :=
  match (begin shop task commons).finish shop commons with
  | (.lost fault, commons) => (some fault, commons)
  | (_, commons) => (none, commons)

end Worker

end BatchRun
