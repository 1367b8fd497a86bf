import BatchRun.Failure
import BatchRun.Run.Worker

/-!
# Executors

An executor accepts tasks and sees to it that they are run. The sequential executor runs them one
by one whenever the control node gives it a chance. A pool of worker threads takes them from a
bounded queue.

## Main definitions

* `Pool`: a queue and its workers, and `Pool.step` for a worker of it
* `Executor`: either kind
-/

namespace BatchRun

open Std

/-- Worker threads and the queue that they take tasks from. -/
structure Pool (α κ β : Type) [Ord κ] where
  /-- Tasks that are accepted and not yet taken, oldest first. -/
  queue : List (Task α)
  /-- How many tasks the queue holds, which is the number of workers at the start. -/
  capacity : Nat
  /-- Whether tasks are still accepted. -/
  accepting : Bool
  /-- Whether tasks that are taken from now on are skipped. -/
  cancelled : Bool
  workers : List (Worker α κ β)

namespace Pool

variable {σ α κ β : Type} [Ord κ]

/-- The bytes of a place in the queue. -/
def placeBytes : Nat := 128

/-- Places of a queue are numbered in a lap of a power of two above them, and two laps have to be
told apart. -/
def mostPlaces : Nat := UInt64.size / 4 - 1

/-- A pool of idle workers; there must be at least one, and a place in the queue for each. -/
def new (workers : Nat) : Except Failure (Pool α κ β) :=
  if workers = 0 then .error (.refused (.invalidSetting "concurrency_limit" .noWorkers))
  else if mostPlaces < workers then .error (.faulted .places)
  else if addressableBytes < workers * placeBytes then .error (.faulted .size)
  else .ok ⟨[], workers, true, false, List.replicate workers .idle⟩

/-- Whether no worker will ever take a task again. -/
def isDeserted (p : Pool α κ β) : Bool :=
  p.workers.all fun w => match w with
    | .gone | .lost _ => true
    | _ => false

/-- Accept a task. The queue may not be full, and someone must be there to take from it. -/
def submit (p : Pool α κ β) (task : Task α) : Except TransportProblem (Pool α κ β) :=
  if !p.accepting then .error .poolClosed
  else if p.isDeserted then .error (.workersGone task.no)
  else if p.capacity ≤ p.queue.length then .error (.poolFull task.no)
  else .ok { p with queue := p.queue ++ [task] }

/-- Accept no more tasks. What is queued will still be run. -/
def close (p : Pool α κ β) : Pool α κ β := { p with accepting := false }

/-- Accept no more tasks and skip those that are queued. Running tasks are left alone. -/
def abort (p : Pool α κ β) : Pool α κ β := { p with accepting := false, cancelled := true }

/-- The tasks that are accepted and not yet taken, as far as a submitter can tell. -/
def queued (p : Pool α κ β) : Nat := if p.accepting then p.queue.length else 0

/-- The pool with a worker at another station. What is queued when the last worker is lost is
lost as well. -/
def setWorker (p : Pool α κ β) (index : Nat) (w : Worker α κ β) : Pool α κ β :=
  let p := { p with workers := p.workers.set index w }
  if p.isDeserted then { p with queue := [] } else p

variable [TransOrd κ] [Mergeable β] [Transport σ] [Workload α]

/-- Let a worker do its next step. An idle one takes the next task, or goes when there will be
none; it looks whether tasks are skipped before it begins what it has taken. -/
def step (shop : Workshop α κ β) (index : Nat) (p : Pool α κ β) (commons : Commons σ κ β) :
    Option (Pool α κ β × Commons σ κ β) :=
  match p.workers[index]? with
  | none | some .gone | some (.lost _) => none
  | some .idle =>
    match p.queue with
    | task :: rest => some ({ p with queue := rest }.setWorker index (.holding task), commons)
    | [] => if p.accepting then none else some (p.setWorker index .gone, commons)
  | some (.holding task) =>
    -- only here does it matter that tasks are skipped: what has begun is run to its end
    some (p.setWorker index (if p.cancelled then .idle else .begin shop task commons), commons)
  | some worker =>
    let (worker, commons) := worker.step shop commons
    some (p.setWorker index worker, commons)

end Pool

/-- An executor of tasks. -/
inductive Executor (α κ β : Type) [Ord κ] where
  /-- Queued tasks, oldest first, and whether tasks are dropped instead. -/
  | sequential (queue : List (Task α)) (closed : Bool)
  | pool (pool : Pool α κ β)

namespace Executor

variable {σ α κ β : Type} [Ord κ]

/-- The executor of a mode under a concurrency limit. -/
def ofMode (mode : ExecutionMode) (limit : Nat) : Except Failure (Executor α κ β) :=
  match mode with
  | .threads => (Pool.new limit).map .pool
  | .sequential | .auto => .ok (.sequential [] false)

/-- The name of the kind of executor. -/
def name : Executor α κ β → String
  | sequential .. => "sequential"
  | pool _ => "threads"

/-- Accept a task. A sequential executor that is closed drops it. -/
def submit (task : Task α) : Executor α κ β → Except RunError (Executor α κ β)
  | sequential queue closed =>
    .ok (if closed then sequential queue closed else sequential (queue ++ [task]) closed)
  | pool p =>
    match p.submit task with
    | .ok p => .ok (pool p)
    | .error problem => .error (.transport problem)

/-- The tasks that are accepted and not yet begun. -/
def queued : Executor α κ β → Nat
  | sequential queue _ => queue.length
  | pool p => p.queued

/-- Drop queued tasks and accept no more. -/
def abort : Executor α κ β → Executor α κ β
  | sequential .. => sequential [] true
  | pool p => pool p.abort

/-- Accept no more tasks; what is queued is still run. -/
def close : Executor α κ β → Executor α κ β
  | sequential queue _ => sequential queue true
  | pool p => pool p.close

/-- Whether a closed executor has nothing more to do. -/
def isFinished : Executor α κ β → Bool
  | sequential queue _ => queue.isEmpty
  | pool p => p.isDeserted

variable [TransOrd κ] [Mergeable β] [Transport σ] [Workload α]

/-- Give queued tasks a chance to run on the control node. A pool needs none. -/
def drive (shop : Workshop α κ β) (e : Executor α κ β) (commons : Commons σ κ β) :
    Option Fault × Executor α κ β × Commons σ κ β :=
  match e with
  -- one task at a time, the oldest first
  | sequential (task :: rest) closed =>
    let (fault, commons) := Worker.runTask shop task commons
    (fault, sequential rest closed, commons)
  | e => (none, e, commons)

/-- Let a worker of a pool do its next step. -/
def step (shop : Workshop α κ β) (index : Nat) (e : Executor α κ β) (commons : Commons σ κ β) :
    Option (Executor α κ β × Commons σ κ β) :=
  match e with
  | sequential .. => none
  | pool p => (p.step shop index commons).map fun (p, commons) => (pool p, commons)

end Executor

end BatchRun
