import BatchRun.Partition.Splitter
import BatchRun.Text.Blank

/-!
# Settings of a run

What is decided before a run starts: how many tasks may be under way at once, how the weight of
blocks is bounded, who executes the tasks, who merges their results, and how signals travel.

## Main definitions

* `ExecutionMode`, `Accumulation`, `Signaling`, `Settings`
* `Settings.validate`: the conditions that settings meet before anything is submitted
* `Settings.blockWeight`: the greatest weight of a block
-/

namespace BatchRun

/-- Who executes the tasks. -/
inductive ExecutionMode where
  /-- The control node for a single task or a limit of one, worker threads otherwise. -/
  | auto
  /-- The control node, one task at a time. -/
  | sequential
  /-- Worker threads. -/
  | threads
  deriving DecidableEq, Repr

namespace ExecutionMode

/-- The modes by the names they are written with. -/
def named : List (String × ExecutionMode) :=
  [("auto", .auto), ("sequential", .sequential), ("threads", .threads)]

/-- The name of a mode. -/
def name : ExecutionMode → String
  | auto => "auto"
  | sequential => "sequential"
  | threads => "threads"

/-- The mode that is used under a concurrency limit for a number of tasks, if that is known. -/
def resolve (mode : ExecutionMode) (limit : Nat) (expectedTasks : Option Nat) : ExecutionMode :=
  match mode with
  | auto => if limit ≤ 1 || expectedTasks.any (· ≤ 1) then sequential else threads
  | mode => mode

end ExecutionMode

/-- Who merges partial results. -/
inductive Accumulation where
  /-- Results travel back and the control node merges them. -/
  | controlNode
  /-- Workers merge into a shared tally, and only their signals travel back. -/
  | inWorker
  deriving DecidableEq, Repr

namespace Accumulation

/-- The strategies by the names they are written with. -/
def named : List (String × Accumulation) :=
  [("control_node", .controlNode), ("in_worker", .inWorker)]

/-- The name of a strategy. -/
def name : Accumulation → String
  | controlNode => "control_node"
  | inWorker => "in_worker"

end Accumulation

/-- How completion signals travel. -/
structure Signaling where
  exchange : String
  /-- The word in front of the routing key of a run. -/
  routingWord : String
  /-- How long to wait for a signal, in milliseconds; unset waits for ever. -/
  timeout : Option Nat
  deriving DecidableEq, Repr

/-- Signals travel over the usual exchange and are waited for without end. -/
def Signaling.usual : Signaling := ⟨"dispatch_tasks", "run", none⟩

/-- The settings of a run, with weights of type `W`. -/
structure Settings (W : Type) where
  /-- How many tasks may be submitted and not yet acknowledged. -/
  limit : Nat
  /-- How many tasks the work is divided into when the weight of blocks is derived; unset takes
  the limit. -/
  concurrentTasks : Option Nat
  /-- The greatest weight of a block, in place of a derived one. -/
  maxBlockWeight : Option W
  /-- What a derived weight may not exceed. -/
  weightCap : Option W
  mode : ExecutionMode
  accumulation : Accumulation
  signaling : Signaling
  deriving BEq

namespace Settings

variable {W : Type}

/-- The usual settings under a given limit. -/
def usual (limit : Nat) : Settings W :=
  ⟨limit, none, none, none, .auto, .controlNode, .usual⟩

/-- The number of tasks that the work is divided into. -/
def effectiveTasks (s : Settings W) : Nat := s.concurrentTasks.getD s.limit

variable [Weight W]

/-- A weight that is set must be finite and above zero. -/
def checkWeight (field : String) : Option W → Except RunError Unit
  | none => .ok ()
  | some w =>
    if Weight.isPositive w && Weight.isFinite w then .ok ()
    else .error (.invalidSetting field (.notFinitePositive (Weight.text w)))

/-- The conditions on the routing of signals. -/
def checkSignaling (s : Signaling) : Except RunError Unit :=
  if s.exchange.isEmpty then .error (.invalidSetting "signaling.exchange" .empty)
  else if s.routingWord.isEmpty || s.routingWord.toList.any Text.isBlank then
    .error (.invalidSetting "signaling.routing_key_prefix" .notOneWord)
  else if s.timeout = some 0 then
    .error (.invalidSetting "signaling.signal_timeout_ms" .zeroWhenSet)
  else .ok ()

/-- The conditions that settings meet before anything is submitted. The first that fails is
reported. -/
def validate (s : Settings W) : Except RunError Unit := do
  if s.limit = 0 then throw (.invalidSetting "concurrency_limit" .zero)
  if s.concurrentTasks = some 0 then throw (.invalidSetting "concurrent_tasks" .zeroWhenSet)
  checkWeight "max_block_weight" s.maxBlockWeight
  checkWeight "weight_cap" s.weightCap
  checkSignaling s.signaling

/-- The greatest weight of a block for items of a given total weight. -/
def blockWeight (s : Settings W) (total : W) : Except RunError W := do
  s.validate
  match s.maxBlockWeight with
  | some w => pure w
  | none => BatchRun.maxBlockWeight total s.effectiveTasks s.weightCap

end Settings

end BatchRun
