import BatchRun.Run.Task

/-!
# Tasks that follow a script

In a rehearsal every task does what its script says: how long it takes, what it measures, and
how it ends. Left to itself, a task returns counts of what it has done.

## Main definitions

* `Mishap`: how a work function goes wrong
* `ScriptedTask`, `ScriptedTask.perform`: a task with its script, and its work function
-/

namespace BatchRun

/-- How a work function goes wrong. -/
inductive Mishap where
  | fails (cause : Cause)
  /-- With a text or something else. -/
  | panics (message : Option String)

/-- The verdict of a work function that goes wrong. -/
def Mishap.verdict {κ β : Type} [Ord κ] : Mishap → Verdict κ β
  | fails cause => .failed cause
  | panics message => .panicked message

/-- The verdict of a work function that sums up its result; a fault on the way is a panic. -/
def Verdict.ofCollected {κ β : Type} [Ord κ] : Except Fault (Tally κ β) → Verdict κ β
  | .ok part => .finished part
  | .error fault => .panicked fault.message

/-- The numbers that scripted tasks count with. -/
abbrev Count := Unsigned 64

/-- A whole number as a count, zero if it is out of bounds. -/
def Count.ofInt (n : Int) : Count := (Ranged.ofInt? n).getD Mergeable.neutral

/-- A task that follows a script. -/
structure ScriptedTask where
  label : String
  units : Count
  /-- The task waits until it is let through. -/
  gated : Bool
  /-- How long it takes, in milliseconds. -/
  took : Nat
  /-- The scopes that it measures. -/
  scopes : List String
  mishap : Option Mishap
  /-- What it returns, in place of its counts. -/
  result : Option (List (String × Count))
  /-- Whether the counts tell the number of the task. -/
  tellsTaskNo : Bool

namespace ScriptedTask

/-- A task that only counts. -/
def plain (label : String) (units : Count) : ScriptedTask :=
  ⟨label, units, false, 0, [], none, none, false⟩

instance : Workload ScriptedTask where
  units t := t.units.val.toNat
  label := label

/-- The task with its units and its label taken from other arguments. -/
def withArgs {α : Type} [Workload α] (script : ScriptedTask) (args : α) : ScriptedTask :=
  { script with
    label := Workload.label args
    units := (Ranged.ofInt? (Workload.units args)).getD script.units }

private def one : Count := ⟨1, by decide, by decide⟩

/-- The counts of a task: itself, and its units in total and under its label. -/
def counts (t : ScriptedTask) (taskNo : Option Nat) : List (String × Count) :=
  [("tasks", one), ("units", t.units), (t.label, t.units)] ++
    if t.tellsTaskNo then [("monitor " ++ Text.optional toString taskNo, one)] else []

/-- A scope, and one nested into it. -/
def nested (m : Monitor) (scope : String) : List (String × Elapsed) :=
  [((m.child scope).path "inner", .zero), (m.path scope, .zero)]

/-- The work function of scripted tasks. -/
def perform : WorkFunction ScriptedTask String Count := fun task =>
  let t := task.args
  { verdict :=
      match t.mishap with
      | some mishap => mishap.verdict
      | none => .ofCollected (Tally.collect (t.result.getD (t.counts task.monitor.taskNo)))
    scopes := t.scopes.flatMap (nested task.monitor)
    took := t.took }

end ScriptedTask

end BatchRun
