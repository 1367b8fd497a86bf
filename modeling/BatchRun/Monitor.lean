import BatchRun.Fault
import BatchRun.SortedMap

/-!
# Monitors

A monitor measures named scopes. Monitors that are derived from one another, for a part of the
work or for a single task, share one table of timings, in which a scope is found under the name
of its monitor, a slash and its own name. Monitors and scopes that spell the same path share one
entry.

## Main definitions

* `Elapsed`: an elapsed time, to the nanosecond
* `Timings`: calls and total time per scope
* `Monitor`: the name under which scopes are recorded
-/

namespace BatchRun

/-- The nanoseconds of a second. -/
def nanosPerSecond : Nat := 1000000000

/-- An elapsed time: whole seconds of 64 bits and a fraction of nanoseconds. -/
structure Elapsed where
  nanos : Nat
  nanos_lt : nanos < UInt64.size * nanosPerSecond
  deriving DecidableEq

namespace Elapsed

/-- No time at all. -/
def zero : Elapsed := ⟨0, by decide⟩

instance : Inhabited Elapsed := ⟨zero⟩

/-- A time in nanoseconds, if it is in range. -/
def ofNanos? (n : Nat) : Option Elapsed :=
  if h : n < UInt64.size * nanosPerSecond then some ⟨n, h⟩ else none

/-- Seconds and nanoseconds; a second's worth of nanoseconds carries into the seconds. -/
def ofParts (seconds nanos : Nat) : Except Fault Elapsed :=
  match ofNanos? (seconds * nanosPerSecond + nanos) with
  | some e => .ok e
  | none => .error .elapsedCarry

/-- The sum of two times, unless it is out of range. -/
def add (a b : Elapsed) : Except Fault Elapsed :=
  match ofNanos? (a.nanos + b.nanos) with
  | some e => .ok e
  | none => .error .elapsedSum

/-- The time in milliseconds: the seconds and the fraction are rounded before they are added. -/
def milliseconds (e : Elapsed) : Float :=
  (Float.ofNat (e.nanos / nanosPerSecond) + Float.ofNat (e.nanos % nanosPerSecond) / 1e9) * 1000.0

end Elapsed

/-- The calls of a scope and their total time. Calls come one at a time, so that no word of 64 bits
runs out of them. -/
structure ScopeTotal where
  calls : Nat
  total : Elapsed
  deriving DecidableEq

/-- The scopes that were recorded, by their paths. -/
structure Timings where
  scopes : SortedMap String ScopeTotal

namespace Timings

/-- Nothing recorded. -/
def empty : Timings := ⟨.empty⟩

instance : Inhabited Timings := ⟨empty⟩

/-- What is recorded of a scope so far. -/
def soFar (t : Timings) (path : String) : ScopeTotal := (t.scopes.get? path).getD ⟨0, .zero⟩

/-- Record one call of a scope. The call is counted also when its time cannot be added, and then
the total stays and the fault is handed back. -/
def record (t : Timings) (path : String) (elapsed : Elapsed) : Timings × Option Fault :=
  let before := t.soFar path
  match before.total.add elapsed with
  | .ok total => (⟨t.scopes.insert path ⟨before.calls + 1, total⟩⟩, none)
  | .error fault => (⟨t.scopes.insert path ⟨before.calls + 1, before.total⟩⟩, some fault)

/-- Record calls of several scopes, one after the other. -/
def recordAll (t : Timings) (calls : List (String × Elapsed)) : Timings :=
  calls.foldl (fun t call => (t.record call.1 call.2).1) t

/-- The scopes in the order of their paths. -/
def report (t : Timings) : List (String × ScopeTotal) := t.scopes.entries

end Timings

/-- The name under which scopes are recorded, and the task they belong to. -/
structure Monitor where
  name : String
  taskNo : Option Nat
  deriving DecidableEq

namespace Monitor

/-- A monitor that belongs to no task. -/
def named (name : String) : Monitor := ⟨name, none⟩

/-- The monitor of a part of the work. -/
def child (m : Monitor) (part : String) : Monitor := { m with name := m.name ++ "/" ++ part }

/-- The monitor for a task. -/
def forTask (m : Monitor) (taskNo : Nat) : Monitor := { m with taskNo := some taskNo }

/-- The path of a scope. -/
def path (m : Monitor) (scope : String) : String := m.name ++ "/" ++ scope

end Monitor

end BatchRun
