import BatchRun.Rehearsal.Interview
import BatchRun.Rehearsal.ScriptedCalculation
import BatchRun.Tally.Codec

/-!
# Reports of rehearsals as JSON

What a rehearsal shows of counters, signals, runs and calculations. Errors are not shown here:
what they are called is up to whoever shows the report.
-/

namespace BatchRun

open Json

/-- The counters with what follows from them. -/
def Progress.toJson (p : Progress) : Json :=
  .record [
    ("computed", ofNat p.computed), ("total", ofNat p.total), ("remaining", ofNat p.remaining),
    ("complete", .bool p.isComplete), ("percent", ofFloat p.percent)]

/-- A state with what follows from it. -/
def RunState.toJson (s : RunState) : Json :=
  .record [
    ("display", .text s.name), ("debug", .text s.describe), ("json", .text s.name),
    ("terminal", .bool s.isTerminal), ("accepts", .bool s.acceptsTasks)]

/-- A journal entry as a list. -/
def Event.toJson (e : Event) : Json :=
  .list [.text e.operation, .text e.subject, orNull ofNat e.taskNo, .text e.status,
    orNull .text e.details]

/-- What is shown of a signal, which is all but the time. -/
def Signal.shownFields (s : Signal) : List (String × Json) := [
  ("run_id", .text s.runId.text), ("task_no", ofNat s.taskNo), ("amount", ofNat s.amount),
  ("failed", .bool s.failed), ("metadata", .object s.metadata.entries),
  ("error_message", orNull .text s.errorMessage)]

/-- What is shown of a signal. -/
def Signal.shown (s : Signal) : Json := .record s.shownFields

/-- Settings without their nesting. The limit may be masked. -/
def Settings.shown (s : Settings Float) (masked : Bool) : Json :=
  let limit (n : Nat) : Json := if masked then .text "default" else ofNat n
  .record [
    ("concurrency_limit", limit s.limit),
    ("concurrent_tasks", orNull ofNat s.concurrentTasks),
    ("max_block_weight", orNull ofFloat s.maxBlockWeight),
    ("weight_cap", orNull ofFloat s.weightCap),
    ("execution_mode", .text s.mode.name),
    ("accumulation", .text s.accumulation.name),
    ("exchange", .text s.signaling.exchange),
    ("routing_key_prefix", .text s.signaling.routingWord),
    ("signal_timeout_ms", orNull ofNat s.signaling.timeout),
    ("effective_concurrent_tasks",
      if s.concurrentTasks.isSome then ofNat s.effectiveTasks else limit s.effectiveTasks)]

/-- How often scopes were measured. -/
def callsJson (scopes : List (String × ScopeTotal)) : Json :=
  .list (scopes.map fun (scope, total) => .list [.text scope, ofNat total.calls])

/-- A summary. -/
def Summary.toJson (s : Summary) : Json :=
  .record [
    ("run_id", .text s.runId.text), ("state", .text s.state.name),
    ("execution_mode", .text s.mode.name), ("concurrency_limit", ofNat s.limit),
    ("tasks_submitted", ofNat s.tasksSubmitted), ("units_computed", ofNat s.unitsComputed),
    ("units_total", ofNat s.unitsTotal), ("peak_in_flight", ofNat s.peakInFlight),
    ("duplicates_discarded", ofNat s.duplicatesDiscarded), ("timings", callsJson s.timings)]

/-- A completion. Where tasks are done in no certain order, the counters are left out. -/
def Completion.toJson (unordered : Bool) (c : Completion String Count) : Json :=
  .record ([
    ("task_no", ofNat c.taskNo), ("label", .text c.label), ("amount", ofNat c.amount),
    ("partial", orNull Tally.toJson c.part)] ++
    if unordered then [] else [("progress", c.progress.toJson)])

/-- An outcome. -/
def Outcome.toJson (o : Outcome String Count) : Json :=
  let result :=
    match o.result with
    | .ok part => Json.record [("ok", orNull Tally.toJson part)]
    | .error cause => .record [("error", .list (cause.chain.map .text))]
  .record [
    ("task_no", ofNat o.taskNo), ("units", ofNat o.units), ("label", .text o.label),
    ("result", result)]

/-- A run as it stands, before it has replied or after; the tally that workers merge into is
given. -/
def Run.look (r : ScriptedRun) (unordered describes : Bool) (queued : Nat) (shared : Json) :
    Json :=
  .record ([
    ("state", .text r.state.name), ("in_flight", ofNat r.inFlight.size),
    ("pulled", ofNat (r.nextTaskNo - queued))] ++
    (if unordered then [] else [("progress", r.progress.toJson), ("shared", shared)]) ++
    if describes then [("debug", .text r.describe), ("run_id", .text r.runId.text)] else [])

/-- The report of a calculation. -/
def CalculationReport.toJson (r : CalculationReport) : Json :=
  .record [
    ("name", .text r.name), ("run", r.run.toJson),
    ("exported", .list (r.exported.map .text)), ("timings", callsJson r.timings)]

end BatchRun
