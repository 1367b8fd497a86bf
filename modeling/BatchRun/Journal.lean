import BatchRun.RunError

/-!
# The journal of a run

The events of a run that are worth a line in a log: what happened, to which run or calculation,
to which task, and how it stands now.
-/

namespace BatchRun

/-- An entry of the journal. -/
structure Event where
  operation : String
  /-- The run, or the calculation, that the entry is about. -/
  subject : String
  taskNo : Option Nat
  status : String
  details : Option String
  deriving DecidableEq, Repr

namespace Event

/-- A task waits for its run to start. -/
def taskQueued (run : RunId) (taskNo : Nat) : Event :=
  ⟨"task.submitted", run.text, some taskNo, "queued", none⟩

/-- A run starts. -/
def runStarted (run : RunId) : Event := ⟨"run.started", run.text, none, "started", none⟩

/-- A run is done. -/
def runCompleted (run : RunId) : Event := ⟨"run.completed", run.text, none, "done", none⟩

/-- A run is aborted by an error. -/
def runFailed (run : RunId) (error : RunError) : Event :=
  ⟨"run.failed", run.text, error.failedTaskNo, "aborted", some error.message⟩

/-- A phase of a calculation starts. -/
def phaseStarted (calculation phase : String) : Event :=
  ⟨"phase.started", calculation, none, phase, none⟩

/-- A phase of a calculation ended well. -/
def phaseCompleted (calculation phase : String) : Event :=
  ⟨"phase.completed", calculation, none, phase, none⟩

end Event

end BatchRun
