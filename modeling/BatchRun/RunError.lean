import BatchRun.Json.Decoding
import BatchRun.Progress
import BatchRun.RunId

/-!
# Errors of a run

Everything that can go wrong before, during and around a run, by its cause. An error ends the
run; nothing is tried again.

## Main definitions

* `Cause`: why a work function failed, from the outermost message to the root
* `RunError`: the errors, and `RunError.message` for their wording
-/

namespace BatchRun

/-- Why a work function failed: what was said last, and what was said before it. -/
structure Cause where
  outermost : String
  inner : List String
  deriving DecidableEq, Repr

namespace Cause

/-- A cause of one message. -/
def said (message : String) : Cause := ⟨message, []⟩

/-- The messages, outermost first. -/
def chain (c : Cause) : List String := c.outermost :: c.inner

/-- All messages in one line, outermost first. -/
def line (c : Cause) : String := ": ".intercalate c.chain

/-- The cause with the given messages, outermost first; without any it is one empty message. -/
def ofChain : List String → Cause
  | [] => said ""
  | outermost :: inner => ⟨outermost, inner⟩

end Cause

/-- What is wrong with a setting or an argument. -/
inductive SettingProblem where
  | zero
  | zeroWhenSet
  | notFinitePositive (given : String)
  | notPositive (given : String)
  | notFiniteNonnegative (given : String)
  | badItemWeight (given : String)
  | empty
  | notOneWord
  | noWorkers
  | stated (reason : String)
  deriving DecidableEq, Repr

/-- The wording of a problem with a setting. -/
def SettingProblem.message : SettingProblem → String
  | zero => "must be greater than 0"
  | zeroWhenSet => "must be greater than 0 when set"
  | notFinitePositive given => "must be a finite positive number, got " ++ given
  | notPositive given => "must be a positive number, got " ++ given
  | notFiniteNonnegative given => "must be a finite non-negative number, got " ++ given
  | badItemWeight given =>
    "work item weight must be a finite non-negative number, got " ++ given
  | empty => "cannot be empty"
  | notOneWord => "must be a non-empty word without whitespace"
  | noWorkers => "thread pool needs at least one worker"
  | stated reason => reason

/-- How the signals of a run broke what a run may expect of them. -/
inductive Anomaly where
  | foreignRun (run : RunId)
  | notInFlight (taskNo : Nat)
  | tooManyUnits (taskNo : Nat) (refused : ProgressOverflow)
  | withoutResult (taskNo : Nat)
  | stated (reason : String)
  deriving DecidableEq, Repr

/-- The wording of an anomaly. -/
def Anomaly.message : Anomaly → String
  | foreignRun run => "received signal for foreign run " ++ run.text
  | notInFlight taskNo =>
    "signal for task " ++ toString taskNo ++ " which is not in flight"
  | tooManyUnits taskNo refused => "task " ++ toString taskNo ++ " " ++ refused.message
  | withoutResult taskNo =>
    "completion signal for task " ++ toString taskNo ++ " arrived without its result"
  | stated reason => reason

/-- What the transport of signals or the executor refused. -/
inductive TransportProblem where
  | queueTaken (queue : String)
  | queueClosed (queue : String)
  | poolClosed
  | poolFull (taskNo : Nat)
  | workersGone (taskNo : Nat)
  | stated (operation message : String)
  deriving DecidableEq, Repr

namespace TransportProblem

/-- The operation that was refused. -/
def operation : TransportProblem → String
  | queueTaken _ => "declare_queue"
  | queueClosed _ => "recv"
  | poolClosed | poolFull _ | workersGone _ => "submit"
  | stated operation _ => operation

/-- Why it was refused. -/
def reason : TransportProblem → String
  | queueTaken queue => "queue " ++ queue ++ " already has a consumer"
  | queueClosed queue => "completion queue " ++ queue ++ " closed"
  | poolClosed => "thread pool is shut down"
  | poolFull taskNo => "worker queue full at task " ++ toString taskNo
  | workersGone taskNo => "worker threads gone at task " ++ toString taskNo
  | stated _ message => message

end TransportProblem

/-- Why settings could not be loaded. -/
inductive LoadProblem where
  /-- There is no file at the path. -/
  | fileMissing (path : String)
  /-- The kind of file is not known. -/
  | unknownFormat (path : String)
  /-- A file does not follow its format. -/
  | malformed (path : String)
  /-- A value does not fit its setting. -/
  | misfit
  | stated (reason : String)
  deriving DecidableEq, Repr

/-- The wording of a load problem. -/
def LoadProblem.message : LoadProblem → String
  | fileMissing path => "configuration file not found: " ++ path
  | unknownFormat path => "unknown format of configuration file: " ++ path
  | malformed path => "malformed configuration file: " ++ path
  | misfit => "a value does not fit its setting"
  | stated reason => reason

/-- An error that ends a run, or keeps it from starting. -/
inductive RunError where
  /-- A setting was refused before anything was submitted. -/
  | invalidSetting (field : String) (problem : SettingProblem)
  /-- A work function returned an error or panicked. -/
  | taskFailed (taskNo : Nat) (label : String) (cause : Cause)
  /-- A signal that no honest delivery explains. -/
  | anomaly (run : RunId) (kind : Anomaly)
  /-- All tasks were acknowledged and units are missing. -/
  | incomplete (computed total : Nat)
  | signalTimeout (run : RunId) (milliseconds : Nat)
  | transport (problem : TransportProblem)
  | malformedSignal (reason : Json.DecodeError)
  | settingsUnreadable (problem : LoadProblem)
  /-- A phase of a calculation failed. -/
  | phaseFailed (phase message : String)

namespace RunError

/-- The wording of an error. Of the cause of a failed task it shows the outermost message. -/
def message : RunError → String
  | invalidSetting field problem =>
    "Invalid configuration: " ++ field ++ ": " ++ problem.message
  | taskFailed taskNo label cause =>
    "Task " ++ toString taskNo ++ " failed (" ++ label ++ "): " ++ cause.outermost
  | anomaly run kind => "Signal delivery anomaly in run " ++ run.text ++ ": " ++ kind.message
  | incomplete computed total =>
    "Run finished with " ++ toString computed ++ " of " ++ toString total ++ " units computed"
  | signalTimeout run milliseconds =>
    "No completion signal received for run " ++ run.text ++ " within " ++
      toString milliseconds ++ "ms"
  | transport problem =>
    "Signal transport error: " ++ problem.operation ++ ": " ++ problem.reason
  | malformedSignal reason => "Signal serialization error: " ++ reason.message
  | settingsUnreadable problem => "Configuration loading failed: " ++ problem.message
  | phaseFailed phase message => "Calculation phase " ++ phase ++ " failed: " ++ message

/-- Whether a work function raised the error. -/
def isTaskFailure : RunError → Bool
  | taskFailed .. => true
  | _ => false

/-- The number of the task that failed. -/
def failedTaskNo : RunError → Option Nat
  | taskFailed taskNo .. => some taskNo
  | _ => none

end RunError

end BatchRun
