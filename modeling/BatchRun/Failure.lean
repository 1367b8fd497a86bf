import BatchRun.Fault
import BatchRun.RunError

/-!
# Failures

What becomes of an operation that gives nothing: an error is handed to its caller, a fault ends
whatever was under way.
-/

namespace BatchRun

/-- Why an operation gives nothing. -/
inductive Failure where
  | refused (error : RunError)
  | faulted (fault : Fault)

end BatchRun
