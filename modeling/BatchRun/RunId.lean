import BatchRun.Text.Quoted

/-!
# Run identifiers

Every run has an identifier. Its completion signals are routed under a key built from a
configured word and the identifier, and kept in a queue that is named after both.
-/

namespace BatchRun

/-- The identifier of a run. -/
structure RunId where
  text : String
  deriving DecidableEq, Repr

namespace RunId

/-- The routing key of the completion signals of a run. -/
def routingKey (run : RunId) (word : String) : String := word ++ "." ++ run.text ++ ".tasks"

/-- The name of the queue that holds the completion signals of a run. -/
def queueName (run : RunId) (word : String) : String := "tasks." ++ word ++ "." ++ run.text

/-- The identifier in descriptions. -/
def describe (run : RunId) : String := "RunId(" ++ Text.quoted run.text ++ ")"

end RunId

end BatchRun
