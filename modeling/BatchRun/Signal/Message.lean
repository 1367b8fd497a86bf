import BatchRun.Json.Decoding
import BatchRun.RunError
import BatchRun.Time.Reading

/-!
# Completion signals

A worker tells the control node with a signal that a task is done: how many units it computed,
or that it failed. Signals travel as JSON values. A signal without further data is written
without the field for it.

## Main definitions

* `Signal`, `Signal.completed`, `Signal.failure`
* `Signal.toJson`, `Signal.decode`
-/

namespace BatchRun

/-- The notice that a task is done. -/
structure Signal where
  runId : RunId
  /-- The number of the task; of signals with one number the first counts. -/
  taskNo : Nat
  /-- Units of work computed. -/
  amount : Nat
  failed : Bool
  sentAt : Instant
  /-- Further data under names. -/
  metadata : SortedMap String Json

namespace Signal

/-- The name under which a failure notice carries the text of its error. -/
def failureKey : String := "error"

/-- A task computed its units. -/
def completed (run : RunId) (taskNo amount : Nat) (sentAt : Instant) : Signal :=
  ⟨run, taskNo, amount, false, sentAt, .empty⟩

/-- The signal with further data under a name. -/
def withMetadata (s : Signal) (name : String) (value : Json) : Signal :=
  { s with metadata := s.metadata.insert name value }

/-- A task failed; no units are computed. -/
def failure (run : RunId) (taskNo : Nat) (error : String) (sentAt : Instant) : Signal :=
  { completed run taskNo 0 sentAt with failed := true }.withMetadata failureKey (.text error)

/-- The text of the error that a failure notice carries. -/
def errorMessage (s : Signal) : Option String := (s.metadata.get? failureKey).bind Json.text?

/-- Whether two signals are the same; their further data is compared as JSON. -/
def same (a b : Signal) : Bool :=
  a.runId == b.runId && a.taskNo == b.taskNo && a.amount == b.amount && a.failed == b.failed &&
    a.sentAt == b.sentAt && Json.sameFields a.metadata.entries b.metadata.entries

/-- A signal as JSON. -/
def toJson (s : Signal) : Json :=
  let fields := [
    ("run_id", Json.text s.runId.text),
    ("task_no", .int s.taskNo),
    ("amount", .int s.amount),
    ("failed", .bool s.failed),
    ("sent_at", .text s.sentAt.text)]
  .record (if s.metadata.isEmpty then fields
    else fields ++ [("metadata", .object s.metadata.entries)])

open Json

private def wholeText : String := "u64"

/-- An instant as JSON. -/
def instant : Decoder Instant
  | .text s =>
    match Instant.read s with
    | .ok t => .ok t
    | .error e => .error (.badText e.message)
  | found => .error (.wrongKind found "an RFC 3339 formatted date and time string")

/-- The fields of a signal. -/
def shape : RecordShape Signal where
  name := "CompletionSignal"
  blank := completed ⟨""⟩ 0 0 .epoch
  fields := [
    .of "run_id" true string fun v s => { s with runId := ⟨v⟩ },
    .of "task_no" true (whole64 wholeText) fun v s => { s with taskNo := v },
    .of "amount" true (whole64 wholeText) fun v s => { s with amount := v },
    .of "failed" false boolean fun v s => { s with failed := v },
    .of "sent_at" true instant fun v s => { s with sentAt := v },
    .of "metadata" false fields fun v s => { s with metadata := .ofList v }]

/-- Read a signal. -/
def decode (payload : Json) : Except RunError Signal :=
  match shape.decode payload with
  | .ok s => .ok s
  | .error e => .error (.malformedSignal e)

end Signal

end BatchRun
