import BatchRun.Json.Decoding
import BatchRun.Settings.Basic
import BatchRun.Text.Record

/-!
# Settings as JSON

Settings are written as objects and read back from them. When they are read, a field that is
missing keeps its usual value and unknown fields are ignored.

## Main definitions

* `Settings.decode`, `Settings.toJson`
* `Settings.describe`: the description of settings on one line
-/

namespace BatchRun

open Json

private def wordText : String := "usize"

private def countText : String := "u64"

private def numberText : String := "f64"

namespace Signaling

/-- The fields of the routing of signals. -/
def shape : RecordShape Signaling where
  name := "SignalingConfig"
  blank := .usual
  fields := [
    .of "exchange" false string fun v s => { s with exchange := v },
    .of "routing_key_prefix" false string fun v s => { s with routingWord := v },
    .of "signal_timeout_ms" false (optional (whole64 countText)) fun v s => { s with timeout := v }]

/-- The routing of signals as JSON. -/
def toJson (s : Signaling) : Json :=
  record [
    ("exchange", .text s.exchange),
    ("routing_key_prefix", .text s.routingWord),
    ("signal_timeout_ms", (s.timeout.map fun n => Json.int n).getD .null)]

/-- The routing of signals on one line. -/
def describe (s : Signaling) : String :=
  Text.record "SignalingConfig" [
    ("exchange", Text.quoted s.exchange),
    ("routing_key_prefix", Text.quoted s.routingWord),
    ("signal_timeout_ms", Text.optional toString s.timeout)]

end Signaling

namespace Settings

/-- The fields of settings; a limit that is not given is the usual one. -/
def shape (usualLimit : Nat) : RecordShape (Settings Float) where
  name := "DispatchConfig"
  blank := .usual usualLimit
  fields := [
    .of "concurrency_limit" false (whole64 wordText) fun v s => { s with limit := v },
    .of "concurrent_tasks" false (optional (whole64 wordText)) fun v s =>
      { s with concurrentTasks := v },
    .of "max_block_weight" false (optional (number numberText)) fun v s =>
      { s with maxBlockWeight := v },
    .of "weight_cap" false (optional (number numberText)) fun v s => { s with weightCap := v },
    .of "execution_mode" false (variant ExecutionMode.named) fun v s => { s with mode := v },
    .of "accumulation" false (variant Accumulation.named) fun v s => { s with accumulation := v },
    .of "signaling" false Signaling.shape.decode fun v s => { s with signaling := v }]

/-- Read settings. -/
def decode (usualLimit : Nat) : Decoder (Settings Float) := (shape usualLimit).decode

/-- A weight as JSON, which has no text for weights that are not finite. -/
def weightJson : Option Float → Json
  | none => .null
  | some w => if w.isFinite then .real w else .null

/-- Settings as JSON. -/
def toJson (s : Settings Float) : Json :=
  record [
    ("concurrency_limit", .int s.limit),
    ("concurrent_tasks", (s.concurrentTasks.map fun n => Json.int n).getD .null),
    ("max_block_weight", weightJson s.maxBlockWeight),
    ("weight_cap", weightJson s.weightCap),
    ("execution_mode", .text s.mode.name),
    ("accumulation", .text s.accumulation.name),
    ("signaling", s.signaling.toJson)]

private def describeMode : ExecutionMode → String
  | .auto => "Auto"
  | .sequential => "Sequential"
  | .threads => "Threads"

private def describeAccumulation : Accumulation → String
  | .controlNode => "ControlNode"
  | .inWorker => "InWorker"

/-- Settings on one line. -/
def describe (s : Settings Float) : String :=
  let weight := Text.optional (Number.float64Text .debug)
  Text.record "DispatchConfig" [
    ("concurrency_limit", toString s.limit),
    ("concurrent_tasks", Text.optional toString s.concurrentTasks),
    ("max_block_weight", weight s.maxBlockWeight),
    ("weight_cap", weight s.weightCap),
    ("execution_mode", describeMode s.mode),
    ("accumulation", describeAccumulation s.accumulation),
    ("signaling", s.signaling.describe)]

end Settings

end BatchRun
