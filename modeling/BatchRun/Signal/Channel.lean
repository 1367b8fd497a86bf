import BatchRun.Settings.Basic
import BatchRun.Signal.Message
import BatchRun.Signal.Transport
import BatchRun.Text.Record

/-!
# Completion channels

The control node receives the signals of its run through a channel. Transports may deliver a
signal more than once; the channel lets the first signal of each task pass and drops the others.
Payloads that are no signals, and signals of other runs, are errors and leave no trace.

## Main definitions

* `Channel`, `Channel.open`: the receiving end of the signals of a run
* `Channel.examine`: what becomes of a payload
* `Notifier`: the sending end, held by workers
-/

namespace BatchRun

/-- The sending end of the signals of a run. -/
structure Notifier where
  runId : RunId
  routingKey : String

/-- Publish a signal. -/
def Notifier.publish {σ : Type} [Transport σ] (n : Notifier) (s : Signal) (transport : σ) :
    Except TransportProblem σ :=
  Transport.publish n.routingKey s.toJson transport

/-- The receiving end of the signals of a run. -/
structure Channel where
  runId : RunId
  routingKey : String
  queue : String
  /-- How long to wait for a signal, in milliseconds. -/
  timeout : Option Nat
  /-- The tasks whose signals have passed, the last one first. -/
  seen : List Nat
  /-- How many signals were dropped because one of their task had passed. -/
  discarded : Nat

/-- What becomes of a payload. -/
inductive Admission where
  | passed (signal : Signal)
  | repeated
  | refused (error : RunError)

namespace Channel

/-- The channel of a run before anything was received. -/
def ofRun (run : RunId) (signaling : Signaling) : Channel :=
  ⟨run, run.routingKey signaling.routingWord, run.queueName signaling.routingWord,
    signaling.timeout, [], 0⟩

/-- Open the channel of a run: declare its queue and become its consumer. -/
def openOn {σ : Type} [Transport σ] (run : RunId) (signaling : Signaling) (transport : σ) :
    Except RunError (Channel × σ) :=
  let channel := ofRun run signaling
  match Transport.declare (.transient channel.queue channel.routingKey) transport with
  | .ok transport => .ok (channel, transport)
  | .error problem => .error (.transport problem)

/-- The sending end of the channel. -/
def notifier (c : Channel) : Notifier := ⟨c.runId, c.routingKey⟩

/-- Examine a payload: the first signal of each task passes. -/
def examine (c : Channel) (payload : Json) : Admission × Channel :=
  match Signal.decode payload with
  | .error e => (.refused e, c)
  | .ok signal =>
    -- a signal of another run is refused before its task is looked at
    if signal.runId ≠ c.runId then
      (.refused (.anomaly c.runId (.foreignRun signal.runId)), c)
    else if signal.taskNo ∈ c.seen then (.repeated, { c with discarded := c.discarded + 1 })
    else (.passed signal, { c with seen := signal.taskNo :: c.seen })

/-- Receive from payloads that have arrived: the first that passes or is refused, with the
payloads behind it. -/
def receive : List Json → Channel → Option (Except RunError Signal) × List Json × Channel
  | [], c => (none, [], c)
  | payload :: rest, c =>
    match c.examine payload with
    | (.passed signal, c) => (some (.ok signal), rest, c)
    | (.refused e, c) => (some (.error e), rest, c)
    | (.repeated, c) => receive rest c

/-- The error of a channel that has waited too long. -/
def timeoutError (c : Channel) (milliseconds : Nat) : RunError :=
  .signalTimeout c.runId milliseconds

/-- The channel on one line. -/
def describe (c : Channel) : String :=
  Text.record "CompletionChannel" [
    ("run_id", c.runId.describe),
    ("routing_key", Text.quoted c.routingKey),
    ("seen", toString c.seen.length),
    ("duplicates_discarded", toString c.discarded)]

end Channel

end BatchRun
