import BatchRun.Json.Basic
import BatchRun.RunError

/-!
# Transports of signals

A transport carries payloads from those who publish them under a routing key to the queues that
are bound to that key. Each queue has a single consumer. What a transport loses, repeats, delays
or alters is its own affair: whoever receives must not rely on more than is said here.
-/

namespace BatchRun

/-- A queue, the routing key it is bound to, and what becomes of it. -/
structure QueueDeclaration where
  name : String
  routingKey : String
  /-- Survives a restart of the transport. -/
  durable : Bool
  /-- Goes away with its consumer. -/
  autoDelete : Bool
  deriving DecidableEq, Repr

/-- A queue that goes away with its consumer. -/
def QueueDeclaration.transient (name routingKey : String) : QueueDeclaration :=
  ⟨name, routingKey, false, true⟩

/-- What a consumer is given when it asks for a payload. -/
inductive Receipt where
  | payload (value : Json)
  /-- There is none yet. -/
  | pending
  /-- There will never be one. -/
  | closed

/-- Transports with states of type `σ`. -/
class Transport (σ : Type) where
  /-- Declare a queue and become its consumer. -/
  declare : QueueDeclaration → σ → Except TransportProblem σ
  /-- Publish a payload under a routing key. -/
  publish : String → Json → σ → Except TransportProblem σ
  /-- Ask for the next payload of a queue. -/
  receive : String → σ → Receipt × σ
  /-- Stop being the consumer of a queue. -/
  release : String → σ → σ

end BatchRun
