import BatchRun.Signal.Transport
import BatchRun.SortedMap
import BatchRun.Text.Record

/-!
# The broker in memory

A transport within one process that loses nothing. A payload goes to every queue with a consumer
that is bound to its routing key, and to no other; payloads for which there is none are dropped.
A queue keeps its payloads in the order in which they were published, from the moment its
consumer came.

## Main definitions

* `Broker`: queues by their names
* `declare`, `publish`, `receive`, `release`
-/

namespace BatchRun

/-- A queue with its payloads. -/
structure Queue where
  declaration : QueueDeclaration
  /-- Whether its consumer is still there. -/
  consumed : Bool
  /-- Payloads that were not yet received, oldest first. -/
  payloads : List Json

/-- The queues of an exchange. -/
structure Broker where
  exchange : String
  queues : SortedMap String Queue

namespace Broker

/-- An exchange without queues. -/
def new (exchange : String) : Broker := ⟨exchange, .empty⟩

/-- Whether there is a queue of a name. -/
def hasQueue (b : Broker) (name : String) : Bool := b.queues.contains name

/-- The number of queues. -/
def queueCount (b : Broker) : Nat := b.queues.size

/-- Whether a queue has a consumer. -/
def isConsumed (b : Broker) (name : String) : Bool := (b.queues.get? name).any (·.consumed)

/-- Declare a queue and become its consumer, unless it has one. -/
def declare (d : QueueDeclaration) (b : Broker) : Except TransportProblem Broker :=
  if b.isConsumed d.name then .error (.queueTaken d.name)
  else .ok { b with queues := b.queues.insert d.name ⟨d, true, []⟩ }

/-- What a payload does to a queue. -/
def Queue.offer (routingKey : String) (payload : Json) (q : Queue) : Queue :=
  -- a queue without consumer keeps nothing
  if q.consumed && q.declaration.routingKey == routingKey then
    { q with payloads := q.payloads ++ [payload] }
  else q

/-- Publish a payload under a routing key. -/
def publish (routingKey : String) (payload : Json) (b : Broker) : Broker :=
  { b with queues := b.queues.mapValues (Queue.offer routingKey payload) }

/-- The payloads that wait in a queue. -/
def waiting (b : Broker) (name : String) : List Json :=
  ((b.queues.get? name).map (·.payloads)).getD []

/-- The broker with other payloads waiting in a queue. -/
def setWaiting (name : String) (payloads : List Json) (b : Broker) : Broker :=
  match b.queues.get? name with
  | none => b
  | some q => { b with queues := b.queues.insert name { q with payloads } }

/-- Receive the next payload of a queue. -/
def receive (name : String) (b : Broker) : Receipt × Broker :=
  match b.queues.get? name with
  | none => (.closed, b)
  | some q =>
    match q.payloads with
    | [] => (if q.consumed then .pending else .closed, b)
    | payload :: rest =>
      (.payload payload, { b with queues := b.queues.insert name { q with payloads := rest } })

/-- Stop being the consumer of a queue. What waits in it is lost, and it goes away if it was
declared so. -/
def release (name : String) (b : Broker) : Broker :=
  match b.queues.get? name with
  | none => b
  | some q =>
    if q.declaration.autoDelete then { b with queues := b.queues.erase name }
    else { b with queues := b.queues.insert name { q with consumed := false, payloads := [] } }

/-- The broker on one line. -/
def describe (b : Broker) : String :=
  Text.record "InMemoryBroker" [
    ("exchange", Text.quoted b.exchange), ("queues", toString b.queueCount)]

instance : Transport Broker where
  declare := declare
  publish key payload b := .ok (publish key payload b)
  receive := receive
  release := release

end Broker

end BatchRun
