import BatchRun.Signal.Broker

/-!
# The broker in memory with its consumers

The broker in memory as it is shared by those who publish and those who consume. A declaration
makes a channel: the queue keeps its sending end, and the consumer has its receiving end. Who
drops a consumer closes the channel, and removes the queue of that name if it was declared so,
whichever channel that queue sends to by then.

`Broker` knows consumers by the names of their queues only. That this is enough is a property of
the broker with its consumers.

## Main definitions

* `SharedBroker`: queues by their names, and all consumers there ever were
* `declare`, `publish`, `receive`, `drop`
* `SharedBroker.view`: the broker as `Broker` has it
-/

namespace BatchRun

/-- A consumer with what its channel holds for it. -/
structure Consumer where
  name : String
  autoDelete : Bool
  /-- Whether it was not dropped, so that its channel is open. -/
  isThere : Bool
  /-- Payloads that were not yet received, oldest first. -/
  payloads : List Json

/-- Put a payload into a channel, unless it is closed. -/
def Consumer.offer (payload : Json) (c : Consumer) : Consumer :=
  if c.isThere then { c with payloads := c.payloads ++ [payload] } else c

/-- A queue that sends to the channel of a consumer. -/
structure Binding where
  declaration : QueueDeclaration
  /-- The number of the consumer at the other end of the channel. -/
  consumer : Nat

/-- Queues and consumers of an exchange. -/
structure SharedBroker where
  exchange : String
  queues : SortedMap String Binding
  /-- Consumers by their numbers, those included that were dropped. -/
  consumers : List Consumer

namespace SharedBroker

/-- An exchange without queues. -/
def new (exchange : String) : SharedBroker := ⟨exchange, .empty, []⟩

/-- Whether there is a queue of a name. -/
def hasQueue (b : SharedBroker) (name : String) : Bool := b.queues.contains name

/-- Whether a consumer was not dropped. -/
def isThere (b : SharedBroker) (c : Nat) : Bool := (b.consumers[c]?).any (·.isThere)

/-- The payloads that wait for a consumer. -/
def waiting (b : SharedBroker) (c : Nat) : List Json :=
  ((b.consumers[c]?).map (·.payloads)).getD []

/-- Whether a queue sends to the channel of a consumer. -/
def hasSender (b : SharedBroker) (c : Nat) : Bool := b.queues.values.any (·.consumer == c)

/-- Declare a queue, unless the channel of a queue of this name is open. The consumer that comes
with it has the next number. -/
def declare (d : QueueDeclaration) (b : SharedBroker) :
    Except TransportProblem (Nat × SharedBroker) :=
  if (b.queues.get? d.name).any fun q => b.isThere q.consumer then .error (.queueTaken d.name)
  else
    .ok (b.consumers.length, { b with
      queues := b.queues.insert d.name ⟨d, b.consumers.length⟩
      consumers := b.consumers ++ [⟨d.name, d.autoDelete, true, []⟩] })

/-- Send a payload from a queue into its channel. -/
def send (payload : Json) (consumers : List Consumer) (q : Binding) : List Consumer :=
  consumers.modify q.consumer (Consumer.offer payload)

/-- Publish a payload under a routing key. -/
def publish (routingKey : String) (payload : Json) (b : SharedBroker) : SharedBroker :=
  let bound := b.queues.values.filter (·.declaration.routingKey == routingKey)
  { b with consumers := bound.foldl (send payload) b.consumers }

/-- Receive the next payload of a consumer. -/
def receive (c : Nat) (b : SharedBroker) : Receipt × SharedBroker :=
  match b.waiting c with
  | [] => (if b.hasSender c then .pending else .closed, b)
  | payload :: rest =>
    (.payload payload, { b with consumers := b.consumers.modify c ({ · with payloads := rest }) })

/-- Drop a consumer. What waits for it is lost, and the queue of its name goes away if it was
declared so. -/
def drop (c : Nat) (b : SharedBroker) : SharedBroker :=
  match b.consumers[c]? with
  | none => b
  | some consumer => { b with
      queues := if consumer.autoDelete then b.queues.erase consumer.name else b.queues
      consumers := b.consumers.set c { consumer with isThere := false, payloads := [] } }

/-- The broker as those see it who know a consumer by the name of its queue. -/
def view (b : SharedBroker) : Broker where
  exchange := b.exchange
  queues := b.queues.mapValues fun q => ⟨q.declaration, b.isThere q.consumer, b.waiting q.consumer⟩

end SharedBroker

end BatchRun
