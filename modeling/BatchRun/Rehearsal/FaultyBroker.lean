import BatchRun.Signal.Broker

/-!
# Brokers that misbehave on purpose

A rehearsal of a run goes over a broker that loses, repeats and alters signals as a plan says.
The plan names, for the signals of each task, the copies that are delivered in place of a signal
and what is changed in each of them.

## Main definitions

* `Patch`: what is changed in a copy
* `FaultPlan`: what becomes of the signals of each task
* `FaultyBroker`: a broker that follows a plan, as a transport
-/

namespace BatchRun

/-- What is changed in a copy of a signal. -/
structure Patch where
  /-- A payload in place of the signal. -/
  replacement : Option Json
  set : List (String × Json)
  drop : List String
  /-- What the amount is multiplied by. -/
  times : Option Nat

namespace Patch

/-- Nothing is changed. -/
def faithful : Patch := ⟨none, [], [], none⟩

/-- A payload with its amount multiplied, if it has one. -/
def multiply (payload : Json) : Option Nat → Json
  | none => payload
  | some factor =>
    match payload.field? "amount" with
    | some (.int amount) => payload.setField "amount" (.int (amount * factor))
    | _ => payload

/-- The copy of a payload. -/
def apply (p : Patch) (payload : Json) : Json :=
  -- replacement first, then single fields, and the amount last
  let payload := p.replacement.getD payload
  let payload := p.set.foldl (fun payload field => payload.setField field.1 field.2) payload
  multiply (p.drop.foldl (fun payload name => payload.dropField name) payload) p.times

end Patch

/-- What becomes of a signal. -/
inductive Delivery where
  /-- Copies of it are delivered, one for each patch. -/
  | copies (patches : List Patch)
  /-- It is refused with a text. -/
  | refused (reason : String)

/-- What becomes of the signals of a run. -/
structure FaultPlan where
  /-- For the signals of single tasks. -/
  forTask : List (Nat × Delivery)
  /-- For all other signals. -/
  otherwise : Delivery
  /-- How many payloads are received before the queue closes. -/
  closeAfter : Option Nat
  /-- Why no queue can be declared. -/
  refuseDeclare : Option String

namespace FaultPlan

/-- Every signal is delivered as it is. -/
def faithful : FaultPlan := ⟨[], .copies [.faithful], none, none⟩

/-- What becomes of a payload. -/
def deliveryOf (plan : FaultPlan) (payload : Json) : Delivery :=
  match payload.field? "task_no" with
  | some (.int taskNo) => (plan.forTask.lookup taskNo.toNat).getD plan.otherwise
  | _ => plan.otherwise

end FaultPlan

/-- A broker that follows a plan. -/
structure FaultyBroker where
  plan : FaultPlan
  broker : Broker
  /-- Copies that were delivered. -/
  delivered : Nat
  /-- Payloads that were received. -/
  yielded : Nat

namespace FaultyBroker

/-- A broker that follows a plan, before anything was published. -/
def of (plan : FaultPlan) (broker : Broker) : FaultyBroker := ⟨plan, broker, 0, 0⟩

/-- Declare a queue, unless the plan refuses. -/
def declare (d : QueueDeclaration) (b : FaultyBroker) : Except TransportProblem FaultyBroker :=
  match b.plan.refuseDeclare with
  | some reason => .error (.stated "declare_queue" reason)
  | none => (b.broker.declare d).map fun broker => { b with broker }

/-- Deliver one copy. -/
def deliver (routingKey : String) (payload : Json) (b : FaultyBroker) (patch : Patch) :
    FaultyBroker :=
  { b with
    broker := b.broker.publish routingKey (patch.apply payload)
    delivered := b.delivered + 1 }

/-- Publish what the plan makes of a payload. -/
def publish (routingKey : String) (payload : Json) (b : FaultyBroker) :
    Except TransportProblem FaultyBroker :=
  match b.plan.deliveryOf payload with
  | .refused reason => .error (.stated "publish" reason)
  | .copies patches => .ok (patches.foldl (deliver routingKey payload) b)

/-- Receive the next payload of a queue that has not been closed. -/
def receive (name : String) (b : FaultyBroker) : Receipt × FaultyBroker :=
  if b.plan.closeAfter.any (· ≤ b.yielded) then (.closed, b)
  else
    match b.broker.receive name with
    | (.payload payload, broker) =>
      (.payload payload, { b with broker, yielded := b.yielded + 1 })
    | (receipt, broker) => (receipt, { b with broker })

instance : Transport FaultyBroker where
  declare := declare
  publish := publish
  receive := receive
  release name b := { b with broker := b.broker.release name }

end FaultyBroker

end BatchRun
