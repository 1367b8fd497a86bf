import BatchRun.Signal.Channel
import BatchRun.Signal.SharedBroker

/-!
# Channels on one exchange

Runs that share a broker in memory have their channels side by side on its exchange. Every channel
comes with a consumer of its own, which is dropped with it. Notifiers know no channel but only a
routing key, so they can publish for as long as they like.

## Main definitions

* `Subscription`: a channel and the word in front of its names
* `Exchange`: a shared broker with the channels that were opened on it
* `Exchange.subscribe`, `Exchange.receive`, `Exchange.drop`: what is done through channels
-/

namespace BatchRun

/-- A shared broker is a transport for those who know a consumer by the name of its queue. -/
instance : Transport SharedBroker where
  declare d b := (b.declare d).map (·.2)
  publish key payload b := .ok (b.publish key payload)
  receive name b :=
    match b.queues.get? name with
    | some q => b.receive q.consumer
    | none => (.closed, b)
  release name b :=
    match b.queues.get? name with
    | some q => b.drop q.consumer
    | none => b

/-- A channel with the word that is in front of its routing key. -/
structure Subscription where
  word : String
  channel : Channel

/-- The text that the names of a channel are built from. -/
def Subscription.address (s : Subscription) : String := s.word ++ "." ++ s.channel.runId.text

/-- A shared broker with the channels that were opened on it. -/
structure Exchange where
  broker : SharedBroker
  /-- All channels there ever were; each one has the consumer of its number. -/
  subscriptions : List Subscription

namespace Exchange

/-- An exchange without channels. -/
def new (name : String) : Exchange := ⟨.new name, []⟩

/-- A channel that was opened and not dropped. -/
def open? (x : Exchange) (n : Nat) : Option Subscription :=
  if x.broker.isThere n then x.subscriptions[n]? else none

/-- Open the channel of a run, which gets the next number. -/
def subscribe (run : RunId) (signaling : Signaling) (x : Exchange) : Except RunError Exchange :=
  (Channel.openOn run signaling x.broker).map fun (channel, broker) =>
    ⟨broker, x.subscriptions ++ [⟨signaling.routingWord, channel⟩]⟩

/-- Publish a payload, through a notifier or without one. -/
def publish (routingKey : String) (payload : Json) (x : Exchange) : Exchange :=
  { x with broker := x.broker.publish routingKey payload }

/-- Have a channel examine the next payload of its consumer, if there is one. -/
def receive (n : Nat) (x : Exchange) : Exchange :=
  match x.broker.receive n with
  | (.payload payload, broker) =>
    { broker, subscriptions := x.subscriptions.modify n fun s =>
        { s with channel := (s.channel.examine payload).2 } }
  | (_, broker) => { x with broker }

/-- Drop a channel, and its consumer with it. -/
def drop (n : Nat) (x : Exchange) : Exchange := { x with broker := x.broker.drop n }

end Exchange

end BatchRun
