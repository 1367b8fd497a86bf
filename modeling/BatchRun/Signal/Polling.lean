import BatchRun.Signal.Broker
import BatchRun.Signal.Channel

/-!
# Polling a channel

A channel on a broker in memory can be polled: it hands out a signal if one has arrived, and does
not wait otherwise.
-/

namespace BatchRun.Channel

/-- The next signal or error among the payloads that have arrived. -/
def poll (c : Channel) (b : Broker) : Option (Except RunError Signal) × Channel × Broker :=
  let (received, rest, c) := receive (b.waiting c.queue) c
  (received, c, b.setWaiting c.queue rest)

/-- Poll up to a number of times, as long as there is something. -/
def pollUpTo :
    Nat → Channel → Broker → List (Except RunError Signal) × Channel × Broker
  | 0, c, b => ([], c, b)
  | times + 1, c, b =>
    match c.poll b with
    | (none, c, b) => ([], c, b)
    | (some received, c, b) =>
      let (rest, c, b) := pollUpTo times c b
      (received :: rest, c, b)

end BatchRun.Channel
