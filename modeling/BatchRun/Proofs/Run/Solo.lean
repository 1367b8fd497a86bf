import BatchRun.Proofs.Run.Posted

/-!
# A task on the control node

Where the control node runs a task itself, nothing happens elsewhere in the meantime. When it is
through, the outcome of the task is the last of those that were sent, its values are merged if
there is a tally for them, and its signal waits behind those that came before.

## Main definitions

* `Broker.Keeps`: a queue with its consumer, its routing key and what waits in it

## Main results

* `Worker.runTask_spec`: what is left by a task that was run, and by nothing else
-/

namespace BatchRun

open Std

namespace Broker

/-- The queue of a name has a consumer, is bound to a key, and keeps payloads. -/
def Keeps (b : Broker) (name key : String) (payloads : List Json) : Prop :=
  ∃ q, b.queues.get? name = some q ∧ q.consumed = true ∧ q.declaration.routingKey = key ∧
    q.payloads = payloads

variable {b : Broker} {name key : String} {payloads : List Json}

/-- A queue without consumer can be declared. -/
theorem exists_declare (h : b.isConsumed name = false) (key : String) :
    ∃ b', b.declare (.transient name key) = .ok b' ∧ b'.Keeps name key [] := by
  rw [declare, if_neg (by simpa [QueueDeclaration.transient] using h)]
  exact ⟨_, rfl, _, SortedMap.get?_insert_self _ _ _, rfl, rfl, rfl⟩

/-- What is published under the key of a queue comes to its end. -/
theorem Keeps.publish (h : b.Keeps name key payloads) (payload : Json) :
    (b.publish key payload).Keeps name key (payloads ++ [payload]) := by
  obtain ⟨q, hq, hconsumed, hkey, rfl⟩ := h
  refine ⟨{ q with payloads := q.payloads ++ [payload] }, ?_, hconsumed, hkey, rfl⟩
  simp [Broker.publish, SortedMap.get?_mapValues, hq, Queue.offer, hconsumed, hkey]

/-- The first payload of a queue is received. -/
theorem Keeps.exists_receive {payload : Json} (h : b.Keeps name key (payload :: payloads)) :
    ∃ b', b.receive name = (.payload payload, b') ∧ b'.Keeps name key payloads := by
  obtain ⟨q, hq, hconsumed, hkey, hpayloads⟩ := h
  refine ⟨{ b with queues := b.queues.insert name { q with payloads } }, ?_,
    { q with payloads }, SortedMap.get?_insert_self _ _ _, hconsumed, hkey, rfl⟩
  simp only [receive, hq, hpayloads]

end Broker

variable {σ α κ β : Type} [Ord κ] [TransOrd κ] [Mergeable β]

/-- What is shared once values were merged into the shared tally, if there is one. -/
structure Commons.HasMerged (commons : Commons σ κ β) (entries : List (κ × β))
    (commons' : Commons σ κ β) : Prop where
  transport : commons'.transport = commons.transport
  outcomes : commons'.outcomes = commons.outcomes
  wanted : commons'.outcomesWanted = commons.outcomesWanted
  shared : ∀ shared', commons'.shared = some shared' → ∃ shared, commons.shared = some shared ∧
    shared.tally.mergeEntries entries = .ok shared'.tally

variable [Transport σ] [Workload α]

namespace Worker

variable {shop : Workshop α κ β} {commons : Commons σ κ β}

/-- A worker that is busy does one step, and then the others. -/
theorem finish_eq {w : Worker α κ β} (h : w.isBusy = true) (shop : Workshop α κ β)
    (commons : Commons σ κ β) :
    w.finish shop commons = (w.step shop commons).1.finish shop (w.step shop commons).2 := by
  rw [finish, dif_pos h]

/-- An outcome is sent, and the signal after it. -/
theorem finish_reporting (hwanted : commons.outcomesWanted = true) (outcome : Outcome κ β) :
    (reporting outcome : Worker α κ β).finish shop commons =
      (.idle, ({ commons with outcomes := commons.outcomes ++ [outcome] } :
        Commons σ κ β).publish shop.notifier
          (signalOf shop outcome.taskNo (saidOf outcome) commons.now)) := by
  rw [finish_eq rfl, step, Commons.send, if_pos hwanted, finish_eq rfl, step, finish,
    dif_neg (by simp [isBusy])]
  rfl

/-- Values are merged one after the other, and then the outcome is sent. -/
theorem finish_merging {task : Task α} {entries : List (κ × β)} {shared : SharedTally κ β}
    {tally : Tally κ β} (hshared : commons.shared = some shared)
    (hmerge : shared.tally.mergeEntries entries = .ok tally) :
    (merging task entries).finish shop commons =
      (reporting (outcomeOf task (.ok none))).finish shop
        { commons with shared := some { shared with tally } } := by
  induction entries generalizing commons shared with
  | nil =>
    obtain rfl := Except.ok.inj hmerge
    rw [finish_eq rfl, step, ← hshared]
  | cons e rest ih =>
    obtain ⟨next, hfirst, hrest⟩ := Tally.exists_of_mergeEntries_cons hmerge
    have hstep : (merging task (e :: rest)).step shop commons =
        (.merging task rest, { commons with shared := some { shared with tally := next } }) := by
      simp only [step, hshared, SharedTally.mergeInto, hfirst]
    rw [finish_eq rfl, hstep, ih rfl hrest]

/-- When the work function is through, the values of the task are merged if there is a tally for
them, and then its outcome is sent. -/
theorem exists_finish_begin {plan : Plan α κ β} {task : Task α}
    (hshares : commons.shared.isSome = plan.shares)
    (hmerge : ∀ shared, commons.shared = some shared →
      ∃ tally, shared.tally.mergeEntries (plan.entriesOf task) = .ok tally) :
    ∃ commons', commons.HasMerged (plan.entriesOf task) commons' ∧
      (begin plan.shop task commons).finish plan.shop commons =
        (reporting (plan.outcomeOf task)).finish plan.shop commons' := by
  rw [begin, finish_eq rfl, step]
  -- the end of the work function is only seen in the timings and on the clock
  obtain ⟨timings, clock, hsame⟩ : ∃ timings clock, (conclude plan.shop task (commons.passUntil
      (commons.clock + (plan.shop.work task).took))).2 = { commons with timings, clock } :=
    ⟨_, _, by rw [conclude_snd]; rfl⟩
  rw [hsame]
  have hpassed : (commons.passUntil (commons.clock + (plan.work task).took)).shared.isSome =
      plan.shares := hshares
  rcases conclude_fst plan task hpassed with ⟨part, hpart, hsome, hstation⟩ | ⟨hnothing, hstation⟩
  · obtain ⟨shared, hshared⟩ := Option.isSome_iff_exists.1 (hshares.trans hsome)
    obtain ⟨tally, htally⟩ := hmerge shared hshared
    have houtcome : outcomeOf task (.ok none) = plan.outcomeOf task := by
      rw [Plan.outcomeOf, Plan.resultOf_ok hpart, if_pos hsome]
    rw [plan.work_shop, hstation]
    refine ⟨{ commons with timings, clock, shared := some { shared with tally } },
      ⟨rfl, rfl, rfl, ?_⟩, ?_⟩
    · intro shared' hshared'
      obtain rfl := Option.some.inj hshared'
      exact ⟨shared, hshared, htally⟩
    · rw [Plan.entriesOf_ok hpart] at htally
      rw [← houtcome]
      exact finish_merging hshared htally
  · rw [plan.work_shop, hstation]
    refine ⟨{ commons with timings, clock }, ⟨rfl, rfl, rfl, ?_⟩, rfl⟩
    intro shared hshared
    refine ⟨shared, hshared, ?_⟩
    rcases hnothing with hshares' | hnothing
    · rw [hshares', hshared] at hshares
      cases hshares
    · rw [hnothing, Tally.mergeEntries_nil]

end Worker

/-- A task that is run on the control node is through when its outcome is sent and its signal waits
behind the others, unless a merge faults. -/
theorem Worker.runTask_spec {plan : Plan α κ β} {task : Task α} {commons : Commons Broker κ β}
    {payloads : List Json} (hwanted : commons.outcomesWanted = true)
    (hshares : commons.shared.isSome = plan.shares)
    (hkeeps : commons.transport.Keeps plan.channel.queue plan.channel.routingKey payloads)
    (hmerge : ∀ shared, commons.shared = some shared →
      ∃ tally, shared.tally.mergeEntries (plan.entriesOf task) = .ok tally) :
    ∃ commons' now, runTask plan.shop task commons = (none, commons') ∧
      Instant.read now.text = .ok now ∧
      commons'.outcomes = commons.outcomes ++ [plan.outcomeOf task] ∧
      commons'.transport.Keeps plan.channel.queue plan.channel.routingKey
        (payloads ++ [(plan.signalOf task now).toJson]) ∧
      ∀ shared', commons'.shared = some shared' → ∃ shared, commons.shared = some shared ∧
        shared.tally.mergeEntries (plan.entriesOf task) = .ok shared'.tally := by
  obtain ⟨merged, hmerged, hfinish⟩ := exists_finish_begin hshares hmerge
  rw [finish_reporting (hmerged.wanted.trans hwanted)] at hfinish
  refine ⟨({ merged with outcomes := merged.outcomes ++ [plan.outcomeOf task] } :
    Commons Broker κ β).publish plan.shop.notifier (plan.signalOf task merged.now), merged.now, ?_,
    merged.read_now, ?_, ?_, ?_⟩
  · rw [runTask, hfinish]
    rfl
  · exact congrArg (· ++ [plan.outcomeOf task]) hmerged.outcomes
  · simp only [Commons.publish, Notifier.publish, Transport.publish]
    rw [hmerged.transport]
    exact hkeeps.publish _
  · exact hmerged.shared

end BatchRun
