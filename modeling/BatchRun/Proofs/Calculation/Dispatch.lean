import BatchRun.Calculation.Runner
import BatchRun.Proofs.Partition.Greedy
import BatchRun.Proofs.Run.Strategies

/-!
# The run of a calculation

A calculation has its items divided into blocks, and a task is run for each block. All blocks
together are the items, and each task reports as many units as its block has items. The total
that is expected is the number of items, so that a run is never left with units that are missing,
and never has too many: only a block can make it fail.

How the run is played is left open: any way to run tasks will do that ends as some session of the
run does.

## Main definitions

* `Player.Plays`: a way to run tasks that takes each run through a session
* `Assignment`, `CalculationRunner.plan`: the blocks of a calculation, and the plan of their run
* `CalculationRunner.Gives`, `CalculationRunner.Denies`: what comes of that run

## Main results

* `Session.Reaches.ends_of_units`: a run whose tasks have the units that are expected
* `Player.Plays.gives_or_denies`: the run of a calculation gives all results, or tells of a block
-/

namespace BatchRun

open Std

section Units

variable {σ α κ β : Type} [Ord κ] [Workload α]

namespace Plan

variable {plan : Plan α κ β}

/-- The tasks that succeed have no more units than all tasks. -/
theorem succeedingUnits_le (plan : Plan α κ β) : plan.succeedingUnits ≤ plan.units := by
  have hall : plan.args.map Workload.units = plan.tasks.map fun t => Workload.units t.args := by
    apply List.ext_getElem (by simp)
    intro no _ _
    simp [tasks, taskOf]
  rw [units, hall]
  exact (List.filter_sublist.map _).sum_le_sum fun _ _ => Nat.zero_le _

/-- Tasks that have the units that are expected give no reason for an error, except for one that
fails. -/
theorem Exact.exists_failed {error : RunError} (hunits : plan.units = plan.total)
    (h : plan.Exact error) : ∃ t ∈ plan.tasks, ∃ cause, (plan.work t).verdict.FailsWith cause ∧
      error = .taskFailed t.no (Workload.label t.args) cause := by
  cases h with
  | incomplete _ hless => exact absurd hunits (Nat.ne_of_lt hless)
  | tooManyUnits t refused _ hmore =>
    have hle := plan.succeedingUnits_le
    omega
  | taskFailed t cause ht hcause => exact ⟨t, ht, cause, hcause, rfl⟩

end Plan

variable [TransOrd κ] [Mergeable β] [Transport σ]

/-- Over a courier and with no end to waiting, a run whose tasks have the units that are expected,
and whose merges do not fault, does all of its work once, or tells of a task that has failed. -/
theorem Session.Reaches.ends_of_units {d : Dispatcher α κ β} {transport : σ} {pending : Pending α}
    {total : Nat} {run : Run σ α κ β} {s : Session σ α κ β} {ending : Ending κ β}
    (courier : Courier σ) (hlimit : 0 < d.settings.limit)
    (htimeout : d.settings.signaling.timeout = none) (hfits : (d.plan pending total).Fits)
    (hunits : (d.plan pending total).units = total)
    (hsafe : (d.plan pending total).MergesSafely)
    (hstart : d.start transport pending total = .ok run) (hreaches : Session.Reaches run s)
    (hending : s.ending? = some ending) :
    (∃ result summary, ending = .finished result summary ∧
        s.IsIntact (d.plan pending total) result summary) ∨
      (∃ t ∈ (d.plan pending total).tasks, ∃ cause,
        ((d.plan pending total).work t).verdict.FailsWith cause ∧
          ending = .failed (.taskFailed t.no (Workload.label t.args) cause)) ∨
        ∃ fault, ending = .crashed fault := by
  cases (hreaches.stands_safe courier hfits hsafe hstart).ends hending with
  | overloaded _ => exact .inr (.inr ⟨_, rfl⟩)
  | crashed fault => exact .inr (.inr ⟨fault, rfl⟩)
  | unmerged _ fault => exact .inr (.inr ⟨fault, rfl⟩)
  | concluded _ hlive _ hresult hphase hconclude =>
    rcases s.run.conclude_eq s.result with ⟨result, heq⟩ | ⟨fault, heq⟩
    · exact .inl ⟨result, s.run.summary, hconclude.symm.trans heq,
        hlive.intact hlimit hresult hphase heq⟩
    · exact .inr (.inr ⟨fault, hconclude.symm.trans heq⟩)
  | failed error r told begun hlive h hrefuses _ =>
    rcases h.1.exact_of_refuses hlimit hfits hlive h.2 hrefuses with
      hexact | ⟨milliseconds, hmilliseconds, -⟩
    · obtain ⟨t, ht, cause, hcause, rfl⟩ := hexact.exists_failed hunits
      exact .inr (.inl ⟨t, ht, cause, hcause, rfl⟩)
    · have hnever : (d.plan pending total).channel.timeout = none := htimeout
      rw [hnever] at hmilliseconds
      cases hmilliseconds

end Units

section Player

variable {σ α κ β : Type} [Ord κ] [TransOrd κ] [Mergeable β] [Transport σ] [Workload α]

/-- A way to run tasks that takes each run through some session to its end, unless it stalls. In
which order things happen is its own matter. -/
structure Player.Plays (player : Player σ α κ β) : Prop where
  unstarted : ∀ {d : Dispatcher α κ β} {transport : σ} {pending : Pending α} {total : Nat}
    {why : Failure}, d.start transport pending total = .error why →
      (player d transport pending total).ending = (d.unstarted transport why).ending
  played : ∀ {d : Dispatcher α κ β} {transport : σ} {pending : Pending α} {total : Nat}
    {run : Run σ α κ β}, d.start transport pending total = .ok run →
      (player d transport pending total).ending ≠ .stalled →
        ∃ s, Session.Reaches run s ∧ s.ending? = some (player d transport pending total).ending

/-- The order in which runs are played here is one such way. -/
theorem Dispatcher.plays_execute (patience : Nat) :
    Player.Plays fun (d : Dispatcher α κ β) (transport : σ) pending total =>
      d.execute patience transport pending total where
  unstarted := by
    intro d transport pending total why hstart
    simp only [execute, hstart]
  played := by
    intro d transport pending total run hstart hending
    simp only [execute, hstart, Played.ofRun] at hending ⊢
    obtain ⟨s, hreaches, -, hover⟩ := Session.exists_of_toEnd rfl hending
    exact ⟨s, hreaches, hover⟩

end Player

/-- What there is to do in the run of a calculation: its items, the blocks into which they are
divided, and what is done for every block. -/
structure Assignment (ι κ κ' β : Type) [Ord κ'] where
  items : List ι
  blocks : List (Block ι κ Float)
  work : WorkFunction (Block ι κ Float) κ' β

/-- A broker refuses to open a channel only if someone else consumes from its queue. -/
theorem Channel.openOn_eq_error {runId : RunId} {signaling : Signaling} {broker : Broker}
    {error : RunError} (h : openOn runId signaling broker = .error error) :
    broker.isConsumed (ofRun runId signaling).queue = true ∧
      error = .transport (.queueTaken (ofRun runId signaling).queue) := by
  simp only [openOn, Transport.declare, Broker.declare] at h
  split at h
  · cases h
  · next problem hdeclare =>
    obtain rfl := Except.error.inj h
    split at hdeclare
    · next htaken =>
      obtain rfl := Except.error.inj hdeclare
      exact ⟨htaken, rfl⟩
    · cases hdeclare

/-- Under a limit above zero an executor is refused by a fault alone. -/
theorem Executor.ofMode_eq_error {α κ β : Type} [Ord κ] {mode : ExecutionMode} {limit : Nat}
    {why : Failure} (hlimit : 0 < limit)
    (h : (ofMode mode limit : Except Failure (Executor α κ β)) = .error why) :
    ∃ fault, why = .faulted fault := by
  cases mode with
  | auto => cases h
  | sequential => cases h
  | threads =>
    rw [ofMode, Pool.new, if_neg (Nat.ne_of_gt hlimit)] at h
    split at h
    · exact ⟨_, (Except.error.inj h).symm⟩
    · split at h
      · exact ⟨_, (Except.error.inj h).symm⟩
      · cases h

/-- Over a broker, a run whose tasks come lazily is refused because its queue is taken, or does
not start because of a fault. -/
theorem Dispatcher.start_eq_error {α κ β : Type} [Ord κ] [TransOrd κ] [Mergeable β] [Workload α]
    {d : Dispatcher α κ β} {broker : Broker} {args : List α} {total : Nat} {why : Failure}
    (hlimit : 0 < d.settings.limit) (h : d.start broker (.lazy args) total = .error why) :
    (broker.isConsumed (d.plan (.lazy args) total).channel.queue = true ∧
        why = .refused (.transport (.queueTaken (d.plan (.lazy args) total).channel.queue))) ∨
      ∃ fault, why = .faulted fault := by
  have hexpected : d.expectedTasks (.lazy args) = .ok none := rfl
  simp only [start, hexpected] at h
  split at h
  · next error hopen =>
    obtain ⟨htaken, rfl⟩ := Channel.openOn_eq_error hopen
    exact .inl ⟨htaken, (Except.error.inj h).symm⟩
  · split at h
    · next why' hexecutor =>
      obtain rfl := Except.error.inj h
      exact .inr (Executor.ofMode_eq_error hlimit hexecutor)
    · cases h

/-- A tally in which the partial results of all tasks were merged, each once. -/
def Plan.Merges {α κ β : Type} [Ord κ] [TransOrd κ] [Mergeable β] (plan : Plan α κ β)
    (result : Tally κ β) : Prop :=
  ∃ order : List (Task α), order.Perm plan.tasks ∧
    if plan.shares then plan.MergedByWorkers result else plan.MergedInOrder order result

namespace CalculationRunner

variable {ι κ κ' β : Type} [Ord κ'] {r : CalculationRunner} {runId : RunId} {broker : Broker}
  {a : Assignment ι κ κ' β} {result : Tally κ' β} {summary : Summary} {error : RunError}

/-- The plan of the run of a calculation: a task for each block, and as many units as there are
items. -/
def plan (r : CalculationRunner) (runId : RunId) (a : Assignment ι κ κ' β) :
    Plan (Block ι κ Float) κ' β where
  work := a.work
  channel := .ofRun runId r.settings.signaling
  monitor := r.monitor.child "execute"
  args := a.blocks
  limit := r.settings.limit
  total := a.items.length
  shares := r.settings.accumulation = .inWorker

/-- The dispatcher of the run of a calculation. -/
def dispatcher (r : CalculationRunner) (runId : RunId) (a : Assignment ι κ κ' β)
    (timings : Timings) : Dispatcher (Block ι κ Float) κ' β where
  settings := r.settings
  work := a.work
  runId := runId
  monitor := r.monitor.child "execute"
  timings := timings
  queued := []
  journal := []

theorem plan_dispatcher (r : CalculationRunner) (runId : RunId) (a : Assignment ι κ κ' β)
    (timings : Timings) :
    (r.dispatcher runId a timings).plan (.lazy a.blocks) a.items.length = r.plan runId a := rfl

/-- The run of a calculation has given a result. -/
structure Gives [TransOrd κ'] [Mergeable β] (r : CalculationRunner) (runId : RunId)
    (a : Assignment ι κ κ' β) (result : Tally κ' β) (summary : Summary) : Prop where
  /-- Every block has succeeded. -/
  succeeded : ∀ t ∈ (r.plan runId a).tasks, ((r.plan runId a).work t).verdict.succeeds = true
  /-- The result is what the work function gave for these blocks. -/
  merged : (r.plan runId a).Merges result
  computed : summary.unitsComputed = a.items.length
  submitted : summary.tasksSubmitted = a.blocks.length

/-- The run of a calculation has failed. -/
inductive Denies [Described κ] (r : CalculationRunner) (runId : RunId) (broker : Broker)
    (a : Assignment ι κ κ' β) : RunError → Prop
  /-- The work function has failed for a block. -/
  | taskFailed (t : Task (Block ι κ Float)) (cause : Cause) (ht : t ∈ (r.plan runId a).tasks)
      (hcause : ((r.plan runId a).work t).verdict.FailsWith cause) :
      Denies r runId broker a (.taskFailed t.no (Workload.label t.args) cause)
  /-- Someone else consumes from the queue of the run. -/
  | queueTaken (h : broker.isConsumed (r.plan runId a).channel.queue = true) :
      Denies r runId broker a (.transport (.queueTaken (r.plan runId a).channel.queue))

/-- The items of all blocks, counted block by block. -/
theorem sum_size_eq {blocks : List (Block ι κ Float)} {items : List ι}
    (h : (blocks.flatMap fun b => b.items.toList) = items) :
    (blocks.map Block.size).sum = items.length := by
  rw [← h, List.length_flatMap]
  rfl

/-- There are no more blocks than items, as no block is empty. -/
theorem length_blocks_le {blocks : List (Block ι κ Float)} {items : List ι}
    (h : (blocks.flatMap fun b => b.items.toList) = items) : blocks.length ≤ items.length := by
  have hsum := List.length_le_sum_of_one_le (blocks.map Block.size) fun size hsize => by
    obtain ⟨b, -, rfl⟩ := List.mem_map.1 hsize
    exact b.nonempty
  rwa [sum_size_eq h, List.length_map] at hsum

variable [Described κ]

/-- The run of a calculation has as many units as there are items, and numbers fit. -/
theorem fits_plan (r : CalculationRunner) (runId : RunId)
    (hlossless : (a.blocks.flatMap fun b => b.items.toList) = a.items)
    (hcount : a.items.length < UInt64.size) :
    (r.plan runId a).units = a.items.length ∧ (r.plan runId a).Fits := by
  have hsum := sum_size_eq hlossless
  refine ⟨hsum, ?_, ?_⟩
  · intro b hb
    have hle : b.size ≤ (a.blocks.map Block.size).sum :=
      List.single_le_sum (fun _ _ => Nat.zero_le _) _ (List.mem_map_of_mem hb)
    exact Nat.lt_of_le_of_lt hle (hsum ▸ hcount)
  · exact (length_blocks_le hlossless).trans (Nat.le_of_lt hcount)

variable [TransOrd κ'] [Mergeable β]

/-- However the run of a calculation is played, it gives a result of all blocks, or it fails for
a block or because its queue is taken, unless it comes to no end or to a sudden one. -/
theorem gives_or_denies {player : Player Broker (Block ι κ Float) κ' β} (hplays : player.Plays)
    (hlimit : 0 < r.settings.limit) (htimeout : r.settings.signaling.timeout = none)
    (hlossless : (a.blocks.flatMap fun b => b.items.toList) = a.items)
    (hcount : a.items.length < UInt64.size) (hsafe : (r.plan runId a).MergesSafely)
    (broker : Broker) (timings : Timings) {ending : Ending κ' β}
    (hending : (player (r.dispatcher runId a timings) broker (.lazy a.blocks)
      a.items.length).ending = ending) :
    (∃ result summary, ending = .finished result summary ∧ r.Gives runId a result summary) ∨
      (∃ error, ending = .failed error ∧ r.Denies runId broker a error) ∨
        (∃ fault, ending = .crashed fault) ∨ ending = .stalled := by
  obtain ⟨hunits, hfits⟩ := fits_plan r runId hlossless hcount
  cases hstart : (r.dispatcher runId a timings).start broker (.lazy a.blocks) a.items.length with
  | error why =>
    rw [hplays.unstarted hstart] at hending
    rcases Dispatcher.start_eq_error hlimit hstart with ⟨htaken, rfl⟩ | ⟨fault, rfl⟩
    · exact .inr (.inl ⟨_, hending.symm, .queueTaken htaken⟩)
    · exact .inr (.inr (.inl ⟨fault, hending.symm⟩))
  | ok run =>
    by_cases hstalled : ending = .stalled
    · exact .inr (.inr (.inr hstalled))
    obtain ⟨s, hreaches, hover⟩ := hplays.played hstart (hending ▸ hstalled)
    rw [hending] at hover
    rw [← plan_dispatcher r runId a timings] at hunits hfits hsafe
    rcases hreaches.ends_of_units Broker.courier hlimit htimeout hfits hunits hsafe hstart
      hover with ⟨result, summary, hfinished, hintact⟩ | ⟨t, ht, cause, hcause, hfailed⟩ | hcrashed
    · refine .inl ⟨result, summary, hfinished, ?_, ?_, hintact.computed, hintact.submitted⟩
      · intro t ht
        obtain ⟨part, hpart⟩ := hintact.finished t ht
        have hverdict : ((r.plan runId a).work t).verdict = .finished part := hpart
        rw [hverdict]
        rfl
      · obtain ⟨order, horder, -, hmerged⟩ := hintact.merged
        exact ⟨order, horder, hmerged⟩
    · exact .inr (.inl ⟨_, hfailed, .taskFailed t cause ht hcause⟩)
    · exact .inr (.inr (.inl hcrashed))

end CalculationRunner

end BatchRun
