import BatchRun.Proofs.Run.Control
import BatchRun.Proofs.Run.Integrity
import BatchRun.Proofs.Run.Loop
import BatchRun.Proofs.Run.Solo

/-!
# Runs whose tasks are run on the control node

The sequential executor runs the oldest queued task whenever the control node is about to wait,
and over the broker its signal is there at once. However many tasks are queued ahead, the control
node has therefore at most one outcome and one signal before it, and these are of one task, the
next one in turn: all tasks before it are acknowledged, and none after it has begun.

## Main definitions

* `Run.InTurn`: the tasks that are acknowledged, the one in hand, and those that are queued

## Main results

* `InTurn.control?_cases`: what the control node does when it has a task in hand
* `InTurn.control?_of_none`: and when it has none
-/

namespace BatchRun

open Std

variable {σ α κ β : Type} [Ord κ]

/-- What is said of an amount that is refused. -/
theorem Progress.refused_of_advance {p : Progress} {amount : Nat} {refused : ProgressOverflow}
    (h : p.advance amount = .error refused) : refused = ⟨p.computed, p.total, amount⟩ := by
  rw [advance] at h
  split at h
  · cases h
  · exact (Except.error.inj h).symm

namespace Run

/-- A run that has gone on without a fault or an error is live. -/
theorem Follows.live [Transport σ] [Workload α] [TransOrd κ] [Mergeable β] {plan : Plan α κ β}
    {told : List (Completion κ β)} {begun : List (Task α)} {r r' : Run σ α κ β}
    (h : r.Follows plan told begun r') (hfault : ∀ fault, r'.phase ≠ .crashed fault)
    (herror : ∀ error, r'.phase ≠ .replied (.error error)) : r'.Live plan told begun := by
  rcases h with ⟨hlive, -⟩ | ⟨fault, hphase, -⟩ | ⟨error, hfailed, -⟩
  · exact hlive
  · exact absurd hphase (hfault fault)
  · exact absurd hfailed.phase (herror error)

section Acknowledge

variable {r : Run σ α κ β} {signal : Signal} {slot : Slot}
  (hslot : r.inFlight.get? signal.taskNo = some slot)
include hslot

/-- The signal of a task that has failed makes the run fail. -/
theorem acknowledge_failed (hfailed : signal.failed = true) :
    (r.acknowledge signal).HasFailed (.taskFailed signal.taskNo slot.label
      (causeOf (r.takeOutcome signal.taskNo).1 signal)) r.executor := by
  obtain ⟨found, buffered, outcomes, htake⟩ := r.takeOutcome_eq signal.taskNo
  simp only [acknowledge, hslot, if_pos hfailed, htake]
  exact (hasFailed_fail _ _).release slot.permit

/-- The signal of a task that has too many units makes the run fail. -/
theorem acknowledge_refused {refused : ProgressOverflow} (hpasses : signal.failed = false)
    (hadvance : r.progress.advance signal.amount = .error refused) :
    (r.acknowledge signal).HasFailed
      (.anomaly r.runId (.tooManyUnits signal.taskNo refused)) r.executor := by
  simp only [acknowledge, hslot, hpasses, Bool.false_eq_true, if_false, hadvance]
  exact (hasFailed_fail _ _).release slot.permit

/-- The signal of a task that has succeeded is acknowledged with its outcome. -/
theorem acknowledge_passed {progress : Progress} {outcome : Outcome κ β}
    {part : Option (Tally κ β)} {buffered : SortedMap Nat (Outcome κ β)}
    {outcomes : List (Outcome κ β)} (hpasses : signal.failed = false)
    (hadvance : r.progress.advance signal.amount = .ok progress)
    (htake : r.takeOutcome signal.taskNo =
      (some outcome, { r with buffered, commons := { r.commons with outcomes } }))
    (hpart : outcome.result = .ok part) :
    r.acknowledge signal = { r with
      semaphore := r.semaphore.release slot.permit
      inFlight := r.inFlight.erase signal.taskNo
      progress
      buffered
      commons := { r.commons with outcomes }
      phase := .filling (some ⟨signal.taskNo, slot.label, signal.amount, progress, part⟩) } := by
  obtain ⟨found, buffered', outcomes', hsame⟩ := r.takeOutcome_eq signal.taskNo
  obtain ⟨rfl, hrest⟩ := Prod.mk.inj ((hsame r rfl rfl).symm.trans htake)
  obtain rfl : buffered' = buffered := congrArg Run.buffered hrest
  obtain rfl : outcomes' = outcomes := congrArg (·.commons.outcomes) hrest
  simp only [acknowledge, hslot, hpasses, Bool.false_eq_true, if_false, hadvance, hsame,
    Option.map_some, hpart, release]

end Acknowledge

variable [TransOrd κ] [Mergeable β] [Workload α]

/-- The tasks that were submitted, in turn: those that are done and acknowledged, the one whose
signal is awaited, and those that are queued. -/
structure InTurn (plan : Plan α κ β) (done : List (Task α)) (hand : Option (Task α))
    (queue : List (Task α)) (r : Run Broker α κ β) : Prop where
  submitted : plan.tasks.take r.nextTaskNo = done ++ (hand.toList ++ queue)
  executor : ∃ closed, r.executor = .sequential queue closed
  seen : r.channel.seen = (done.map (·.no)).reverse
  computed : r.progress.computed = Plan.unitsOfAll done
  /-- A task is in hand as long as its signal is awaited. -/
  awaits : hand.isSome = true ↔ ∃ since, r.phase = .awaiting since
  buffered : r.buffered = .empty
  outcomes : r.commons.outcomes = hand.toList.map plan.outcomeOf
  keeps : ∃ now, Instant.read now.text = .ok now ∧
    r.commons.transport.Keeps plan.channel.queue plan.channel.routingKey
      (hand.toList.map fun t => (plan.signalOf t now).toJson)
  /-- The values of all tasks that have begun are merged, where they are shared. -/
  shared : ∀ shared, r.commons.shared = some shared →
    Tally.empty.mergeEntries ((done ++ hand.toList).flatMap plan.entriesOf) = .ok shared.tally

namespace InTurn

variable {plan : Plan α κ β} {told : List (Completion κ β)} {begun done queue : List (Task α)}
  {hand : Option (Task α)} {task : Task α} {r r' : Run Broker α κ β}

/-- The tasks that are done were acknowledged one after the other. -/
theorem map_no_done (hlive : r.Live plan told begun) (h : r.InTurn plan done hand queue) :
    (told ++ r.current).map (·.taskNo) = done.map (·.no) := by
  have hseen := hlive.ledger.seen_eq.symm.trans h.seen
  exact List.reverse_injective hseen

/-- Every task that was submitted is done, in hand or queued. -/
theorem nextTaskNo_eq (hlive : r.Live plan told begun) (h : r.InTurn plan done hand queue) :
    r.nextTaskNo = done.length + (hand.toList.length + queue.length) := by
  have hsubmitted := congrArg List.length h.submitted
  have hle := hlive.ledger.le_length
  simp only [List.length_take, List.length_append, Plan.length_tasks] at hsubmitted
  omega

/-- What is in hand or queued is in flight. -/
theorem size_inFlight (hlive : r.Live plan told begun) (h : r.InTurn plan done hand queue) :
    r.inFlight.size = hand.toList.length + queue.length := by
  have hsize := hlive.ledger.size
  have hdone := congrArg List.length (h.map_no_done hlive)
  have hsubmitted := h.nextTaskNo_eq hlive
  simp only [List.length_map, List.length_append] at hdone hsize
  omega

/-- The task in hand is one of the plan, was submitted, and its signal has not passed. -/
theorem of_hand (h : r.InTurn plan done (some task) queue) :
    task ∈ plan.tasks ∧ task.no < r.nextTaskNo ∧ task.no ∉ r.channel.seen := by
  have hmem : task ∈ plan.tasks.take r.nextTaskNo := by rw [h.submitted]; simp
  have hnos : (plan.tasks.take r.nextTaskNo).map (·.no) =
      List.range (min r.nextTaskNo plan.args.length) := by
    rw [List.map_take, plan.map_no_tasks, List.take_range]
  refine ⟨List.mem_of_mem_take hmem, ?_, ?_⟩
  · have hno : task.no ∈ List.range (min r.nextTaskNo plan.args.length) :=
      hnos ▸ List.mem_map_of_mem hmem
    rw [List.mem_range] at hno
    omega
  · have hnodup : ((plan.tasks.take r.nextTaskNo).map (·.no)).Nodup := hnos ▸ List.nodup_range
    rw [h.submitted] at hnodup
    rw [h.seen, List.mem_reverse]
    simp only [List.map_append, Option.toList_some, List.map_cons, List.cons_append,
      List.nil_append, List.nodup_append] at hnodup
    exact fun hdone => hnodup.2.2 _ hdone _ List.mem_cons_self rfl

/-- The signal of the task in hand is the next payload, and it passes. -/
theorem exists_receive (hfits : plan.Fits) (hlive : r.Live plan told begun)
    (h : r.InTurn plan done (some task) queue) :
    ∃ now payload transport, Instant.read now.text = .ok now ∧
      Transport.receive r.channel.queue r.commons.transport = (.payload payload, transport) ∧
        transport.Keeps plan.channel.queue plan.channel.routingKey [] ∧
        r.channel.examine payload = (.passed (plan.signalOf task now),
          { r.channel with seen := task.no :: r.channel.seen }) := by
  obtain ⟨now, hnow, hkeeps⟩ := h.keeps
  obtain ⟨transport, hreceive, hnext⟩ := Broker.Keeps.exists_receive hkeeps
  obtain ⟨ht, -, hnew⟩ := h.of_hand
  obtain ⟨hrun, hno, -⟩ := plan.signalOf_spec task now
  rw [← hlive.ledger.queue_eq] at hreceive
  have hpassed : (r.channel.examine (plan.signalOf task now).toJson).1 =
      .passed (plan.signalOf task now) := by
    rw [Channel.examine_of_decode (Plan.decode_signalOf hfits ht hnow)
      (hrun.trans hlive.ledger.runId_eq.symm), hno, if_neg hnew]
  refine ⟨now, _, transport, hnow, hreceive, hnext, ?_⟩
  rw [(Channel.examine_of_passed hpassed).1, hno]

/-- The outcome of the task in hand is the only one that was sent. -/
theorem takeOutcome_eq (h : r.InTurn plan done (some task) queue) {r₁ : Run Broker α κ β}
    (hbuffered : r₁.buffered = r.buffered) (houtcomes : r₁.commons.outcomes = r.commons.outcomes) :
    r₁.takeOutcome task.no = (some (plan.outcomeOf task),
      { r₁ with buffered := .empty, commons := { r₁.commons with outcomes := [] } }) := by
  have hno : (plan.outcomeOf task).taskNo = task.no := rfl
  have hone : r₁.commons.outcomes = [plan.outcomeOf task] := houtcomes.trans h.outcomes
  simp only [takeOutcome, hbuffered.trans h.buffered, SortedMap.get?_empty, hone, takeSent, hno,
    if_true]

/-- What the control node does with a task in hand: it fails with the task, or acknowledges it. -/
theorem control?_cases (hfits : plan.Fits) (hlive : r.Live plan told begun)
    (h : r.InTurn plan done (some task) queue) :
    ∃ r', r.control? = some r' ∧
      ((∃ cause, (plan.work task).verdict.result = .error cause ∧
          r'.HasFailed (.taskFailed task.no (Workload.label task.args) cause) r.executor) ∨
        (∃ part, (plan.work task).verdict.result = .ok part ∧
          plan.total < r.progress.computed + Workload.units task.args ∧
          r'.HasFailed (.anomaly plan.channel.runId (.tooManyUnits task.no
            ⟨r.progress.computed, plan.total, Workload.units task.args⟩)) r.executor) ∨
        (∃ completion, r'.phase = .filling (some completion)) ∧
          r'.InTurn plan (done ++ [task]) none queue) := by
  obtain ⟨since, hphase⟩ := h.awaits.1 rfl
  obtain ⟨now, payload, transport, hnow, hreceive, hkeeps, hexamine⟩ :=
    h.exists_receive hfits hlive
  obtain ⟨ht, hlt, hnew⟩ := h.of_hand
  obtain ⟨-, hno, -, hfailed, hamount⟩ := plan.signalOf_spec task now
  have hslot : r.inFlight.get? task.no = some ⟨Workload.label task.args, ⟨⟩⟩ := by
    rw [hlive.ledger.inFlight]
    exact ⟨hlt, fun hacked => hnew (hlive.ledger.mem_seen_iff.2 hacked),
      by rw [Plan.args_mem ht]; rfl⟩
  have hcontrol : r.control? = some (({ r with
      commons := { r.commons with transport }
      channel := { r.channel with seen := task.no :: r.channel.seen } } :
        Run Broker α κ β).acknowledge (plan.signalOf task now)) := by
    simp only [control?, hphase, hreceive, receive, hexamine]
  refine ⟨_, hcontrol, ?_⟩
  -- what follows depends on the signal and on the outcome, not on how the signal was received
  generalize hr₁ : ({ r with
      commons := { r.commons with transport }
      channel := { r.channel with seen := task.no :: r.channel.seen } } : Run Broker α κ β) = r₁
  have hslot₁ : r₁.inFlight.get? (plan.signalOf task now).taskNo =
      some ⟨Workload.label task.args, ⟨⟩⟩ := by rw [hno, ← hr₁, hslot]
  have hbuffered : r₁.buffered = r.buffered := hr₁ ▸ rfl
  have htake := h.takeOutcome_eq hbuffered (hr₁ ▸ rfl)
  cases hresult : (plan.work task).verdict.result with
  | error cause =>
    have hfails : plan.succeeds task = false :=
      (Verdict.failsWith_of_result hresult).succeeds_eq
    have hcause : (plan.outcomeOf task).result = .error cause := Plan.resultOf_error hresult
    have hrun := acknowledge_failed hslot₁ (by rw [hfailed, hfails]; rfl)
    rw [hno, htake] at hrun
    simp only [causeOf, Option.map_some, hcause] at hrun
    exact .inl ⟨cause, rfl, hr₁ ▸ hrun⟩
  | ok part =>
    have hsucceeds : plan.succeeds task = true := Verdict.succeeds_iff.2 ⟨part, hresult⟩
    rw [hsucceeds] at hfailed hamount
    cases hadvance : r₁.progress.advance (plan.signalOf task now).amount with
    | error refused =>
      have hrun := acknowledge_refused hslot₁ hfailed hadvance
      have hless := Progress.lt_of_advance hadvance
      rw [Progress.refused_of_advance hadvance, hno] at hrun
      subst hr₁
      rw [hamount, if_pos rfl, hlive.ledger.total] at hless hrun
      exact .inr (.inl ⟨part, rfl, hless, hlive.ledger.runId_eq ▸ hrun⟩)
    | ok progress =>
      have hpart : (plan.outcomeOf task).result = .ok _ := Plan.resultOf_ok hresult
      have hcounted := Progress.computed_of_advance hadvance
      rw [acknowledge_passed hslot₁ hfailed hadvance (hno ▸ htake) hpart]
      subst hr₁
      refine .inr (.inr ⟨⟨_, rfl⟩, ?_⟩)
      exact {
        submitted := by simpa using h.submitted
        executor := h.executor
        seen := by simp [h.seen]
        computed := by
          rw [hcounted, hamount, if_pos rfl, h.computed]
          simp [Plan.unitsOfAll]
        awaits := by simp
        buffered := rfl
        outcomes := rfl
        keeps := ⟨now, hnow, hkeeps⟩
        shared := fun shared hshared => by simpa using h.shared shared hshared }

/-- Where queued tasks are given a chance to run, the first of them is run, if there is one. -/
theorem drive_cases (hlive : r.Live plan told begun) (h : r.InTurn plan done none queue)
    (hmerge : ∀ task rest shared, queue = task :: rest → r.commons.shared = some shared →
      ∃ tally, shared.tally.mergeEntries (plan.entriesOf task) = .ok tally) :
    (queue = [] ∧ r.executor.drive r.shop r.commons = (none, r.executor, r.commons)) ∨
      ∃ task rest closed commons now, queue = task :: rest ∧ r.executor.driven = [task] ∧
        r.executor.drive r.shop r.commons = (none, .sequential rest closed, commons) ∧
        Instant.read now.text = .ok now ∧ commons.outcomes = [plan.outcomeOf task] ∧
        commons.transport.Keeps plan.channel.queue plan.channel.routingKey
          [(plan.signalOf task now).toJson] ∧
        ∀ shared, commons.shared = some shared →
          Tally.empty.mergeEntries ((done ++ [task]).flatMap plan.entriesOf) =
            .ok shared.tally := by
  obtain ⟨closed, hexecutor⟩ := h.executor
  cases queue with
  | nil => exact .inl ⟨rfl, by rw [hexecutor, Executor.drive]; simp⟩
  | cons task rest =>
    obtain ⟨before, -, hkeeps⟩ := h.keeps
    have hnext : ∀ shared, r.commons.shared = some shared →
        ∃ tally, shared.tally.mergeEntries (plan.entriesOf task) = .ok tally :=
      fun shared => hmerge task rest shared rfl
    obtain ⟨commons, now, hrun, hnow, houtcomes, hkeeps', hmerged⟩ := Worker.runTask_spec
      hlive.ledger.sound.wanted hlive.ledger.sound.shares hkeeps hnext
    refine .inr ⟨task, rest, closed, commons, now, rfl, by rw [hexecutor]; rfl, ?_, hnow, ?_,
      hkeeps', ?_⟩
    · rw [hexecutor, hlive.ledger.shop, Executor.drive]
      have hrun' : Worker.runTask plan.shop task r.commons = (none, commons) := hrun
      simp only [hrun']
    · exact houtcomes.trans (by rw [Executor.floor, h.outcomes]; rfl)
    · intro shared hshared
      obtain ⟨shared₀, hshared₀, hentries⟩ := hmerged shared hshared
      have hbefore := h.shared shared₀ hshared₀
      rw [Option.toList_none, List.append_nil] at hbefore
      rw [List.flatMap_append, Tally.mergeEntries_append hbefore]
      simpa using hentries

/-- One more task is queued. -/
theorem submit (hlive : r.Live plan told begun) (h : r.InTurn plan done none queue) {args : α}
    {rest : List α} {executor : Executor α κ β} (hstate : r.state.acceptsTasks = true)
    (hpending : r.pending = args :: rest)
    (hsubmit : r.executor.submit ⟨r.nextTaskNo, args, r.monitor.forTask r.nextTaskNo⟩ =
      .ok executor) (semaphore : Semaphore) (inFlight : SortedMap Nat Slot) (peak : Nat) :
    ({ r with
      pending := rest, semaphore, nextTaskNo := r.nextTaskNo + 1, executor, inFlight, peak } :
        Run Broker α κ β).InTurn plan done none (queue ++ [plan.taskOf r.nextTaskNo args]) := by
  obtain ⟨closed, hexecutor⟩ := h.executor
  have hopen : closed = false := by
    have haccepts := hlive.accepts.trans hstate
    rw [hexecutor] at haccepts
    simpa [Executor.accepts] using haccepts
  have htask : plan.tasks[r.nextTaskNo]? = some (plan.taskOf r.nextTaskNo args) := by
    have hdrop := hpending.symm.trans hlive.ledger.pending
    rw [Plan.tasks, List.getElem?_mapIdx, ← List.head?_drop, ← hdrop]
    rfl
  refine { h with submitted := ?_, executor := ⟨false, ?_⟩ }
  · rw [List.take_add_one, h.submitted, htask]
    simp
  · rw [hexecutor, hopen, hlive.ledger.monitor] at hsubmit
    exact (Except.ok.inj hsubmit).symm

/-- With nothing in flight although no task can be submitted, all tasks are done. -/
theorem done_eq (hlimit : 0 < plan.limit) (hlive : r.Live plan told begun)
    (h : r.InTurn plan done hand queue) (hfull : r.IsFull)
    (hnone : r.inFlight.isEmpty = true) : done = plan.tasks ∧ hand = none ∧ queue = [] := by
  have hsize := h.size_inFlight hlive
  rw [SortedMap.isEmpty_iff_size.1 hnone] at hsize
  have hhand : hand.toList = [] := List.eq_nil_of_length_eq_zero (by omega)
  have hqueue : queue = [] := List.eq_nil_of_length_eq_zero (by omega)
  have hall := hlive.ledger.nextTaskNo_eq (hlive.ledger.pending_eq_nil hlimit hfull hnone)
  have hsubmitted := h.submitted
  rw [hall, ← plan.length_tasks, List.take_length, hhand, hqueue, List.append_nil,
    List.append_nil] at hsubmitted
  exact ⟨hsubmitted.symm, Option.toList_eq_nil_iff.1 hhand, hqueue⟩

/-- The next task is run before the control node waits; a run that is done has none left to run. -/
theorem drive (hlive : r.Live plan told begun) (h : r.InTurn plan done none queue)
    (hmerge : ∀ task rest shared, queue = task :: rest → r.commons.shared = some shared →
      ∃ tally, shared.tally.mergeEntries (plan.entriesOf task) = .ok tally)
    {executor : Executor α κ β} {commons : Commons Broker κ β} {phase : Phase κ β}
    (hphase : (r.phase = .deciding ∧ r.inFlight.isEmpty = false ∧ phase = .awaiting commons.clock) ∨
      ∃ last, r.phase = .joining last ∧ phase = r.phase)
    (hdrive : r.executor.drive r.shop r.commons = (none, executor, commons)) :
    ∃ hand queue', r.begins .control = hand.toList ∧
      ({ r with executor, commons, phase } : Run Broker α κ β).InTurn plan done hand queue' := by
  have hsize := h.size_inFlight hlive
  rcases h.drive_cases hlive hmerge with ⟨rfl, hsame⟩ |
    ⟨task, rest, closed, commons', now, rfl, hdriven, hdrive', hnow, houtcomes, hkeeps, hshared⟩
  · rw [hsame] at hdrive
    obtain ⟨-, hsame⟩ := Prod.mk.inj hdrive
    obtain ⟨rfl, rfl⟩ := Prod.mk.inj hsame
    rcases hphase with ⟨-, hsome, -⟩ | ⟨last, hphase, rfl⟩
    · -- what is in flight would be queued
      rw [← Bool.not_eq_true, SortedMap.isEmpty_iff_size] at hsome
      exact absurd hsize hsome
    · obtain ⟨closed, hexecutor⟩ := h.executor
      have hfinished : r.executor.isFinished = true := by rw [hexecutor]; rfl
      exact ⟨none, [], by simp [begins, drives, hphase, hfinished], h⟩
  · rw [hdrive'] at hdrive
    obtain ⟨-, hsame⟩ := Prod.mk.inj hdrive
    obtain ⟨rfl, rfl⟩ := Prod.mk.inj hsame
    rcases hphase with ⟨hphase, hsome, rfl⟩ | ⟨last, hphase, rfl⟩
    · refine ⟨some task, rest, by simp [begins, drives, hphase, hsome, hdriven], ?_⟩
      exact {
        submitted := by simpa using h.submitted
        executor := ⟨closed, rfl⟩
        seen := h.seen
        computed := h.computed
        awaits := by simp
        buffered := h.buffered
        outcomes := houtcomes
        keeps := ⟨now, hnow, hkeeps⟩
        shared := hshared }
    · -- a run that is done has nothing in flight, and so nothing queued
      have hstaged := hlive.staged
      rw [Staged, hphase] at hstaged
      have hnone := (Bool.and_eq_true_iff.1 hstaged.2.2).2
      rw [SortedMap.isEmpty_iff_size.1 hnone] at hsize
      simp at hsize

/-- What the control node does with no task in hand: it goes on, and takes the next task in hand
before it waits, or it finds that all tasks are done and units are missing. -/
theorem control?_of_none (hlimit : 0 < plan.limit) (hlive : r.Live plan told begun)
    (h : r.InTurn plan done none queue)
    (hmerge : ∀ task rest shared, queue = task :: rest → r.commons.shared = some shared →
      ∃ tally, shared.tally.mergeEntries (plan.entriesOf task) = .ok tally)
    (hmove : r.control? = some r') :
    (∃ hand queue', r'.Live plan told (begun ++ r.begins .control) ∧
        r.begins .control = hand.toList ∧ r'.InTurn plan done hand queue') ∨
      r.phase = .deciding ∧ r.begins .control = [] ∧ done = plan.tasks ∧
        r.progress.computed < plan.total ∧
        r'.HasFailed (.incomplete r.progress.computed plan.total) r.executor := by
  have hfollows := hlive.control? hmove
  have hnothing : ∀ since, r.phase ≠ .awaiting since := fun since hphase => by
    simpa using h.awaits.2 ⟨since, hphase⟩
  cases Run.did_of_control? hmove with
  | submit acknowledged args rest permit semaphore executor hphase hstate _ hpending hsubmit =>
    have hlive' := hfollows.live (by simp [hphase]) (by simp [hphase])
    have hbegins : r.begins .control = [] := by simp [begins, drives, hphase]
    exact .inl ⟨none, _, hlive', hbegins, h.submit hlive hstate hpending hsubmit _ _ _⟩
  | fill hphase hfull =>
    have hlive' := hfollows.live (by simp) (by simp)
    have hbegins : r.begins .control = [] := by simp [begins, drives, hphase]
    exact .inl ⟨none, queue, hlive', hbegins, { h with awaits := by simp }⟩
  | reply completion hphase hfull hopen =>
    have hlive' := hfollows.live (by simp) (by simp)
    have hbegins : r.begins .control = [] := by simp [begins, drives, hphase]
    exact .inl ⟨none, queue, hlive', hbegins, { h with awaits := by simp }⟩
  | finish last hphase hfinished =>
    have hlive' := hfollows.live (by simp [finish]) (by simp [finish])
    have hnone : r.inFlight.isEmpty = true := (Bool.and_eq_true_iff.1 hfinished).2
    have hbegins : r.begins .control = [] := by
      rcases hphase with ⟨hphase, -⟩ | ⟨hphase, -⟩ <;> simp [begins, drives, hphase, hnone]
    obtain ⟨closed, hexecutor⟩ := h.executor
    refine .inl ⟨none, queue, hlive', hbegins,
      { h with awaits := by simp [finish], executor := ?_ }⟩
    exact ⟨true, by rw [finish, hexecutor]; rfl⟩
  | drive executor commons phase hphase hdrive =>
    obtain ⟨hand, queue', hbegins, hnext⟩ := h.drive hlive hmerge hphase hdrive
    refine .inl ⟨hand, queue', hfollows.live ?_ ?_, hbegins, hnext⟩ <;>
      rcases hphase with ⟨-, -, rfl⟩ | ⟨last, hphase, rfl⟩ <;> simp [*]
  | crash fault executor commons hphase hdrive =>
    rcases h.drive_cases hlive hmerge with ⟨-, hsame⟩ | ⟨_, _, _, _, _, -, -, hsame, -⟩ <;>
      · rw [hsame] at hdrive
        cases hdrive
  | join last hphase hfinished =>
    have hlive' := hfollows.live (by simp [note]) (by simp [note])
    have hbegins : r.begins .control = [] := by simp [begins, drives, hphase, hfinished]
    exact .inl ⟨none, queue, hlive', hbegins, { h with awaits := by simp [note] }⟩
  | drop since _ _ hphase => exact absurd hphase (hnothing since)
  | acknowledge since signal slot outcome part progress _ _ _ _ hphase =>
    exact absurd hphase (hnothing since)
  | fail error r' hphase hfailed =>
    rcases hfollows with ⟨hlive', -⟩ | ⟨fault, hcrashed, -⟩ | ⟨error', hfailed', hrefuses⟩
    · have hstaged := hlive'.staged
      rw [Staged, hfailed.phase] at hstaged
      exact hstaged.elim
    · rw [hfailed.phase] at hcrashed
      cases hcrashed
    · cases hrefuses with
      | submission acknowledged args rest _ _ hpending _ hsubmit =>
        obtain ⟨closed, hexecutor⟩ := h.executor
        rw [hexecutor] at hsubmit
        cases hsubmit
      | incomplete hphase hnone hmissing =>
        obtain ⟨-, -, hfull⟩ := hlive.of_deciding hphase
        obtain ⟨hdone, -⟩ := h.done_eq hlimit hlive hfull hnone
        rw [hlive.ledger.total] at hfailed'
        refine .inr ⟨hphase, by simp [begins, drives, hphase, hnone], hdone, ?_, hfailed'⟩
        -- units are missing, and never too many are counted
        have hle := r.progress.computed_le
        have hne : r.progress.computed ≠ r.progress.total := by
          simpa [Progress.isComplete] using hmissing
        rw [← hlive.ledger.total]
        omega
      | closed since _ hphase => exact absurd hphase (hnothing since)
      | payload since _ _ _ hphase => exact absurd hphase (hnothing since)
      | signal since _ _ _ _ hphase => exact absurd hphase (hnothing since)
      | timeout since _ hphase => exact absurd hphase (hnothing since)

/-- A signal that is awaited is there, so that waiting never ends without it. -/
theorem expire?_eq_none (hfits : plan.Fits) (hlive : r.Live plan told begun)
    (h : r.InTurn plan done hand queue) : r.expire? = none := by
  rw [expire?]
  split
  · next since milliseconds hphase _ =>
    obtain ⟨task, rfl⟩ := Option.isSome_iff_exists.1 (h.awaits.2 ⟨since, hphase⟩)
    obtain ⟨now, payload, transport, -, hreceive, -⟩ := h.exists_receive hfits hlive
    rw [hreceive]
  · rfl

/-- The caller asks for the next completion after it was told one. -/
theorem ask (h : r.InTurn plan done hand queue) {completion : Completion κ β}
    (hphase : r.phase = .replied (.ok (some completion))) :
    hand = none ∧ r.ask.InTurn plan done none queue := by
  obtain rfl : hand = none := by
    rw [← Option.not_isSome_iff_eq_none, h.awaits, hphase]
    simp
  refine ⟨rfl, ?_⟩
  cases hstate : r.state with
  | filling | draining | done | aborted =>
    simp only [Run.ask, hphase, hstate]
    exact { h with awaits := by simp }

end InTurn

end Run

end BatchRun
