import BatchRun.Proofs.Run.Ledger
import BatchRun.Proofs.Signal.Channel

/-!
# Runs that are under way, and how they end

A run is live as long as it has neither failed nor crashed. What the control node does next
depends on its phase; every step of it keeps a live run live, or gives one of a few reasons for
the end of the run. What a transport delivers is not trusted anywhere: a payload is one of the
things that may come, and whatever it says, the ledger stays true.

## Main definitions

* `Run.Staged`: what is true in each phase
* `Run.Live`: the ledger of a run, and its phase
* `Run.Refuses`: the reasons for an error

## Main results

* `Live.move`: a move keeps a run live, or ends it for one of these reasons
* `Live.ask`: so does a question of the caller
-/

namespace BatchRun

open Std

variable {σ α κ β : Type} [Ord κ]

namespace Run

/-- The completion that the caller of a run is being told. -/
def current (r : Run σ α κ β) : List (Completion κ β) :=
  match r.phase with
  | .filling acknowledged => acknowledged.toList
  | .joining last => last.toList
  | .replied (.ok last) => last.toList
  | _ => []

/-- A question changes nothing but the phase. -/
theorem ask_eq (r : Run σ α κ β) : ∃ phase, r.ask = { r with phase } := by
  rw [ask]
  split
  · exact ⟨r.phase, rfl⟩
  all_goals exact ⟨_, rfl⟩

/-- There is no task left to submit, or no permit for it. -/
def IsFull (r : Run σ α κ β) : Prop := r.pending = [] ∨ r.semaphore.permits = 0

/-- What is true in each phase of a run that has not failed. -/
def Staged (r : Run σ α κ β) : Prop :=
  match r.phase with
  | .resting | .filling none => r.state = .filling
  | .filling (some _) => r.state = .draining
  | .deciding | .awaiting _ => r.state = .draining ∧ r.IsFull
  | .joining _ | .replied (.ok none) => r.state = .done ∧ r.IsFull ∧ r.isFinished = true
  | .replied (.ok (some _)) =>
    r.IsFull ∧ (r.state = .draining ∧ r.isFinished = false ∨
      r.state = .done ∧ r.isFinished = true)
  | .replied (.error _) | .crashed _ => False

/-- A run that has neither failed nor crashed, after the completions that its caller was told and
the tasks that have begun. -/
structure Live [Workload α] [TransOrd κ] [Mergeable β] (plan : Plan α κ β)
    (told : List (Completion κ β)) (begun : List (Task α)) (r : Run σ α κ β) : Prop where
  ledger : r.Ledger plan (told ++ r.current) begun
  staged : r.Staged
  accepts : r.executor.accepts = r.state.acceptsTasks

/-- Why a signal is not acknowledged, or why the run fails with it. -/
inductive Rejects (r : Run σ α κ β) (signal : Signal) : RunError → Prop
  | notInFlight (hnone : r.inFlight.get? signal.taskNo = none) :
      Rejects r signal (.anomaly r.runId (.notInFlight signal.taskNo))
  | failed (slot : Slot) (hslot : r.inFlight.get? signal.taskNo = some slot)
      (hfailed : signal.failed = true) :
      Rejects r signal
        (.taskFailed signal.taskNo slot.label (causeOf (r.takeOutcome signal.taskNo).1 signal))
  | tooManyUnits (slot : Slot) (refused : ProgressOverflow)
      (hslot : r.inFlight.get? signal.taskNo = some slot) (hfailed : signal.failed = false)
      (hadvance : r.progress.advance signal.amount = .error refused) :
      Rejects r signal (.anomaly r.runId (.tooManyUnits signal.taskNo refused))
  | withoutResult (slot : Slot) (hslot : r.inFlight.get? signal.taskNo = some slot)
      (hfailed : signal.failed = false) (hnone : (r.takeOutcome signal.taskNo).1 = none) :
      Rejects r signal (.anomaly r.runId (.withoutResult signal.taskNo))
  | failedOutcome (slot : Slot) (outcome : Outcome κ β) (cause : Cause)
      (hslot : r.inFlight.get? signal.taskNo = some slot) (hfailed : signal.failed = false)
      (houtcome : (r.takeOutcome signal.taskNo).1 = some outcome)
      (hcause : outcome.result = .error cause) :
      Rejects r signal (.taskFailed signal.taskNo slot.label cause)

/-- Why a run fails. -/
inductive Refuses [Transport σ] [Workload α] (r : Run σ α κ β) : RunError → Prop
  /-- The executor does not accept a task. -/
  | submission (acknowledged : Option (Completion κ β)) (args : α) (rest : List α)
      (error : RunError) (hphase : r.phase = .filling acknowledged)
      (hpending : r.pending = args :: rest) (hpermit : r.semaphore.permits ≠ 0)
      (hsubmit : r.executor.submit ⟨r.nextTaskNo, args, r.monitor.forTask r.nextTaskNo⟩ =
        .error error) : Refuses r error
  /-- All tasks are acknowledged, and units are missing. -/
  | incomplete (hphase : r.phase = .deciding) (hnone : r.inFlight.isEmpty = true)
      (hmissing : r.progress.isComplete = false) :
      Refuses r (.incomplete r.progress.computed r.progress.total)
  | closed (since : Nat) (transport : σ) (hphase : r.phase = .awaiting since)
      (hreceive : Transport.receive r.channel.queue r.commons.transport =
        (.closed, transport)) :
      Refuses r (.transport (.queueClosed r.channel.queue))
  /-- A payload is no signal of the run. -/
  | payload (since : Nat) (payload : Json) (transport : σ) (error : RunError)
      (hphase : r.phase = .awaiting since)
      (hreceive : Transport.receive r.channel.queue r.commons.transport =
        (.payload payload, transport))
      (hrefused : (r.channel.examine payload).1 = .refused error) : Refuses r error
  | signal (since : Nat) (payload : Json) (transport : σ) (signal : Signal) (error : RunError)
      (hphase : r.phase = .awaiting since)
      (hreceive : Transport.receive r.channel.queue r.commons.transport =
        (.payload payload, transport))
      (hpassed : (r.channel.examine payload).1 = .passed signal)
      (hrejects : r.Rejects signal error) : Refuses r error
  | timeout (since milliseconds : Nat) (hphase : r.phase = .awaiting since)
      (htimeout : r.channel.timeout = some milliseconds) :
      Refuses r (r.channel.timeoutError milliseconds)

/-- What is left of a run that has failed, given the executor that it had. -/
structure HasFailed (r : Run σ α κ β) (error : RunError) (executor : Executor α κ β) : Prop where
  phase : r.phase = .replied (.error error)
  state : r.state = .aborted
  executor : r.executor = executor.abort
  inFlight : r.inFlight = .empty
  buffered : r.buffered = .empty
  shows : r.showsShared = false

theorem hasFailed_fail (r : Run σ α κ β) (error : RunError) :
    (r.fail error).HasFailed error r.executor :=
  ⟨rfl, rfl, rfl, rfl, rfl, rfl⟩

/-- A permit that a failed run gets back changes nothing else. -/
theorem HasFailed.release {r : Run σ α κ β} {error : RunError} {executor : Executor α κ β}
    (h : r.HasFailed error executor) (permit : Permit) :
    (r.release permit).HasFailed error executor :=
  ⟨h.phase, h.state, h.executor, h.inFlight, h.buffered, h.shows⟩

/-- The numbers of the tasks whose outcomes were sent, as far as the control node can find out:
they wait to be taken, were put aside, or their signals have passed. -/
def reported (r : Run σ α κ β) : List Nat :=
  (r.commons.outcomes ++ r.buffered.values).map (·.taskNo) ++ r.channel.seen

/-- What a payload has counted for in a live run: nothing, or the units that the signal in it
reports. -/
def Counted (payload : Json) (r r' : Run σ α κ β) : Prop :=
  r'.progress = r.progress ∧ r'.channel.seen = r.channel.seen ∨
    ∃ signal, (r.channel.examine payload).1 = .passed signal ∧ signal.failed = false ∧
      r'.progress.computed = r.progress.computed + signal.amount ∧
      r'.channel.seen = signal.taskNo :: r.channel.seen

/-- What a live run does with what it shares with its workers and with the transport: workers do
steps, nothing is done, or a payload is received. -/
inductive Turn [Transport σ] [Workload α] [TransOrd κ] [Mergeable β] (r r' : Run σ α κ β) : Prop
  | steps (new : List (Task α))
      (hrow : Floor.Steps r.shop (r.executor.floor r.commons) new (r'.executor.floor r'.commons))
      (hbuffered : r'.buffered = r.buffered) (hchannel : r'.channel = r.channel)
      (hprogress : r'.progress = r.progress)
  | idle (hcommons : r'.commons = r.commons) (hbuffered : r'.buffered = r.buffered)
      (hchannel : r'.channel = r.channel) (hprogress : r'.progress = r.progress)
      (hlost : r'.executor.hasLost = r.executor.hasLost)
  | received (payload : Json)
      (hreceive : Transport.receive r.channel.queue r.commons.transport =
        (.payload payload, r'.commons.transport))
      (hreported : r.reported ⊆ r'.reported) (hcounted : Counted payload r r')
      (hlost : r'.executor.hasLost = r.executor.hasLost)

/-- A merge faults on the control node when queued tasks are given a chance to run. -/
def Faults [Transport σ] [Workload α] [TransOrd κ] [Mergeable β] (r : Run σ α κ β)
    (fault : Fault) : Prop :=
  ∃ executor commons, r.executor.drive r.shop r.commons = (some fault, executor, commons)

/-- How a live run may have gone on: it is still live, a fault ended it, or it has failed for a
reason. -/
def Follows [Transport σ] [Workload α] [TransOrd κ] [Mergeable β] (plan : Plan α κ β)
    (told : List (Completion κ β)) (begun : List (Task α)) (r r' : Run σ α κ β) : Prop :=
  (r'.Live plan told begun ∧ r.Turn r') ∨
    (∃ fault, r'.phase = .crashed fault ∧ r.Faults fault) ∨
    ∃ error, r'.HasFailed error r.executor ∧ r.Refuses error

/-- One more task is submitted, with the permit that was taken for it, unless the run is full. -/
theorem fill_cases [Workload α] (r : Run σ α κ β) (acknowledged : Option (Completion κ β)) :
    ((r.state.acceptsTasks = true → r.IsFull) ∧ r.fill acknowledged = r.filled acknowledged) ∨
      ∃ permit semaphore args rest, r.state.acceptsTasks = true ∧
        r.semaphore.acquire = some (permit, semaphore) ∧ r.pending = args :: rest ∧
        r.fill acknowledged =
          ({ r with semaphore, pending := rest } : Run σ α κ β).submit args permit := by
  rw [fill]
  split
  · next hstate =>
    split
    · next hnone => exact .inl ⟨fun _ => .inr (Semaphore.acquire_eq_none_iff.1 hnone), rfl⟩
    · next permit semaphore hacquire =>
      simp only
      split
      · next hpending =>
        -- the permit that was taken for nothing is back
        rw [release, Semaphore.release_of_acquire hacquire]
        exact .inl ⟨fun _ => .inl hpending, rfl⟩
      · next args rest hpending =>
        exact .inr ⟨permit, semaphore, args, rest, hstate, hacquire, hpending, rfl⟩
  · next hclosed => exact .inl ⟨fun hstate => absurd hstate hclosed, rfl⟩

theorem turn_filled [Transport σ] [Workload α] [TransOrd κ] [Mergeable β] (r : Run σ α κ β)
    (acknowledged : Option (Completion κ β)) : r.Turn (r.filled acknowledged) := by
  cases acknowledged with
  | none => exact .idle rfl rfl rfl rfl rfl
  | some completion =>
    rw [filled]
    split
    · exact .idle rfl rfl rfl rfl r.executor.hasLost_close
    · exact .idle rfl rfl rfl rfl rfl

namespace Live

variable [Workload α] [TransOrd κ] [Mergeable β] {plan : Plan α κ β}
  {told : List (Completion κ β)} {begun : List (Task α)} {r : Run σ α κ β}

/-- With no completion to tell, the ledger is that of what the caller was told. -/
theorem ledger_of_current (h : r.Live plan told begun) (hcurrent : r.current = []) :
    r.Ledger plan told begun := by
  have hledger := h.ledger
  rw [hcurrent, List.append_nil] at hledger
  exact hledger

/-- A run that waits for a signal has told everything it knows. -/
theorem of_awaiting (h : r.Live plan told begun) {since : Nat}
    (hphase : r.phase = .awaiting since) :
    r.Ledger plan told begun ∧ r.state = .draining ∧ r.IsFull := by
  refine ⟨h.ledger_of_current (by rw [current, hphase]), ?_⟩
  have hstaged := h.staged
  rw [Staged, hphase] at hstaged
  exact hstaged

/-- A run that has submitted all it can has told everything it knows. -/
theorem of_deciding (h : r.Live plan told begun) (hphase : r.phase = .deciding) :
    r.Ledger plan told begun ∧ r.state = .draining ∧ r.IsFull := by
  refine ⟨h.ledger_of_current (by rw [current, hphase]), ?_⟩
  have hstaged := h.staged
  rw [Staged, hphase] at hstaged
  exact hstaged

/-- A run that has nothing left to tell is done, with nothing in flight and all units counted. -/
theorem of_told (h : r.Live plan told begun) (hphase : r.phase = .replied (.ok none)) :
    r.Ledger plan told begun ∧ r.state = .done ∧ r.IsFull ∧ r.inFlight.isEmpty = true ∧
      r.progress.computed = plan.total := by
  have hledger := h.ledger_of_current (by rw [current, hphase]; rfl)
  have hstaged := h.staged
  rw [Staged, hphase] at hstaged
  obtain ⟨hstate, hfull, hfinished⟩ := hstaged
  obtain ⟨hcomplete, hnone⟩ := Bool.and_eq_true_iff.1 hfinished
  refine ⟨hledger, hstate, hfull, hnone, ?_⟩
  rw [← hledger.total]
  exact eq_of_beq hcomplete

/-- The control node changes its phase. -/
theorem rephase (h : r.Live plan told begun) (state : RunState) (phase : Phase κ β)
    (journal : List Event)
    (hcurrent : ({ r with state, phase, journal } : Run σ α κ β).current = r.current)
    (hstaged : ({ r with state, phase, journal } : Run σ α κ β).Staged)
    (haccepts : state.acceptsTasks = r.state.acceptsTasks) :
    ({ r with state, phase, journal } : Run σ α κ β).Live plan told begun := by
  refine ⟨?_, hstaged, h.accepts.trans haccepts.symm⟩
  rw [hcurrent]
  exact h.ledger.withPhase state phase journal

/-- The run is done. -/
theorem finish (h : r.Live plan told begun) {last : Option (Completion κ β)}
    (hcurrent : r.current = last.toList) (hfull : r.IsFull) (hfinished : r.isFinished = true) :
    (r.finish last).Live plan told begun := by
  refine ⟨?_, ⟨rfl, hfull, hfinished⟩, (r.executor.floor_of_close r.commons).2.1⟩
  have hledger := h.ledger.close.withPhase .done (.joining last) r.journal
  rw [hcurrent] at hledger
  exact hledger

/-- Tasks are accepted as long as there is room to fill. -/
theorem acceptsTasks (h : r.Live plan told begun) {acknowledged : Option (Completion κ β)}
    (hphase : r.phase = .filling acknowledged) : r.state.acceptsTasks = true := by
  have hstaged := h.staged
  rw [Staged, hphase] at hstaged
  cases acknowledged with
  | none =>
    have hstate : r.state = .filling := hstaged
    rw [hstate]
    rfl
  | some completion =>
    have hstate : r.state = .draining := hstaged
    rw [hstate]
    rfl

/-- All tasks that there was room for are submitted. -/
theorem filled (h : r.Live plan told begun) {acknowledged : Option (Completion κ β)}
    (hphase : r.phase = .filling acknowledged) (hfull : r.IsFull) :
    (r.filled acknowledged).Live plan told begun := by
  have hcurrent : r.current = acknowledged.toList := by rw [current, hphase]
  have hstaged := h.staged
  rw [Staged, hphase] at hstaged
  cases acknowledged with
  | none =>
    refine h.rephase .draining .deciding r.journal hcurrent.symm ⟨rfl, hfull⟩ ?_
    rw [show r.state = .filling from hstaged]
    rfl
  | some completion =>
    have hstate : r.state = .draining := hstaged
    rw [Run.filled]
    split
    · next hfinished => exact h.finish hcurrent hfull hfinished
    · next hfinished =>
      refine h.rephase r.state (.replied (.ok (some completion))) r.journal hcurrent.symm ?_ rfl
      exact ⟨hfull, .inl ⟨hstate, eq_false_of_ne_true hfinished⟩⟩

/-- A signal of a task in flight is acknowledged, or rejected. -/
theorem acknowledge (h : r.Live plan told begun) {since : Nat} (hphase : r.phase = .awaiting since)
    (transport : σ) (signal : Signal) :
    let r' := ({ r with
      commons := { r.commons with transport }
      channel := { r.channel with seen := signal.taskNo :: r.channel.seen } } :
        Run σ α κ β).acknowledge signal
    (r'.Live plan told begun ∧ r'.commons.transport = transport ∧ r.reported ⊆ r'.reported ∧
        signal.failed = false ∧ r'.progress.computed = r.progress.computed + signal.amount ∧
        r'.channel.seen = signal.taskNo :: r.channel.seen ∧ r'.executor = r.executor) ∨
      ∃ error, r'.HasFailed error r.executor ∧ r.Rejects signal error := by
  obtain ⟨hledger, hstate, -⟩ := h.of_awaiting hphase
  -- the outcome is taken from a run whose counters have changed, so `htake` leaves those open
  obtain ⟨found, buffered, outcomes, htake, hfiled, hperm, hno, -⟩ :=
    r.takeOutcome_spec signal.taskNo hledger.filed hledger.nodup_outcomes
  have hfound : (r.takeOutcome signal.taskNo).1 = found := by rw [htake r rfl rfl]
  simp only [Run.acknowledge]
  split
  · next hnone => exact .inr ⟨_, hasFailed_fail _ _, .notInFlight hnone⟩
  · next slot hslot =>
    split
    · next hfailed =>
      simp only [htake]
      rw [← hfound]
      exact .inr ⟨_, (hasFailed_fail _ _).release slot.permit, .failed slot hslot hfailed⟩
    · next hfailed =>
      have hfailed' : signal.failed = false := eq_false_of_ne_true hfailed
      split
      · next refused hadvance =>
        exact .inr ⟨_, (hasFailed_fail _ _).release slot.permit,
          .tooManyUnits slot refused hslot hfailed' hadvance⟩
      · next progress hadvance =>
        simp only [htake]
        cases found with
        | none =>
          exact .inr ⟨_, (hasFailed_fail _ _).release slot.permit,
            .withoutResult slot hslot hfailed' hfound⟩
        | some outcome =>
          simp only [Option.map_some]
          cases hresult : outcome.result with
          | error cause =>
            exact .inr ⟨_, (hasFailed_fail _ _).release slot.permit,
              .failedOutcome slot outcome cause hslot hfailed' hfound hresult⟩
          | ok part =>
            refine .inl ⟨⟨?_, hstate, h.accepts⟩, rfl, ?_, hfailed',
              Progress.computed_of_advance hadvance, rfl, rfl⟩
            · exact (hledger.settle hslot hadvance hfiled hperm (hno outcome rfl)
                hresult).withPhase r.state (.filling _) r.journal
            · -- the outcome was among those sent, and its signal has passed now
              have hnos := ((hperm.map (·.taskNo)).append_right r.channel.seen).subset
              rw [Option.toList_some, List.singleton_append, List.map_cons, hno outcome rfl] at hnos
              exact fun no hmem => List.perm_middle.symm.subset (hnos hmem)

variable [Transport σ]

/-- A task is submitted, or the executor refuses it. -/
theorem submit (h : r.Live plan told begun) {acknowledged : Option (Completion κ β)} {args : α}
    {rest : List α} {permit : Permit} {semaphore : Semaphore}
    (hphase : r.phase = .filling acknowledged) (hpending : r.pending = args :: rest)
    (hacquire : r.semaphore.acquire = some (permit, semaphore)) :
    r.Follows plan told begun
      (({ r with semaphore, pending := rest } : Run σ α κ β).submit args permit) := by
  have haccepts := h.acceptsTasks hphase
  have haccepts' : r.executor.accepts = true := h.accepts.trans haccepts
  simp only [Run.submit]
  cases hsubmit : r.executor.submit ⟨r.nextTaskNo, args, r.monitor.forTask r.nextTaskNo⟩ with
  | error error =>
    have hpermit : r.semaphore.permits ≠ 0 := by
      rw [Semaphore.permits_of_acquire hacquire]
      exact Nat.succ_ne_zero _
    exact .inr (.inr ⟨error, (hasFailed_fail _ _).release permit,
      .submission acknowledged args rest error hphase hpending hpermit hsubmit⟩)
  | ok executor =>
    have hledger := h.ledger.submit hpending hacquire haccepts' hsubmit
      (max r.peak (r.inFlight.insert r.nextTaskNo ⟨Workload.label args, permit⟩).size)
    refine .inl ⟨⟨hledger, ?_, ?_⟩, .idle rfl rfl rfl rfl (Executor.hasLost_submit hsubmit)⟩
    · have hstaged := h.staged
      rw [Staged, hphase] at hstaged
      simp only [Staged, hphase]
      cases acknowledged <;> exact hstaged
    · exact (Executor.floor_of_submit r.commons haccepts' hsubmit).2.1.trans haccepts.symm

/-- One more task is submitted if there is a permit for it and work left. -/
theorem fill (h : r.Live plan told begun) {acknowledged : Option (Completion κ β)}
    (hphase : r.phase = .filling acknowledged) :
    r.Follows plan told begun (r.fill acknowledged) := by
  rcases r.fill_cases acknowledged with
    ⟨hfull, heq⟩ | ⟨permit, semaphore, args, rest, -, hacquire, hpending, heq⟩
  · rw [heq]
    exact .inl ⟨h.filled hphase (hfull (h.acceptsTasks hphase)), r.turn_filled acknowledged⟩
  · rw [heq]
    exact h.submit hphase hpending hacquire

/-- Queued tasks are given a chance to run on the control node. -/
theorem driveThen (h : r.Live plan told begun) {next : Run σ α κ β → Phase κ β}
    (hcurrent : ∀ executor commons, ({ r with
      executor, commons, phase := next { r with executor, commons } } : Run σ α κ β).current =
        r.current)
    (hstaged : ∀ executor commons, ({ r with
      executor, commons, phase := next { r with executor, commons } } : Run σ α κ β).Staged) :
    r.Follows plan told (begun ++ r.executor.driven) (r.driveThen next) := by
  rw [Run.driveThen]
  split
  · next fault executor commons hdrive => exact .inr (.inl ⟨fault, rfl, executor, commons, hdrive⟩)
  · next executor commons hdrive =>
    -- without a fault the control node has only done what a worker could have done
    obtain ⟨haccepts, hcancelled, hstaffed⟩ := Executor.staffed_of_drive hdrive
    have hrow := Executor.steps_of_drive hdrive
    refine .inl ⟨⟨?_, hstaged executor commons, haccepts.trans h.accepts⟩,
      .steps _ hrow rfl rfl rfl⟩
    rw [hcurrent]
    exact (h.ledger.steps hrow hcancelled hstaffed).withPhase r.state _ r.journal

/-- With all tasks submitted the run waits, or ends. -/
theorem waitOrEnd (h : r.Live plan told begun) (hphase : r.phase = .deciding) :
    r.Follows plan told (begun ++ if r.inFlight.isEmpty then [] else r.executor.driven)
      r.waitOrEnd := by
  have hcurrent : r.current = [] := by rw [current, hphase]
  obtain ⟨-, hstate, hfull⟩ := h.of_deciding hphase
  rw [Run.waitOrEnd]
  split
  · next hnone =>
    rw [List.append_nil]
    split
    · next hcomplete =>
      have hfinished : r.isFinished = true := by rw [isFinished, hcomplete, hnone]; rfl
      exact .inl ⟨h.finish hcurrent hfull hfinished,
        .idle rfl rfl rfl rfl r.executor.hasLost_close⟩
    · next hmissing =>
      exact .inr (.inr ⟨_, hasFailed_fail _ _,
        .incomplete hphase hnone (eq_false_of_ne_true hmissing)⟩)
  · exact h.driveThen (fun _ _ => hcurrent.symm) fun _ _ => ⟨hstate, hfull⟩

/-- A run that is done waits for its executor. -/
theorem join? (h : r.Live plan told begun) {last : Option (Completion κ β)} {r' : Run σ α κ β}
    (hphase : r.phase = .joining last) (hjoin : r.join? last = some r') :
    r.Follows plan told (begun ++ if r.executor.isFinished then [] else r.executor.driven)
      r' := by
  have hcurrent : r.current = last.toList := by rw [current, hphase]
  have hstaged := h.staged
  rw [Staged, hphase] at hstaged
  rw [Run.join?] at hjoin
  split at hjoin
  · next hfinished =>
    obtain rfl := Option.some.inj hjoin
    rw [if_pos hfinished, List.append_nil]
    refine .inl ⟨h.rephase r.state (.replied (.ok last)) _ hcurrent.symm ?_ rfl,
      .idle rfl rfl rfl rfl rfl⟩
    cases last with
    | none => exact hstaged
    | some completion => exact ⟨hstaged.2.1, .inr ⟨hstaged.1, hstaged.2.2⟩⟩
  · next hbusy =>
    rw [if_neg hbusy]
    split at hjoin
    · obtain rfl := Option.some.inj hjoin
      exact h.driveThen (fun _ _ => hcurrent.symm) fun _ _ => hstaged
    · cases hjoin

/-- A worker does a step. -/
theorem worker? (h : r.Live plan told begun) {index : Nat} {r' : Run σ α κ β}
    (hworker : r.worker? index = some r') :
    r'.Live plan told (begun ++ r.executor.begins index) ∧ r.Turn r' := by
  simp only [Run.worker?, Option.map_eq_some_iff, Prod.exists] at hworker
  obtain ⟨executor, commons, hstep, rfl⟩ := hworker
  -- the ledger is kept by steps of the floor, and nothing else of the run changes
  obtain ⟨haccepts, hcancelled, hstaffed⟩ := Executor.staffed_of_step hstep
  have hrow := Executor.steps_of_step h.ledger.cancelled hstep
  exact ⟨⟨h.ledger.steps hrow hcancelled hstaffed, h.staged, haccepts.trans h.accepts⟩,
    .steps _ hrow rfl rfl rfl⟩

/-- A payload is received. -/
theorem receive (h : r.Live plan told begun) {since : Nat} {payload : Json} {transport : σ}
    (hphase : r.phase = .awaiting since)
    (hreceive : Transport.receive r.channel.queue r.commons.transport =
      (.payload payload, transport)) :
    r.Follows plan told begun
      (({ r with commons := { r.commons with transport } } : Run σ α κ β).receive payload) := by
  obtain ⟨hledger, hstaged⟩ := h.of_awaiting hphase
  simp only [Run.receive]
  split
  · next error channel hexamine =>
    exact .inr (.inr ⟨error, hasFailed_fail _ _, .payload since payload transport error hphase
      hreceive (congrArg Prod.fst hexamine)⟩)
  · next channel hexamine =>
    rw [Channel.examine_of_repeated (congrArg Prod.fst hexamine)] at hexamine
    obtain rfl := (Prod.mk.inj hexamine).2
    refine .inl ⟨⟨?_, hstaged, h.accepts⟩, .received payload hreceive (List.Subset.refl _)
      (.inl ⟨rfl, rfl⟩) rfl⟩
    have hdropped := (hledger.withTransport transport).withDiscarded (r.channel.discarded + 1)
    simpa [current] using hdropped.withPhase r.state (.awaiting r.commons.clock) r.journal
  · next signal channel hexamine =>
    have hpassed : (r.channel.examine payload).1 = .passed signal := congrArg Prod.fst hexamine
    rw [(Channel.examine_of_passed hpassed).1] at hexamine
    obtain rfl := (Prod.mk.inj hexamine).2
    rcases h.acknowledge hphase transport signal with
      ⟨hlive, htransport, hreported, hpasses, hcomputed, hseen, hexecutor⟩ |
        ⟨error, hfailed, hrejects⟩
    · exact .inl ⟨hlive, .received payload
        (hreceive.trans (congrArg (Prod.mk _) htransport.symm)) hreported
        (.inr ⟨signal, hpassed, hpasses, hcomputed, hseen⟩) (congrArg _ hexecutor)⟩
    · exact .inr (.inr ⟨error, hfailed, .signal since payload transport signal error hphase hreceive
        hpassed hrejects⟩)

/-- The control node does a step. -/
theorem control? (h : r.Live plan told begun) {r' : Run σ α κ β} (hmove : r.control? = some r') :
    r.Follows plan told (begun ++ r.begins .control) r' := by
  rw [Run.control?] at hmove
  split at hmove
  · cases hmove
  · cases hmove
  · cases hmove
  · next acknowledged hphase =>
    obtain rfl := Option.some.inj hmove
    simpa [begins, drives, hphase] using h.fill hphase
  · next hphase =>
    obtain rfl := Option.some.inj hmove
    have hbegins : r.begins .control = if r.inFlight.isEmpty then [] else r.executor.driven := by
      by_cases hnone : r.inFlight.isEmpty = true <;> simp [begins, drives, hphase, hnone]
    rw [hbegins]
    exact h.waitOrEnd hphase
  · next since hphase =>
    split at hmove
    · cases hmove
    · next transport hreceive =>
      obtain rfl := Option.some.inj hmove
      exact .inr (.inr ⟨_, hasFailed_fail _ _, .closed since transport hphase hreceive⟩)
    · next payload transport hreceive =>
      obtain rfl := Option.some.inj hmove
      simpa [begins, drives, hphase] using h.receive hphase hreceive
  · next last hphase =>
    have hbegins :
        r.begins .control = if r.executor.isFinished then [] else r.executor.driven := by
      by_cases hfinished : r.executor.isFinished = true <;>
        simp [begins, drives, hphase, hfinished]
    rw [hbegins]
    exact h.join? hphase hmove

/-- A move keeps a run live, or ends it with a fault or an error. -/
theorem move (h : r.Live plan told begun) {m : Move} {r' : Run σ α κ β}
    (hmove : r.move? m = some r') : r.Follows plan told (begun ++ r.begins m) r' := by
  cases m with
  | control => exact h.control? hmove
  | worker index => exact .inl (h.worker? hmove)
  | expire =>
    rw [move?, expire?] at hmove
    split at hmove
    · next since milliseconds hphase htimeout =>
      split at hmove
      · obtain rfl := Option.some.inj hmove
        exact .inr (.inr ⟨_, hasFailed_fail _ _, .timeout since milliseconds hphase htimeout⟩)
      · cases hmove
    · cases hmove

omit [Transport σ] in
/-- The caller asks for the next completion after it was told one. -/
theorem ask (h : r.Live plan told begun) {completion : Completion κ β}
    (hphase : r.phase = .replied (.ok (some completion))) :
    r.ask.Live plan (told ++ [completion]) begun := by
  have hcurrent : r.current = [completion] := by rw [current, hphase]; rfl
  have hledger := h.ledger
  rw [hcurrent] at hledger
  have hstaged := h.staged
  rw [Staged, hphase] at hstaged
  -- after the last completion the run is done already, and has nothing left to tell
  obtain ⟨hfull, ⟨hstate, -⟩ | ⟨hstate, hfinished⟩⟩ := hstaged
  · have hask : r.ask = { r with phase := .deciding } := by simp only [Run.ask, hphase, hstate]
    rw [hask]
    refine ⟨?_, ⟨hstate, hfull⟩, h.accepts⟩
    simpa [current] using hledger.withPhase r.state .deciding r.journal
  · have hask : r.ask = { r with phase := .replied (.ok none) } := by
      simp only [Run.ask, hphase, hstate]
    rw [hask]
    refine ⟨?_, ⟨hstate, hfull, hfinished⟩, h.accepts⟩
    simpa [current] using hledger.withPhase r.state (.replied (.ok none)) r.journal

end Live

end Run

end BatchRun
