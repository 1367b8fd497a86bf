import BatchRun.Proofs.Run.Live

/-!
# What the control node can do

A step of the control node is one of a few. It submits a task, replies, waits or helps out, takes
in a signal, or ends the run in one way or another. Whatever is kept by each of these steps is
kept by the control node, over any transport and any executor: nothing is said here of what
workers do meanwhile, or of what a transport delivers.

Work and permits are accounted for in each of them. A piece of work that is taken is the task that
the executor is given next, and it comes with a permit, which is given back once the task is no
longer in flight.

## Main definitions

* `Run.incoming?`: the signal that the control node takes in next
* `Run.Submits`: the tasks that the executor accepts between two states of a run
* `Run.Balanced`: all permits are accounted for
* `Run.Did`: the steps of the control node

## Main results

* `Run.did_of_control?`: there are no others
* `Run.Did.exists_submits`: each of them submits one task or none
* `Run.Did.balanced`: and keeps account of the permits
-/

namespace BatchRun

open Std

variable {σ α κ β : Type} [Ord κ]

/-- Outcomes are taken from the front. -/
theorem takeSent_suffix (no : Nat) (sent : List (Outcome κ β))
    (aside : SortedMap Nat (Outcome κ β)) : (takeSent no sent aside).2.1 <:+ sent := by
  induction sent generalizing aside with
  | nil => exact List.suffix_rfl
  | cons outcome rest ih =>
    rw [takeSent]
    split
    · exact List.suffix_cons outcome rest
    · exact (ih _).trans (List.suffix_cons outcome rest)

/-- What all outcomes have in common, those that were taken and put aside have as well. -/
theorem forall_of_takeSent {Holds : Outcome κ β → Prop} {no : Nat} {sent sent' : List (Outcome κ β)}
    {aside aside' : SortedMap Nat (Outcome κ β)} {found : Option (Outcome κ β)}
    (hfiled : Filed aside) (hsent : ∀ o ∈ sent, Holds o) (haside : ∀ o ∈ aside.values, Holds o)
    (h : takeSent no sent aside = (found, sent', aside')) :
    (∀ o, found = some o → Holds o ∧ o.taskNo = no) ∧ Filed aside' ∧
      ∀ o ∈ aside'.values, Holds o := by
  induction sent generalizing aside with
  | nil =>
    simp only [takeSent, Prod.mk.injEq] at h
    obtain ⟨rfl, -, rfl⟩ := h
    exact ⟨by simp, hfiled, haside⟩
  | cons outcome rest ih =>
    obtain ⟨houtcome, hrest⟩ := List.forall_mem_cons.1 hsent
    simp only [takeSent] at h
    split at h
    · next hno =>
      obtain ⟨rfl, -, rfl⟩ := h
      exact ⟨fun o ho => Option.some.inj ho ▸ ⟨houtcome, hno⟩, hfiled, haside⟩
    · refine ih (hfiled.insert outcome) hrest (fun o ho => ?_) h
      -- whatever stands under another number was put aside before
      obtain ⟨⟨key, o⟩, hentry, rfl⟩ := List.mem_map.1 ho
      rw [← SortedMap.get?_eq_some_iff] at hentry
      by_cases hkey : key = outcome.taskNo
      · subst hkey
        rw [SortedMap.get?_insert_self] at hentry
        exact Option.some.inj hentry ▸ houtcome
      · rw [SortedMap.get?_insert_of_ne _ hkey] at hentry
        exact haside o (List.mem_map_of_mem (SortedMap.get?_eq_some_iff.1 hentry))

/-- The signal that has passed, if one has. -/
def Admission.signal? : Admission → Option Signal
  | passed signal => some signal
  | repeated | refused _ => none

namespace Run

/-- Looking for an outcome changes nothing but what waits to be taken and what is put aside, and
depends on nothing else. -/
theorem takeOutcome_eq (r : Run σ α κ β) (no : Nat) :
    ∃ found buffered outcomes, ∀ r' : Run σ α κ β, r'.buffered = r.buffered →
      r'.commons.outcomes = r.commons.outcomes →
        r'.takeOutcome no =
          (found, { r' with buffered, commons := { r'.commons with outcomes } }) := by
  cases hget : r.buffered.get? no with
  | some outcome =>
    refine ⟨some outcome, r.buffered.erase no, r.commons.outcomes, fun r' hbuffered houtcomes => ?_⟩
    simp only [takeOutcome, hbuffered, hget, ← houtcomes]
  | none =>
    obtain ⟨⟨found, outcomes, buffered⟩, htake⟩ : ∃ taken, takeSent no r.commons.outcomes
      r.buffered = taken := ⟨_, rfl⟩
    refine ⟨found, buffered, outcomes, fun r' hbuffered houtcomes => ?_⟩
    simp only [takeOutcome, hbuffered, houtcomes, hget, htake]

/-- What all outcomes have in common, the one that is taken and those that are left have as
well. -/
theorem forall_of_takeOutcome {Holds : Outcome κ β → Prop} {r : Run σ α κ β} {no : Nat}
    {outcome : Outcome κ β} {buffered : SortedMap Nat (Outcome κ β)}
    {outcomes : List (Outcome κ β)} (hfiled : Filed r.buffered)
    (hall : ∀ o ∈ r.commons.outcomes ++ r.buffered.values, Holds o)
    (h : r.takeOutcome no =
      (some outcome, { r with buffered, commons := { r.commons with outcomes } })) :
    Holds outcome ∧ outcome.taskNo = no ∧ Filed buffered ∧
      (∀ o ∈ outcomes ++ buffered.values, Holds o) := by
  obtain ⟨hsent, haside⟩ := List.forall_mem_append.1 hall
  rw [takeOutcome] at h
  split at h
  · next o hget =>
    obtain ⟨ho, hr⟩ := Prod.mk.inj h
    obtain rfl := Option.some.inj ho
    obtain rfl := congrArg Run.buffered hr
    obtain rfl := congrArg (·.commons.outcomes) hr
    have hentry := SortedMap.get?_eq_some_iff.1 hget
    exact ⟨haside o (List.mem_map_of_mem hentry), hfiled _ hentry, hfiled.erase no,
      List.forall_mem_append.2 ⟨hsent, fun p hp => haside p
        (List.map_subset _ (List.filter_subset_self _) hp)⟩⟩
  · obtain ⟨hfound, hr⟩ := Prod.mk.inj h
    obtain rfl := congrArg Run.buffered hr
    obtain rfl := congrArg (·.commons.outcomes) hr
    obtain ⟨houtcome, hfiled', haside'⟩ := forall_of_takeSent hfiled hsent haside rfl
    obtain ⟨hholds, hno⟩ := houtcome outcome hfound
    exact ⟨hholds, hno, hfiled', List.forall_mem_append.2
      ⟨fun o ho => hsent o ((takeSent_suffix no _ _).subset ho), haside'⟩⟩

/-- What waits to be taken is taken from the front. -/
theorem takeOutcome_suffix (r : Run σ α κ β) (no : Nat) :
    (r.takeOutcome no).2.commons.outcomes <:+ r.commons.outcomes := by
  rw [takeOutcome]
  split
  · exact List.suffix_rfl
  · exact takeSent_suffix no _ _

/-- All permits are accounted for. -/
structure Balanced (r : Run σ α κ β) : Prop where
  /-- A permit is left to take, or it is held by a task in flight. -/
  permits : r.semaphore.permits + r.inFlight.size = r.limit
  /-- Tasks in flight were submitted. -/
  lt : ∀ no, r.inFlight.get? no ≠ none → no < r.nextTaskNo

/-- The limit is kept. -/
theorem Balanced.size_le {r : Run σ α κ β} (h : r.Balanced) : r.inFlight.size ≤ r.limit := by
  rw [← h.permits]
  exact Nat.le_add_left _ _

/-- A question does not take any permit. -/
theorem Balanced.ask {r : Run σ α κ β} (h : r.Balanced) : r.ask.Balanced := by
  obtain ⟨phase, heq⟩ := r.ask_eq
  rw [heq]
  exact ⟨h.permits, h.lt⟩

variable [TransOrd κ] [Mergeable β] [Transport σ] [Workload α]

/-- The signal that the control node takes in next, if it waits for one and one has come. -/
def incoming? (r : Run σ α κ β) : Option Signal :=
  match r.phase with
  | .awaiting _ =>
    match Transport.receive r.channel.queue r.commons.transport with
    | (.payload payload, _) => (r.channel.examine payload).1.signal?
    | _ => none
  | _ => none

/-- The tasks that the executor accepts between two states of a run. A task is the next piece of
work under the next number, and work is taken only for a task that the executor is given. -/
inductive Submits (r r' : Run σ α κ β) : List (Task α) → Prop
  | accepted (task : Task α) (hpending : r.pending = task.args :: r'.pending)
      (hno : task.no = r.nextTaskNo) (hnext : r'.nextTaskNo = r.nextTaskNo + 1)
      (hsubmit : r.executor.submit task = .ok r'.executor)
      (hwaiting : r.executor.accepts = true →
        r'.executor.waiting = r.executor.waiting ++ [task]) : Submits r r' [task]
  /-- The run fails with a task that is refused. -/
  | refused (task : Task α) (error : RunError) (hpending : r.pending = task.args :: r'.pending)
      (hno : task.no = r.nextTaskNo) (hnext : r'.nextTaskNo = r.nextTaskNo + 1)
      (hsubmit : r.executor.submit task = .error error) (haborts : r'.state = .aborted) :
      Submits r r' []
  | nothing (hpending : r'.pending = r.pending) (hnext : r'.nextTaskNo = r.nextTaskNo)
      (hwaiting : r'.executor.waiting <:+ r.executor.waiting) : Submits r r' []

/-- The permits of all tasks in flight are given back, under the same limit. -/
structure GivesBack (r r' : Run σ α κ β) : Prop where
  limit : r'.limit = r.limit
  permits : r'.semaphore.permits = r.semaphore.permits + r.inFlight.size

/-- What the control node can do in one step. -/
inductive Did (r : Run σ α κ β) : Run σ α κ β → Prop
  /-- A task is submitted, as there is work left and a permit for it. -/
  | submit (acknowledged : Option (Completion κ β)) (args : α) (rest : List α) (permit : Permit)
      (semaphore : Semaphore) (executor : Executor α κ β)
      (hphase : r.phase = .filling acknowledged) (hstate : r.state.acceptsTasks = true)
      (hacquire : r.semaphore.acquire = some (permit, semaphore))
      (hpending : r.pending = args :: rest)
      (hsubmit : r.executor.submit ⟨r.nextTaskNo, args, r.monitor.forTask r.nextTaskNo⟩ =
        .ok executor) :
      Did r { r with
        pending := rest
        semaphore
        nextTaskNo := r.nextTaskNo + 1
        executor
        inFlight := r.inFlight.insert r.nextTaskNo ⟨Workload.label args, permit⟩
        peak := max r.peak (r.inFlight.insert r.nextTaskNo ⟨Workload.label args, permit⟩).size }
  /-- The first tasks are submitted. -/
  | fill (hphase : r.phase = .filling none) (hfull : r.state.acceptsTasks = true → r.IsFull) :
      Did r { r with state := .draining, phase := .deciding }
  /-- The caller is told of a task, and the run goes on. -/
  | reply (completion : Completion κ β) (hphase : r.phase = .filling (some completion))
      (hfull : r.state.acceptsTasks = true → r.IsFull) (hopen : r.isFinished = false) :
      Did r { r with phase := .replied (.ok (some completion)) }
  /-- The run is done, with its last task or when it is asked for another one. -/
  | finish (last : Option (Completion κ β))
      (hphase : (r.phase = .filling last ∧ last ≠ none ∧
        (r.state.acceptsTasks = true → r.IsFull)) ∨ r.phase = .deciding ∧ last = none)
      (hfinished : r.isFinished = true) : Did r (r.finish last)
  /-- Queued tasks are given a chance to run, before a signal is awaited or until nothing is left
  to run. -/
  | drive (executor : Executor α κ β) (commons : Commons σ κ β) (phase : Phase κ β)
      (hphase : (r.phase = .deciding ∧ r.inFlight.isEmpty = false ∧
          phase = .awaiting commons.clock) ∨ ∃ last, r.phase = .joining last ∧ phase = r.phase)
      (hdrive : r.executor.drive r.shop r.commons = (none, executor, commons)) :
      Did r { r with executor, commons, phase }
  /-- A merge faults in a task that was given a chance to run. -/
  | crash (fault : Fault) (executor : Executor α κ β) (commons : Commons σ κ β)
      (hphase : r.phase = .deciding ∨ ∃ last, r.phase = .joining last)
      (hdrive : r.executor.drive r.shop r.commons = (some fault, executor, commons)) :
      Did r { r with executor, commons, phase := .crashed fault }
  /-- The executor of a run that is done has nothing more to do. -/
  | join (last : Option (Completion κ β)) (hphase : r.phase = .joining last)
      (hfinished : r.executor.isFinished = true) :
      Did r ({ r with phase := .replied (.ok last) }.note (.runCompleted r.runId))
  /-- A payload is dropped. -/
  | drop (since : Nat) (transport : σ) (channel : Channel) (hphase : r.phase = .awaiting since) :
      Did r { r with
        commons := { r.commons with transport }, channel, phase := .awaiting r.commons.clock }
  /-- A task in flight is acknowledged, with its outcome in hand. -/
  | acknowledge (since : Nat) (signal : Signal) (slot : Slot) (outcome : Outcome κ β)
      (part : Option (Tally κ β)) (progress : Progress) (transport : σ) (channel : Channel)
      (buffered : SortedMap Nat (Outcome κ β)) (outcomes : List (Outcome κ β))
      (hphase : r.phase = .awaiting since) (hincoming : r.incoming? = some signal)
      (hslot : r.inFlight.get? signal.taskNo = some slot) (hpasses : signal.failed = false)
      (hadvance : r.progress.advance signal.amount = .ok progress)
      (htake : r.takeOutcome signal.taskNo =
        (some outcome, { r with buffered, commons := { r.commons with outcomes } }))
      (hpart : outcome.result = .ok part) :
      Did r { r with
        semaphore := r.semaphore.release slot.permit
        inFlight := r.inFlight.erase signal.taskNo
        channel
        progress
        buffered
        commons := { r.commons with transport, outcomes }
        phase := .filling (some ⟨signal.taskNo, slot.label, signal.amount, progress, part⟩) }
  /-- The run fails. -/
  | fail (error : RunError) (r' : Run σ α κ β)
      (hphase : (∃ acknowledged, r.phase = .filling acknowledged) ∨ r.phase = .deciding ∨
        ∃ since, r.phase = .awaiting since)
      (hfailed : r'.HasFailed error r.executor) (htasks : r.Submits r' [])
      (hback : r.GivesBack r') : Did r r'

/-- A run that fails without taking any work gives all permits back. -/
theorem did_fail {r : Run σ α κ β} (error : RunError) (commons : Commons σ κ β) (channel : Channel)
    (hphase : r.phase = .deciding ∨ ∃ since, r.phase = .awaiting since) :
    r.Did (({ r with commons, channel } : Run σ α κ β).fail error) := by
  refine .fail error _ (.inr hphase) (hasFailed_fail _ _)
    (.nothing rfl rfl r.executor.waiting_abort_suffix) ⟨rfl, ?_⟩
  show (r.semaphore.releaseAll (r.inFlight.values.map Slot.permit)).permits = _
  rw [Semaphore.permits_releaseAll, List.length_map, SortedMap.length_values]

/-- So does one that fails with a task of which it has let go just before. -/
theorem did_fail_release {r : Run σ α κ β} {no : Nat} {slot : Slot} (error : RunError)
    (commons : Commons σ κ β) (channel : Channel) (progress : Progress)
    (buffered : SortedMap Nat (Outcome κ β)) {since : Nat} (hphase : r.phase = .awaiting since)
    (hslot : r.inFlight.get? no = some slot) :
    r.Did ((({ r with
      inFlight := r.inFlight.erase no, commons, channel, progress, buffered } :
        Run σ α κ β).fail error).release slot.permit) := by
  refine .fail error _ (.inr (.inr ⟨since, hphase⟩)) ((hasFailed_fail _ _).release _)
    (.nothing rfl rfl r.executor.waiting_abort_suffix) ⟨rfl, ?_⟩
  show ((r.semaphore.releaseAll ((r.inFlight.erase no).values.map Slot.permit)).release
    slot.permit).permits = _
  rw [Semaphore.permits_release, Semaphore.permits_releaseAll, List.length_map,
    SortedMap.length_values, Nat.add_assoc, SortedMap.size_erase hslot]

/-- What is left once all tasks are submitted that there was room for. -/
theorem did_filled {r : Run σ α κ β} {acknowledged : Option (Completion κ β)}
    (hphase : r.phase = .filling acknowledged)
    (hfull : r.state.acceptsTasks = true → r.IsFull) : r.Did (r.filled acknowledged) := by
  cases acknowledged with
  | none => exact .fill hphase hfull
  | some completion =>
    rw [filled]
    split
    · next hfinished => exact .finish _ (.inl ⟨hphase, Option.some_ne_none _, hfull⟩) hfinished
    · next hopen => exact .reply completion hphase hfull (eq_false_of_ne_true hopen)

/-- A task is submitted. If the executor refuses it the run fails, and has all permits back. -/
theorem did_submit {r : Run σ α κ β} {acknowledged : Option (Completion κ β)} {args : α}
    {rest : List α} {permit : Permit} {semaphore : Semaphore}
    (hphase : r.phase = .filling acknowledged) (hstate : r.state.acceptsTasks = true)
    (hacquire : r.semaphore.acquire = some (permit, semaphore))
    (hpending : r.pending = args :: rest) :
    r.Did (({ r with semaphore, pending := rest } : Run σ α κ β).submit args permit) := by
  simp only [submit]
  split
  · next error hsubmit =>
    refine .fail error _ (.inl ⟨_, hphase⟩) ((hasFailed_fail _ _).release permit)
      (.refused ⟨r.nextTaskNo, args, r.monitor.forTask r.nextTaskNo⟩ error hpending rfl rfl hsubmit
        rfl) ⟨rfl, ?_⟩
    show ((semaphore.releaseAll (r.inFlight.values.map Slot.permit)).release permit).permits = _
    rw [Semaphore.permits_release, Semaphore.permits_releaseAll, List.length_map,
      SortedMap.length_values, Semaphore.permits_of_acquire hacquire, Nat.add_right_comm]
  · next executor hsubmit =>
    exact .submit acknowledged args rest permit semaphore executor hphase hstate hacquire hpending
      hsubmit

theorem did_fill {r : Run σ α κ β} {acknowledged : Option (Completion κ β)}
    (hphase : r.phase = .filling acknowledged) : r.Did (r.fill acknowledged) := by
  rcases r.fill_cases acknowledged with
    ⟨hfull, heq⟩ | ⟨permit, semaphore, args, rest, hstate, hacquire, hpending, heq⟩
  · rw [heq]
    exact did_filled hphase hfull
  · rw [heq]
    exact did_submit hphase hstate hacquire hpending

theorem did_waitOrEnd {r : Run σ α κ β} (hphase : r.phase = .deciding) : r.Did r.waitOrEnd := by
  rw [waitOrEnd]
  split
  · next hnone =>
    split
    · next hcomplete =>
      refine .finish none (.inr ⟨hphase, rfl⟩) ?_
      rw [isFinished, hcomplete, hnone]
      rfl
    · exact did_fail _ r.commons r.channel (.inl hphase)
  · next hsome =>
    rw [driveThen]
    split
    · next hdrive => exact .crash _ _ _ (.inl hphase) hdrive
    · next hdrive =>
      exact .drive _ _ _ (.inl ⟨hphase, eq_false_of_ne_true hsome, rfl⟩) hdrive

theorem did_join? {r r' : Run σ α κ β} {last : Option (Completion κ β)}
    (hphase : r.phase = .joining last) (h : r.join? last = some r') : r.Did r' := by
  rw [join?] at h
  split at h
  · next hfinished =>
    obtain rfl := Option.some.inj h
    exact .join last hphase hfinished
  · split at h
    · obtain rfl := Option.some.inj h
      rw [driveThen]
      split
      · next hdrive => exact .crash _ _ _ (.inr ⟨last, hphase⟩) hdrive
      · next hdrive => exact .drive _ _ _ (.inr ⟨last, hphase, hphase.symm⟩) hdrive
    · cases h

/-- A signal that came is acknowledged, or the run fails with it. -/
theorem did_acknowledge {r : Run σ α κ β} {since : Nat} {signal : Signal}
    (hphase : r.phase = .awaiting since) (hincoming : r.incoming? = some signal) (transport : σ)
    (channel : Channel) :
    r.Did (({ r with commons := { r.commons with transport }, channel } :
      Run σ α κ β).acknowledge signal) := by
  -- the outcome is taken from a run whose counters may have changed, so `htake` leaves those open
  obtain ⟨found, buffered, outcomes, htake⟩ := r.takeOutcome_eq signal.taskNo
  simp only [acknowledge]
  split
  · exact did_fail _ _ _ (.inr ⟨since, hphase⟩)
  · next slot hslot =>
    split
    · simp only [htake]
      exact did_fail_release _ _ _ _ _ hphase hslot
    · next hpasses =>
      split
      · exact did_fail_release _ _ _ _ _ hphase hslot
      · next progress hadvance =>
        simp only [htake]
        cases found with
        | none => exact did_fail_release _ _ _ _ _ hphase hslot
        | some outcome =>
          simp only [Option.map_some]
          cases hresult : outcome.result with
          | error cause => exact did_fail_release _ _ _ _ _ hphase hslot
          | ok part =>
            exact .acknowledge since signal slot outcome part progress transport channel buffered
              outcomes hphase hincoming hslot (eq_false_of_ne_true hpasses) hadvance
              (htake r rfl rfl) hresult

/-- With each step of the control node the executor accepts one task or none. -/
theorem Did.exists_submits {r r' : Run σ α κ β} (h : r.Did r') : ∃ tasks, r.Submits r' tasks := by
  have hidle : ∀ r₁ : Run σ α κ β, r₁.pending = r.pending → r₁.nextTaskNo = r.nextTaskNo →
      r₁.executor = r.executor → ∃ tasks, r.Submits r₁ tasks :=
    fun r₁ hpending hnext hexecutor =>
      ⟨[], .nothing hpending hnext (hexecutor ▸ List.suffix_rfl)⟩
  cases h with
  | submit acknowledged args rest permit semaphore executor _ _ _ hpending hsubmit =>
    refine ⟨_, .accepted _ hpending rfl rfl hsubmit fun haccepts => ?_⟩
    exact congrArg Floor.queue (Executor.floor_of_submit r.commons haccepts hsubmit).1
  | finish last =>
    refine ⟨[], .nothing rfl rfl ?_⟩
    simp only [Run.finish, Executor.waiting_close]
    exact List.suffix_rfl
  | drive executor commons phase _ hdrive =>
    exact ⟨[], .nothing rfl rfl (Executor.waiting_drive_suffix hdrive)⟩
  | crash fault executor commons _ hdrive =>
    exact ⟨[], .nothing rfl rfl (Executor.waiting_drive_suffix hdrive)⟩
  | fail _ _ _ _ htasks => exact ⟨[], htasks⟩
  | _ => exact hidle _ rfl rfl rfl

/-- The limit of a run stays as it is. -/
theorem Did.limit_eq {r r' : Run σ α κ β} (h : r.Did r') : r'.limit = r.limit := by
  cases h with
  | fail _ _ _ _ _ hback => exact hback.limit
  | _ => rfl

/-- The control node keeps account of the permits. -/
theorem Did.balanced {r r' : Run σ α κ β} (h : r.Did r') (hbalanced : r.Balanced) :
    r'.Balanced := by
  obtain ⟨hpermits, hlt⟩ := hbalanced
  cases h with
  | submit acknowledged args rest permit semaphore executor _ _ hacquire =>
    have hnew : r.inFlight.get? r.nextTaskNo = none := by
      by_contra hsome
      exact Nat.lt_irrefl _ (hlt _ hsome)
    constructor
    · -- the permit goes from the semaphore to the slot of the task
      have htaken := Semaphore.permits_of_acquire hacquire
      simp only [SortedMap.size_insert hnew]
      omega
    · intro no hno
      by_cases heq : no = r.nextTaskNo
      · exact heq ▸ Nat.lt_succ_self _
      · rw [SortedMap.get?_insert_of_ne _ heq] at hno
        exact Nat.lt_succ_of_lt (hlt no hno)
  | acknowledge since signal slot outcome part progress transport channel buffered outcomes _ _
      hslot =>
    constructor
    · -- and back with the slot
      have hsize := SortedMap.size_erase hslot
      simp only [Semaphore.permits_release]
      omega
    · intro no hno
      by_cases heq : no = signal.taskNo
      · rw [heq, SortedMap.get?_erase_self] at hno
        exact absurd rfl hno
      · rw [SortedMap.get?_erase_of_ne _ heq] at hno
        exact hlt no hno
  | fail _ _ _ hfailed _ hback =>
    constructor
    · rw [hback.permits, hback.limit, hfailed.inFlight, SortedMap.size_empty, Nat.add_zero]
      exact hpermits
    · intro no hno
      rw [hfailed.inFlight] at hno
      exact absurd (SortedMap.get?_empty no) hno
  | _ => exact ⟨hpermits, hlt⟩

/-- Whatever the control node does is one of these steps. -/
theorem did_of_control? {r r' : Run σ α κ β} (h : r.control? = some r') : r.Did r' := by
  rw [control?] at h
  split at h
  · cases h
  · cases h
  · cases h
  · next hphase =>
    obtain rfl := Option.some.inj h
    exact did_fill hphase
  · next hphase =>
    obtain rfl := Option.some.inj h
    exact did_waitOrEnd hphase
  · next since hphase =>
    split at h
    · cases h
    · obtain rfl := Option.some.inj h
      exact did_fail _ _ _ (.inr ⟨since, hphase⟩)
    · next payload transport hreceive =>
      obtain rfl := Option.some.inj h
      simp only [receive]
      split
      · exact did_fail _ _ _ (.inr ⟨since, hphase⟩)
      · exact .drop since transport _ hphase
      · next signal channel hexamine =>
        refine did_acknowledge hphase ?_ transport channel
        simp only [incoming?, hphase, hreceive, hexamine, Admission.signal?]
  · next hphase => exact did_join? hphase h

end Run

end BatchRun
