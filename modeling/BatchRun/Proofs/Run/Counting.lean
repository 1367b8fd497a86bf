import BatchRun.Proofs.Run.Course
import BatchRun.Rehearsal.ScriptedTask
import BatchRun.Signal.Broker

/-!
# Counting units and tasks before a run starts

Before a run starts, its dispatcher adds up the units of what was collected, and what was collected
to what may follow. Both sums are checked additions of numbers that the caller is free to choose.
A sum that is too large is neither refused as an error nor taken for what it is, a large number:
it is a fault, and the run is over before anything was submitted. Here it is said when that
happens, which is exactly if one of the two sums, taken as a whole, does not fit.

## Main definitions

* `Dispatcher.units`, `Dispatcher.mostTasks`: the two sums, without a bound
* `Dispatcher.StartsSafely`: no fault of arithmetic stands in the way of a run

## Main results

* `Dispatcher.start_eq_of_overflow`, `Dispatcher.start_ne_faulted_sum`: when a start faults
* `Dispatcher.startsSafely_iff`: a run starts safely exactly if both sums fit
* `Dispatcher.not_startsSafely_of_huge`: under usual settings, two tasks or a promise of many are
  enough for a sum that does not
-/

namespace BatchRun

open Std

/-- A checked sum is exact. It faults exactly if the sum as a whole is too large, since the sums on
the way are no larger. -/
theorem checkedSum_eq (ns : List Nat) :
    checkedSum ns = if ns.sum < UInt64.size then .ok ns.sum else .error .sum := by
  induction ns with
  | nil => rfl
  | cons n rest ih =>
    rw [checkedSum, ih, List.sum_cons]
    by_cases hrest : rest.sum < UInt64.size
    · simp only [if_pos hrest]
    · rw [if_neg hrest, if_neg (by omega)]

/-- An executor that is not set up is out of places or out of memory, or it was to be one of no
workers: no sum is to blame. -/
theorem Executor.ofMode_ne_faulted_sum {α κ β : Type} [Ord κ] (mode : ExecutionMode) (limit : Nat) :
    (ofMode mode limit : Except Failure (Executor α κ β)) ≠ .error (.faulted .sum) := by
  intro h
  cases mode with
  | auto => cases h
  | sequential => cases h
  | threads =>
    simp only [ofMode, Pool.new] at h
    split_ifs at h <;> cases h

namespace Dispatcher

section Sums

variable {α κ β : Type} [Ord κ] {d : Dispatcher α κ β} {pending : Pending α}

/-- The units of all arguments that are collected, however many. -/
def units [Workload α] (d : Dispatcher α κ β) : Nat := (d.queued.map Workload.units).sum

/-- How many tasks a run is at most about, however many, if that is known. -/
def mostTasks (d : Dispatcher α κ β) (pending : Pending α) : Option Nat :=
  pending.atMost.map (· + d.queued.length)

theorem totalUnits_eq [Workload α] (d : Dispatcher α κ β) :
    d.totalUnits = if d.units < UInt64.size then .ok d.units else .error .sum :=
  checkedSum_eq _

theorem expectedTasks_eq_ok (h : ∀ most ∈ d.mostTasks pending, most < UInt64.size) :
    d.expectedTasks pending = .ok (d.mostTasks pending) := by
  simp only [expectedTasks, mostTasks] at *
  cases hmost : pending.atMost with
  | none => rfl
  | some most =>
    have hsum : [most, d.queued.length].sum < UInt64.size := by simpa [hmost] using h
    simp only [checkedSum_eq, if_pos hsum]
    rfl

theorem expectedTasks_eq_error {most : Nat} (hmost : most ∈ d.mostTasks pending)
    (h : UInt64.size ≤ most) : d.expectedTasks pending = .error .sum := by
  obtain ⟨n, hn, rfl⟩ := Option.map_eq_some_iff.1 hmost
  have hsum : ¬[n, d.queued.length].sum < UInt64.size := Nat.not_lt.2 h
  simp only [expectedTasks, hn, checkedSum_eq, if_neg hsum]
  rfl

end Sums

section Start

variable {σ α κ β : Type} [Ord κ] [Transport σ] {d : Dispatcher α κ β} {transport : σ}
  {pending : Pending α} {total : Nat}

/-- A start faults if there may be more tasks than can be counted, whoever would execute them and
over whatever transport. -/
theorem start_eq_of_overflow {most : Nat} (hmost : most ∈ d.mostTasks pending)
    (h : UInt64.size ≤ most) : d.start transport pending total = .error (.faulted .sum) := by
  rw [start, expectedTasks_eq_error hmost h]

/-- Otherwise no sum stands in the way of a start. -/
theorem start_ne_faulted_sum (h : ∀ most ∈ d.mostTasks pending, most < UInt64.size) :
    d.start transport pending total ≠ .error (.faulted .sum) := by
  intro hfault
  simp only [start, expectedTasks_eq_ok h] at hfault
  split at hfault
  · cases hfault
  · split at hfault
    · next why hexecutor =>
      rw [Except.error.inj hfault] at hexecutor
      exact Executor.ofMode_ne_faulted_sum _ _ hexecutor
    · cases hfault

/-- Where the tasks can be counted, their number decides on the mode. -/
theorem mode_of_start (h : ∀ most ∈ d.mostTasks pending, most < UInt64.size)
    {run : Run σ α κ β} (hstart : d.start transport pending total = .ok run) :
    run.mode = d.settings.mode.resolve d.settings.limit (d.mostTasks pending) := by
  simp only [start, expectedTasks_eq_ok h] at hstart
  split at hstart
  · cases hstart
  · split at hstart
    · cases hstart
    · obtain rfl := Except.ok.inj hstart
      rfl

end Start

section Safety

variable {σ α κ β : Type} [Ord κ] [TransOrd κ] [Mergeable β] [Transport σ] [Workload α]
  {d : Dispatcher α κ β} {transport : σ} {pending : Pending α} {patience total : Nat}

/-- No fault of arithmetic stands in the way of a run over what is collected, or over that and what
follows. -/
structure StartsSafely (d : Dispatcher α κ β) (transport : σ) (pending : Pending α) : Prop where
  /-- The units are added up, or a run over what is collected is refused with an error. -/
  adds : d.totalUnits = .ok d.units ∨
    ∃ error, ∀ patience, (d.reduce patience transport).ending = .failed error
  /-- The number of tasks does not keep a run from its start. -/
  starts : ∀ total, d.start transport pending total ≠ .error (.faulted .sum)
  /-- It decides on the mode of the run, however large it is. -/
  resolves : ∀ total run, d.start transport pending total = .ok run →
    run.mode = d.settings.mode.resolve d.settings.limit (d.mostTasks pending)

theorem reduce_eq_of_overflow (h : UInt64.size ≤ d.units) :
    d.reduce patience transport = d.unstarted transport (.faulted .sum) := by
  rw [reduce, totalUnits_eq, if_neg (Nat.not_lt.2 h)]

theorem execute_eq_of_overflow {most : Nat} (hmost : most ∈ d.mostTasks pending)
    (h : UInt64.size ≤ most) :
    d.execute patience transport pending total = d.unstarted transport (.faulted .sum) := by
  rw [execute, start_eq_of_overflow hmost h]

/-- A run starts safely exactly if the units of what is collected can be added up, and the tasks
can be counted. Otherwise it crashes before anything is submitted, and neither the transport nor
the journal shows that there was one. -/
theorem startsSafely_iff :
    (d.StartsSafely transport pending ↔
        d.units < UInt64.size ∧ ∀ most ∈ d.mostTasks pending, most < UInt64.size) ∧
      (UInt64.size ≤ d.units →
        ∀ patience, d.reduce patience transport = d.unstarted transport (.faulted .sum)) ∧
      ∀ most ∈ d.mostTasks pending, UInt64.size ≤ most → ∀ patience total,
        d.execute patience transport pending total = d.unstarted transport (.faulted .sum) := by
  refine ⟨⟨fun hsafe => ⟨?_, fun most hmost => ?_⟩, fun ⟨hunits, hmost⟩ => ?_⟩,
    fun h _ => reduce_eq_of_overflow h, fun _ hmost h _ _ => execute_eq_of_overflow hmost h⟩
  · by_contra hunits
    rcases hsafe.adds with hadds | ⟨error, hfails⟩
    · rw [totalUnits_eq, if_neg hunits] at hadds
      cases hadds
    · have hfails := hfails 0
      rw [reduce_eq_of_overflow (Nat.not_lt.1 hunits)] at hfails
      cases hfails
  · by_contra hlarge
    exact hsafe.starts 0 (start_eq_of_overflow hmost (Nat.not_lt.1 hlarge))
  · exact {
      adds := .inl (by rw [totalUnits_eq, if_pos hunits])
      starts := fun _ => start_ne_faulted_sum hmost
      resolves := fun _ _ => mode_of_start hmost }

end Safety

end Dispatcher

/-- A task of as many units as can be said. -/
def ScriptedTask.huge : ScriptedTask := .plain "huge" (.ofInt 18446744073709551615)

/-- A task of one unit. -/
def ScriptedTask.single : ScriptedTask := .plain "single" (.ofInt 1)

/-- A run over the one or the other starts safely, a run over both does not start. -/
theorem Dispatcher.startsSafely_huge :
    ∃ d : Dispatcher ScriptedTask String Count,
      new (.usual 2) ScriptedTask.perform ⟨"rehearsal"⟩ = .ok d ∧
      (d.submitAll [.huge]).StartsSafely (Broker.new "rehearsal") .none ∧
      (d.submitAll [.single]).StartsSafely (Broker.new "rehearsal") .none ∧
      UInt64.size ≤ (d.submitAll [.huge, .single]).units ∧
      ∀ patience, (d.submitAll [.huge, .single]).reduce patience (Broker.new "rehearsal") =
        (d.submitAll [.huge, .single]).unstarted (Broker.new "rehearsal") (.faulted .sum) := by
  have hunits (d : Dispatcher ScriptedTask String Count) : UInt64.size ≤ d.units →
      ∀ patience, d.reduce patience (Broker.new "rehearsal") =
        d.unstarted (Broker.new "rehearsal") (.faulted .sum) := by
    have hiff : (d.StartsSafely (Broker.new "rehearsal") Pending.none ↔ _) ∧ _ := startsSafely_iff
    exact hiff.2.1
  exact ⟨_, rfl, startsSafely_iff.1.2 ⟨by decide, by decide⟩,
    startsSafely_iff.1.2 ⟨by decide, by decide⟩, by decide, hunits _ (by decide)⟩

/-- Nothing follows where as much might follow as can be said. -/
def Pending.promising : Pending ScriptedTask := ⟨[], some (UInt64.size - 1)⟩

/-- Under usual settings, a task of the most units and another of one are too much for their sum,
and a single task is too much where the most tasks may follow. -/
theorem Dispatcher.not_startsSafely_of_huge :
    ∃ d : Dispatcher ScriptedTask String Count,
      new (.usual 2) ScriptedTask.perform ⟨"rehearsal"⟩ = .ok d ∧
      Workload.units ScriptedTask.huge < UInt64.size ∧
      (∀ most ∈ Pending.promising.atMost,
        Pending.promising.args.length ≤ most ∧ most < UInt64.size) ∧
      ¬(d.submitAll [.huge, .single]).StartsSafely (Broker.new "rehearsal") .none ∧
      ¬(d.submitAll [.single]).StartsSafely (Broker.new "rehearsal") .promising := by
  refine ⟨_, rfl, by decide, by decide, fun hsafe => ?_, fun hsafe => ?_⟩
  · rcases hsafe.adds with hadds | ⟨error, hfails⟩
    · cases hadds
    · cases hfails 0
  · exact hsafe.starts 0 rfl

end BatchRun
