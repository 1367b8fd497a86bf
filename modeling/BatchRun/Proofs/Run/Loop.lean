import BatchRun.Proofs.Run.Trusted
import BatchRun.Proofs.Tally.Merging

/-!
# A plain loop over tasks

What a run computes can be said without signals, queues and limits: run the tasks one after the
other, stop at the first that fails or that has too many units, and merge what the others give.
The loop keeps a list of the tasks that it has run, so that it says as well which tasks are never
run.

## Main definitions

* `Looped`: the tasks that a loop has run, and how it has ended
* `Plan.loop`: the loop, and `Plan.looped` for all tasks of a plan
* `Plan.MergesInTurn`: workers can merge what the loop comes to
* `Ending.upshot`: how a run has ended, as a loop would say it

## Main results

* `Plan.loop_append`: the loop goes on behind tasks that it gets through
-/

namespace BatchRun

open Std

variable {α κ β : Type} [Ord κ]

/-- How a loop over tasks ends: with a merge that faults, with an error, or with a result. -/
abbrev Upshot (κ β : Type) [Ord κ] := Except Fault (Except RunError (Tally κ β))

/-- A loop over tasks that has come to its end. -/
structure Looped (α κ β : Type) [Ord κ] where
  /-- The tasks whose work functions were called, in the order of the calls. -/
  ran : List (Task α)
  upshot : Upshot κ β

/-- The loop with tasks that were run before. -/
def Looped.after (first : List (Task α)) (l : Looped α κ β) : Looped α κ β :=
  ⟨first ++ l.ran, l.upshot⟩

@[simp] theorem Looped.ran_after (first : List (Task α)) (l : Looped α κ β) :
    (l.after first).ran = first ++ l.ran := rfl

/-- How a run has ended, as a loop would say it; nothing is said of a run that has stalled. -/
def Ending.upshot : Ending κ β → Option (Upshot κ β)
  | finished result _ => some (.ok (.ok result))
  | failed error => some (.ok (.error error))
  | crashed fault => some (.error fault)
  | stalled => none

namespace Plan

/-- The units of some tasks. -/
def unitsOfAll [Workload α] (tasks : List (Task α)) : Nat :=
  (tasks.map fun t => Workload.units t.args).sum

variable [TransOrd κ] [Mergeable β] [Workload α]

/-- Run tasks one after the other, with units that are computed and a result that is merged so
far. -/
def loop (plan : Plan α κ β) : Nat → Tally κ β → List (Task α) → Looped α κ β
  | computed, result, [] =>
    ⟨[], .ok (if computed < plan.total then .error (.incomplete computed plan.total)
      else .ok result)⟩
  | computed, result, task :: rest =>
    match (plan.work task).verdict.result with
    | .error cause =>
      ⟨[task], .ok (.error (.taskFailed task.no (Workload.label task.args) cause))⟩
    | .ok part =>
      if plan.total < computed + Workload.units task.args then
        ⟨[task], .ok (.error (.anomaly plan.channel.runId
          (.tooManyUnits task.no ⟨computed, plan.total, Workload.units task.args⟩)))⟩
      else
        match result.mergeTally part with
        | .error fault => ⟨[task], .error fault⟩
        | .ok result => (plan.loop (computed + Workload.units task.args) result rest).after [task]

/-- All tasks of a plan, one after the other. -/
def looped (plan : Plan α κ β) : Looped α κ β := plan.loop 0 .empty plan.tasks

/-- Where workers merge what they have computed, the values of all tasks that the loop runs can be
merged, those of the task included at which it stops. -/
def MergesInTurn (plan : Plan α κ β) : Prop :=
  plan.shares = true → ∃ merged,
    Tally.empty.mergeEntries (plan.looped.ran.flatMap plan.entriesOf) = .ok merged

variable {plan : Plan α κ β} {computed : Nat} {result : Tally κ β} {task : Task α}
  {rest : List (Task α)}

theorem loop_failed {cause : Cause} (h : (plan.work task).verdict.result = .error cause) :
    plan.loop computed result (task :: rest) =
      ⟨[task], .ok (.error (.taskFailed task.no (Workload.label task.args) cause))⟩ := by
  rw [loop, h]

theorem loop_refused {part : Tally κ β} (h : (plan.work task).verdict.result = .ok part)
    (hunits : plan.total < computed + Workload.units task.args) :
    plan.loop computed result (task :: rest) = ⟨[task], .ok (.error (.anomaly plan.channel.runId
      (.tooManyUnits task.no ⟨computed, plan.total, Workload.units task.args⟩)))⟩ := by
  rw [loop, h]
  exact if_pos hunits

theorem loop_faulted {part : Tally κ β} {fault : Fault}
    (h : (plan.work task).verdict.result = .ok part)
    (hunits : computed + Workload.units task.args ≤ plan.total)
    (hmerge : result.mergeTally part = .error fault) :
    plan.loop computed result (task :: rest) = ⟨[task], .error fault⟩ := by
  rw [loop, h]
  simp only [if_neg (Nat.not_lt.2 hunits), hmerge]

theorem loop_merged {part merged : Tally κ β} (h : (plan.work task).verdict.result = .ok part)
    (hunits : computed + Workload.units task.args ≤ plan.total)
    (hmerge : result.mergeTally part = .ok merged) :
    plan.loop computed result (task :: rest) =
      (plan.loop (computed + Workload.units task.args) merged rest).after [task] := by
  rw [loop, h]
  simp only [if_neg (Nat.not_lt.2 hunits), hmerge]

/-- Whatever comes of it, the next task is run. -/
theorem exists_ran_loop (plan : Plan α κ β) (computed : Nat) (result : Tally κ β) (task : Task α)
    (rest : List (Task α)) :
    ∃ more, (plan.loop computed result (task :: rest)).ran = task :: more := by
  rw [loop]
  split
  · exact ⟨[], rfl⟩
  · split
    · exact ⟨[], rfl⟩
    · split
      · exact ⟨[], rfl⟩
      · exact ⟨_, rfl⟩

/-- Where some tasks succeed, with units and values for which there is room, the loop goes on
behind them. -/
theorem loop_append {first : List (Task α)} {merged : Tally κ β}
    (hsucceed : ∀ t ∈ first, plan.succeeds t = true)
    (hunits : computed + unitsOfAll first ≤ plan.total)
    (hmerged : result.mergeEntries (first.flatMap plan.entriesOf) = .ok merged) :
    plan.loop computed result (first ++ rest) =
      (plan.loop (computed + unitsOfAll first) merged rest).after first := by
  induction first generalizing computed result with
  | nil =>
    obtain rfl := Except.ok.inj hmerged
    rfl
  | cons task more ih =>
    obtain ⟨hsucceeds, hmore⟩ := List.forall_mem_cons.1 hsucceed
    obtain ⟨part, hpart⟩ := Verdict.succeeds_iff.1 hsucceeds
    have hsum : unitsOfAll (task :: more) = Workload.units task.args + unitsOfAll more := by
      rw [unitsOfAll, List.map_cons, List.sum_cons, unitsOfAll]
    rw [hsum, ← Nat.add_assoc] at hunits
    rw [List.flatMap_cons, entriesOf_ok hpart] at hmerged
    -- the values of the first task are merged before those of the others
    obtain ⟨next, hfirst, hrest⟩ := Tally.exists_of_mergeEntries_append hmerged
    rw [List.cons_append, loop_merged hpart (by omega) hfirst, ih hmore hunits hrest, hsum,
      ← Nat.add_assoc]
    rfl

end Plan

end BatchRun
