import Mathlib.Algebra.Order.BigOperators.Group.List
import BatchRun.Proofs.Run.Posted

/-!
# Runs over a transport that can be trusted

Over a courier, every payload is the signal of a task of the run, and says what became of the
task. The units that are counted are then those of the tasks whose signals have passed, and a
signal can only be rejected because its task failed, or because it takes the units past their
total.

## Main definitions

* `Verdict.FailsWith`: why a call of the work function failed
* `Plan.units`, `Plan.succeedingUnits`: the units of all tasks, and of those that succeed
* `Plan.Fits`: numbers fit into the fields of a signal
* `Run.Trusted`: the units counted are those of the signals that have passed

## Main results

* `Plan.Published.examine`: a payload repeats a signal, or the signal in it passes
* `Run.Trusted.turn`: a live run stays trusted
-/

namespace BatchRun

open Std

variable {σ α κ β : Type} [Ord κ]

namespace Verdict

/-- Whether the work function has given a partial result. -/
def succeeds : Verdict κ β → Bool
  | finished _ => true
  | failed _ | panicked _ => false

/-- Why a call of the work function failed: with its own error, or with one that tells its
panic. -/
inductive FailsWith : Verdict κ β → Cause → Prop
  | failed (cause : Cause) : FailsWith (failed cause) cause
  | panicked (message : Option String) : FailsWith (panicked message)
      (.said ("work function panicked: " ++ message.getD "non-string panic payload"))

theorem failsWith_of_result {verdict : Verdict κ β} {cause : Cause}
    (h : verdict.result = .error cause) : verdict.FailsWith cause := by
  cases verdict with
  | finished part => cases h
  | failed cause' =>
    obtain rfl := Except.error.inj h
    exact .failed cause'
  | panicked message =>
    obtain rfl := Except.error.inj h
    exact .panicked message

theorem FailsWith.succeeds_eq {verdict : Verdict κ β} {cause : Cause}
    (h : verdict.FailsWith cause) : verdict.succeeds = false := by
  cases h <;> rfl

theorem succeeds_iff {verdict : Verdict κ β} :
    verdict.succeeds = true ↔ ∃ part, verdict.result = .ok part := by
  cases verdict <;> simp [succeeds, result]

end Verdict

namespace Plan

/-- Whether a task succeeds. -/
def succeeds (plan : Plan α κ β) (t : Task α) : Bool := (plan.work t).verdict.succeeds

variable [Workload α]

/-- The units of the task of a number. -/
def unitsOf (plan : Plan α κ β) (no : Nat) : Nat :=
  (plan.args[no]?.map Workload.units).getD 0

/-- The units of all tasks. -/
def units (plan : Plan α κ β) : Nat := (plan.args.map Workload.units).sum

/-- The units of the tasks that succeed. -/
def succeedingUnits (plan : Plan α κ β) : Nat :=
  ((plan.tasks.filter plan.succeeds).map fun t => Workload.units t.args).sum

/-- The numbers of all tasks and their units fit into 64 bits. -/
structure Fits (plan : Plan α κ β) : Prop where
  units_lt : ∀ args ∈ plan.args, Workload.units args < UInt64.size
  length_le : plan.args.length ≤ UInt64.size

variable {plan : Plan α κ β} {t : Task α}

omit [Workload α] in
theorem args_mem (ht : t ∈ plan.tasks) : plan.args[t.no]? = some t.args := by
  obtain ⟨args, hargs, heq⟩ := mem_tasks_iff.1 ht
  rw [heq]
  exact hargs

theorem unitsOf_no (ht : t ∈ plan.tasks) : plan.unitsOf t.no = Workload.units t.args := by
  rw [unitsOf, args_mem ht]
  rfl

/-- The units of all numbers are the units of all tasks. -/
theorem sum_unitsOf (plan : Plan α κ β) :
    ((List.range plan.args.length).map plan.unitsOf).sum = plan.units := by
  have hmap : (List.range plan.args.length).map plan.unitsOf = plan.args.map Workload.units := by
    apply List.ext_getElem (by simp)
    intro no h _
    have hlt : no < plan.args.length := by simpa using h
    simp [unitsOf, List.getElem?_eq_getElem hlt]
  rw [hmap, units]

/-- Where all tasks succeed, all units are those of tasks that succeed. -/
theorem succeedingUnits_eq (h : ∀ t ∈ plan.tasks, plan.succeeds t = true) :
    plan.succeedingUnits = plan.units := by
  have hunits : plan.tasks.map (fun t => Workload.units t.args) =
      (plan.tasks.map (·.no)).map plan.unitsOf := by
    rw [List.map_map]
    exact List.map_congr_left fun t ht => (unitsOf_no ht).symm
  rw [succeedingUnits, List.filter_eq_self.2 h, hunits, map_no_tasks, sum_unitsOf]

/-- Different tasks that succeed have no more units than all tasks that succeed. -/
theorem sum_unitsOf_le {nos : List Nat} (hnodup : nos.Nodup)
    (h : ∀ no ∈ nos, ∃ t ∈ plan.tasks, t.no = no ∧ plan.succeeds t = true) :
    (nos.map plan.unitsOf).sum ≤ plan.succeedingUnits := by
  have hunits : (plan.tasks.filter plan.succeeds).map (fun t => Workload.units t.args) =
      ((plan.tasks.filter plan.succeeds).map (·.no)).map plan.unitsOf := by
    rw [List.map_map]
    exact List.map_congr_left fun t ht => (unitsOf_no (List.mem_of_mem_filter ht)).symm
  -- different numbers of such tasks are some of all their numbers
  have hsub : nos.Subperm ((plan.tasks.filter plan.succeeds).map (·.no)) := by
    apply List.subperm_of_subset hnodup
    intro no hno
    obtain ⟨t, ht, rfl, hsucceeds⟩ := h no hno
    exact List.mem_map_of_mem (List.mem_filter.2 ⟨ht, hsucceeds⟩)
  obtain ⟨nos', hperm, hsublist⟩ := hsub
  rw [succeedingUnits, hunits, ← (hperm.map plan.unitsOf).sum_eq]
  exact (hsublist.map plan.unitsOf).sum_le_sum fun _ _ => Nat.zero_le _

end Plan

section Signals

variable [Workload α] {plan : Plan α κ β} {t : Task α}

/-- The signal of a task that succeeds reports its units. -/
theorem Plan.signalOf_ok {part : Tally κ β} (h : (plan.work t).verdict.result = .ok part)
    (now : Instant) :
    plan.signalOf t now = .completed plan.channel.runId t.no (Workload.units t.args) now := by
  rw [signalOf, outcomeOf, resultOf_ok h]
  rfl

/-- The signal of a task that fails tells its error. -/
theorem Plan.signalOf_error {cause : Cause} (h : (plan.work t).verdict.result = .error cause)
    (now : Instant) :
    plan.signalOf t now = .failure plan.channel.runId t.no cause.line now := by
  rw [signalOf, outcomeOf, resultOf_error h]
  rfl

/-- What the signal of a task says is true. -/
theorem Plan.signalOf_spec (plan : Plan α κ β) (t : Task α) (now : Instant) :
    (plan.signalOf t now).runId = plan.channel.runId ∧ (plan.signalOf t now).taskNo = t.no ∧
      (plan.signalOf t now).sentAt = now ∧ (plan.signalOf t now).failed = !plan.succeeds t ∧
      (plan.signalOf t now).amount = if plan.succeeds t then Workload.units t.args else 0 := by
  cases hresult : (plan.work t).verdict.result with
  | ok part =>
    have hsucceeds : plan.succeeds t = true := Verdict.succeeds_iff.2 ⟨part, hresult⟩
    rw [signalOf_ok hresult, hsucceeds]
    exact ⟨rfl, rfl, rfl, rfl, rfl⟩
  | error cause =>
    have hfails : plan.succeeds t = false := (Verdict.failsWith_of_result hresult).succeeds_eq
    rw [signalOf_error hresult, hfails]
    exact ⟨rfl, rfl, rfl, rfl, rfl⟩

/-- The signal of a task can be read. -/
theorem Plan.decode_signalOf (hfits : plan.Fits) (ht : t ∈ plan.tasks) {now : Instant}
    (hnow : Instant.read now.text = .ok now) :
    Signal.decode (plan.signalOf t now).toJson = .ok (plan.signalOf t now) := by
  obtain ⟨-, hno, hsent, -, hamount⟩ := plan.signalOf_spec t now
  obtain ⟨hlt, hargs⟩ := List.getElem?_eq_some_iff.1 (args_mem ht)
  have hunits : Workload.units t.args < UInt64.size :=
    hfits.units_lt t.args (hargs ▸ List.getElem_mem hlt)
  refine Signal.decode_toJson ?_ ?_ ?_
  · rw [hno]
    exact Nat.lt_of_lt_of_le hlt hfits.length_le
  · rw [hamount]
    split
    · exact hunits
    · decide
  · rw [hsent, hnow]

/-- A payload that was published repeats the signal of a task, or the signal in it passes. -/
theorem Plan.Published.examine {reported : List Nat} {payload : Json} {c : Channel}
    (h : plan.Published reported payload) (hfits : plan.Fits)
    (hrun : c.runId = plan.channel.runId) :
    ∃ t ∈ plan.tasks, t.no ∈ reported ∧ ((c.examine payload).1 = .repeated ∨
      t.no ∉ c.seen ∧ ∃ now, (c.examine payload).1 = .passed (plan.signalOf t now)) := by
  obtain ⟨t, ht, hno, now, hnow, rfl⟩ := h
  obtain ⟨hrunId, htaskNo, -⟩ := plan.signalOf_spec t now
  refine ⟨t, ht, hno, ?_⟩
  rw [Channel.examine_of_decode (decode_signalOf hfits ht hnow) (hrunId.trans hrun.symm), htaskNo]
  by_cases hseen : t.no ∈ c.seen
  · rw [if_pos hseen]
    exact .inl rfl
  · rw [if_neg hseen]
    exact .inr ⟨hseen, now, rfl⟩

end Signals

/-- A run whose payloads are signals of its own workers, and whose units are those of the tasks
whose signals have passed. -/
structure Run.Trusted [Transport σ] [Workload α] (plan : Plan α κ β) (courier : Courier σ)
    (r : Run σ α κ β) : Prop where
  posted : Posted plan courier r.reported r.commons.transport
  computed : r.progress.computed = (r.channel.seen.map plan.unitsOf).sum

namespace Run.Trusted

variable [Transport σ] [Workload α] [TransOrd κ] [Mergeable β] {plan : Plan α κ β}
  {courier : Courier σ} {told : List (Completion κ β)} {begun : List (Task α)}
  {r r' : Run σ α κ β}

/-- What is received repeats the signal of a task, or the signal in it passes. -/
theorem examine_of_receive (hfits : plan.Fits) (hlive : r.Live plan told begun)
    (h : r.Trusted plan courier) {payload : Json} {transport : σ}
    (hreceive : Transport.receive r.channel.queue r.commons.transport =
      (.payload payload, transport)) :
    ∃ t ∈ plan.tasks, t.no ∈ r.reported ∧ ((r.channel.examine payload).1 = .repeated ∨
      t.no ∉ r.channel.seen ∧
        ∃ now, (r.channel.examine payload).1 = .passed (plan.signalOf t now)) := by
  rw [hlive.ledger.queue_eq] at hreceive
  exact ((h.posted.receive hreceive).2.2 payload rfl).examine hfits hlive.ledger.runId_eq

/-- A live run stays trusted. -/
theorem turn (hfits : plan.Fits) (hlive : r.Live plan told begun) (hturn : r.Turn r')
    (h : r.Trusted plan courier) : r'.Trusted plan courier := by
  refine ⟨h.posted.turn hlive hturn, ?_⟩
  cases hturn with
  | idle _ _ hchannel hprogress => rw [hprogress, hchannel, h.computed]
  | steps _ _ _ hchannel hprogress => rw [hprogress, hchannel, h.computed]
  -- only a payload that passes changes what is counted
  | received payload hreceive _ hcounted =>
    rcases hcounted with ⟨hprogress, hseen⟩ | ⟨signal, hpassed, hfailed, hcomputed, hseen⟩
    · rw [hprogress, hseen, h.computed]
    · obtain ⟨t, ht, -, hrepeated | ⟨-, now, hpassed'⟩⟩ :=
        h.examine_of_receive hfits hlive hreceive
      · rw [hrepeated] at hpassed
        cases hpassed
      · rw [hpassed'] at hpassed
        obtain rfl := Admission.passed.inj hpassed
        obtain ⟨-, hno, -, hsucceeds, hamount⟩ := plan.signalOf_spec t now
        rw [hfailed] at hsucceeds
        have hsucceeds' : plan.succeeds t = true := by simpa using hsucceeds.symm
        rw [hcomputed, hseen, hamount, hno, hsucceeds', if_pos rfl, List.map_cons, List.sum_cons,
          Plan.unitsOf_no ht, h.computed, Nat.add_comm]

omit [TransOrd κ] [Mergeable β] in
/-- A question leaves a run trusted. -/
theorem ask (h : r.Trusted plan courier) : r.ask.Trusted plan courier := by
  refine ⟨h.posted.ask, ?_⟩
  obtain ⟨phase, hask⟩ := r.ask_eq
  rw [hask]
  exact h.computed

end Run.Trusted

section Start

variable [Transport σ] [Workload α] [TransOrd κ] [Mergeable β] {d : Dispatcher α κ β}
  {transport : σ} {pending : Pending α} {total : Nat} {run : Run σ α κ β}

/-- A run that was started is trusted. -/
theorem Dispatcher.trusted_of_start (courier : Courier σ)
    (h : d.start transport pending total = .ok run) :
    run.Trusted (d.plan pending total) courier := by
  refine ⟨posted_of_start courier h, ?_⟩
  obtain ⟨mode, executor, opened, -, -, rfl⟩ := exists_of_start h
  rfl

/-- A session over a courier, whose run is trusted as long as it is live. -/
theorem Session.Reaches.stands_trusted {s : Session σ α κ β} (courier : Courier σ)
    (hfits : (d.plan pending total).Fits) (hstart : d.start transport pending total = .ok run)
    (h : Session.Reaches run s) :
    s.Stands (d.plan pending total) (Run.Trusted (d.plan pending total) courier) := by
  refine h.stands _ ?_ (fun _ _ _ _ hlive h hturn => h.turn hfits hlive hturn)
    fun _ _ _ _ _ h _ => h.ask
  exact (Dispatcher.live_of_start hstart).imp_right fun hlive =>
    ⟨hlive, (Dispatcher.trusted_of_start courier hstart).ask⟩

end Start

end BatchRun
