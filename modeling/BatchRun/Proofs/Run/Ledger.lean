import Mathlib.Algebra.GroupWithZero.Nat
import BatchRun.Proofs.Run.Outcomes
import BatchRun.Proofs.Run.Sound

/-!
# The ledger of a run under way

What the control node knows of its tasks agrees with the floor: a task is still to be submitted,
or it is in flight, or it is acknowledged, and never two of these. The ledger holds whatever the
control node is doing at the moment; the phases are left to those who move it.

## Main definitions

* `Completion.IsHonest`: a completion tells what became of a task of the plan
* `Run.Ledger`: what the control node knows, and what is true on the floor

## Main results

* `Ledger.steps`, `Ledger.submit`, `Ledger.settle`: the entries
-/

namespace BatchRun

open Std

variable {σ α κ β : Type} [Ord κ]

namespace Progress

variable {p p' : Progress} {amount : Nat}

theorem eq_of_advance (h : p.advance amount = .ok p') :
    p'.computed = p.computed + amount ∧ p'.total = p.total := by
  rw [advance] at h
  split at h
  · obtain rfl := Except.ok.inj h
    exact ⟨rfl, rfl⟩
  · cases h

theorem computed_of_advance (h : p.advance amount = .ok p') :
    p'.computed = p.computed + amount :=
  (eq_of_advance h).1

theorem total_of_advance (h : p.advance amount = .ok p') : p'.total = p.total :=
  (eq_of_advance h).2

/-- An amount is refused if it is more than what remains. -/
theorem lt_of_advance {refused : ProgressOverflow} (h : p.advance amount = .error refused) :
    p.total < p.computed + amount := by
  rw [advance] at h
  split at h
  · cases h
  · omega

end Progress

/-- A completion tells what became of a task of the plan. -/
def Completion.IsHonest [Workload α] (plan : Plan α κ β) (c : Completion κ β) : Prop :=
  ∃ task ∈ plan.tasks, c.taskNo = task.no ∧ c.label = Workload.label task.args ∧
    plan.resultOf task = .ok c.part

/-- What the control node knows of the tasks of its plan, and what is true on the floor, after
the completions that are acknowledged and the tasks that have begun. -/
structure Run.Ledger [Workload α] [TransOrd κ] [Mergeable β] (plan : Plan α κ β)
    (acked : List (Completion κ β)) (begun : List (Task α)) (r : Run σ α κ β) : Prop where
  shop : r.shop = plan.shop
  monitor : r.monitor = plan.monitor
  limit : r.limit = plan.limit
  /-- The signals that have passed are those of the tasks acknowledged. -/
  channel : ∃ discarded,
    r.channel = { plan.channel with seen := (acked.map (·.taskNo)).reverse, discarded }
  total : r.progress.total = plan.total
  computed : r.progress.computed = (acked.map (·.amount)).sum
  cancelled : r.executor.isCancelled = false
  staffed : r.executor.Staffed plan.limit
  sound : Sound plan r.nextTaskNo r.buffered.values (acked.map (·.taskNo)) begun
    (r.executor.floor r.commons)
  filed : Filed r.buffered
  pending : r.pending = plan.args.drop r.nextTaskNo
  le_length : r.nextTaskNo ≤ plan.args.length
  inFlight : ∀ no slot, r.inFlight.get? no = some slot ↔
    no < r.nextTaskNo ∧ no ∉ acked.map (·.taskNo) ∧
      plan.args[no]?.map Workload.label = some slot.label
  size : r.inFlight.size + acked.length = r.nextTaskNo
  /-- Each permit is left to take, or it is held by a task in flight. -/
  permits : r.semaphore.permits + r.inFlight.size = plan.limit
  honest : ∀ c ∈ acked, c.IsHonest plan
  shows : r.showsShared = true

namespace Run.Ledger

variable [Workload α] [TransOrd κ] [Mergeable β] {plan : Plan α κ β}
  {acked : List (Completion κ β)} {begun : List (Task α)} {r : Run σ α κ β}

theorem queue_eq (h : r.Ledger plan acked begun) : r.channel.queue = plan.channel.queue := by
  obtain ⟨discarded, hchannel⟩ := h.channel
  rw [hchannel]

theorem runId_eq (h : r.Ledger plan acked begun) : r.channel.runId = plan.channel.runId := by
  obtain ⟨discarded, hchannel⟩ := h.channel
  rw [hchannel]

/-- The signals that have passed are those of the tasks acknowledged, the last one first. -/
theorem seen_eq (h : r.Ledger plan acked begun) :
    r.channel.seen = (acked.map (·.taskNo)).reverse := by
  obtain ⟨discarded, hchannel⟩ := h.channel
  rw [hchannel]

theorem mem_seen_iff (h : r.Ledger plan acked begun) {no : Nat} :
    no ∈ r.channel.seen ↔ no ∈ acked.map (·.taskNo) := by
  rw [h.seen_eq, List.mem_reverse]

/-- No two outcomes that wait to be taken, or were put aside, are of one task. -/
theorem nodup_outcomes (h : r.Ledger plan acked begun) :
    ((r.commons.outcomes ++ r.buffered.values).map (·.taskNo)).Nodup :=
  (List.nodup_append.1 h.sound.nodup_reported).1

theorem nodup_acked (h : r.Ledger plan acked begun) : (acked.map (·.taskNo)).Nodup :=
  (List.nodup_append.1 h.sound.nodup_reported).2.1

theorem lt_of_acked (h : r.Ledger plan acked begun) {no : Nat}
    (hno : no ∈ acked.map (·.taskNo)) : no < r.nextTaskNo :=
  h.sound.lt_of_reported (List.mem_append_right _ hno)

/-- The ledger does not depend on what the control node is doing. -/
theorem withPhase (h : r.Ledger plan acked begun) (state : RunState) (phase : Phase κ β)
    (journal : List Event) : { r with state, phase, journal }.Ledger plan acked begun :=
  ⟨h.shop, h.monitor, h.limit, h.channel, h.total, h.computed, h.cancelled, h.staffed, h.sound,
    h.filed, h.pending, h.le_length, h.inFlight, h.size, h.permits, h.honest, h.shows⟩

/-- The ledger does not depend on how many signals were dropped. -/
theorem withDiscarded (h : r.Ledger plan acked begun) (discarded : Nat) :
    { r with channel := { r.channel with discarded } }.Ledger plan acked begun := by
  obtain ⟨_, hchannel⟩ := h.channel
  exact { h with channel := ⟨discarded, by simp only [hchannel]⟩ }

/-- The ledger does not depend on the transport. -/
theorem withTransport (h : r.Ledger plan acked begun) (transport : σ) :
    { r with commons := { r.commons with transport } }.Ledger plan acked begun :=
  { h with sound := h.sound.congr { r.commons with transport } rfl rfl rfl }

/-- Workers have done something. -/
theorem steps [Transport σ] {new : List (Task α)} {e : Executor α κ β} {commons : Commons σ κ β}
    (h : r.Ledger plan acked begun)
    (hrow : Floor.Steps r.shop (r.executor.floor r.commons) new (e.floor commons))
    (hcancelled : e.isCancelled = r.executor.isCancelled)
    (hstaffed : ∀ limit, r.executor.Staffed limit → e.Staffed limit) :
    { r with executor := e, commons }.Ledger plan acked (begun ++ new) := by
  rw [h.shop] at hrow
  exact { h with
    cancelled := hcancelled.trans h.cancelled
    staffed := hstaffed _ h.staffed
    sound := h.sound.steps hrow }

/-- The executor is closed. -/
theorem close (h : r.Ledger plan acked begun) :
    { r with executor := r.executor.close }.Ledger plan acked begun := by
  obtain ⟨hfloor, -, hcancelled, hstaffed⟩ := r.executor.floor_of_close r.commons
  exact { h with
    cancelled := hcancelled.trans h.cancelled
    staffed := hstaffed _ h.staffed
    sound := by
      simp only [hfloor]
      exact h.sound }

/-- A task is in flight if it was submitted and is not acknowledged. -/
theorem get?_inFlight_eq_none_iff (h : r.Ledger plan acked begun) {no : Nat} :
    r.inFlight.get? no = none ↔ r.nextTaskNo ≤ no ∨ no ∈ acked.map (·.taskNo) := by
  constructor
  · intro hnone
    by_contra hcon
    rw [not_or, Nat.not_le] at hcon
    have hlt : no < plan.args.length := Nat.lt_of_lt_of_le hcon.1 h.le_length
    have hsome := (h.inFlight no ⟨Workload.label plan.args[no], ⟨⟩⟩).2
      ⟨hcon.1, hcon.2, by rw [List.getElem?_eq_getElem hlt, Option.map_some]⟩
    rw [hnone] at hsome
    cases hsome
  · intro hout
    rw [Option.eq_none_iff_forall_ne_some]
    intro slot hslot
    obtain ⟨hlt, hnot, -⟩ := (h.inFlight no slot).1 hslot
    rcases hout with hle | hmem
    · omega
    · exact hnot hmem

/-- The limit is kept. -/
theorem size_le (h : r.Ledger plan acked begun) : r.inFlight.size ≤ plan.limit := by
  rw [← h.permits]
  exact Nat.le_add_left _ _

/-- What waits is in flight. -/
theorem length_waiting_le (h : r.Ledger plan acked begun) :
    r.executor.waiting.length ≤ r.inFlight.size := by
  have hsize := h.size
  have hplaces := h.sound.books.length_le
  simp only [Floor.places, Floor.reported, Executor.floor, List.length_append,
    List.length_map] at hplaces
  omega

/-- A task is submitted. -/
theorem submit {args : α} {rest : List α} {e : Executor α κ β} {permit : Permit}
    {semaphore : Semaphore} (h : r.Ledger plan acked begun) (hpending : r.pending = args :: rest)
    (hacquire : r.semaphore.acquire = some (permit, semaphore))
    (haccepts : r.executor.accepts = true)
    (hsubmit : r.executor.submit ⟨r.nextTaskNo, args, r.monitor.forTask r.nextTaskNo⟩ = .ok e)
    (peak : Nat) :
    { r with
      pending := rest
      semaphore
      nextTaskNo := r.nextTaskNo + 1
      executor := e
      inFlight := r.inFlight.insert r.nextTaskNo ⟨Workload.label args, permit⟩
      peak }.Ledger plan acked begun := by
  -- what is pending are the arguments from the next number on
  have hdrop : args :: rest = plan.args.drop r.nextTaskNo := hpending.symm.trans h.pending
  have hargs : plan.args[r.nextTaskNo]? = some args := by
    rw [← List.head?_drop, ← hdrop, List.head?_cons]
  have hrest : rest = plan.args.drop (r.nextTaskNo + 1) := by
    rw [← List.tail_drop, ← hdrop, List.tail_cons]
  have hlt : r.nextTaskNo < plan.args.length := (List.getElem?_eq_some_iff.1 hargs).1
  have hnew : r.inFlight.get? r.nextTaskNo = none :=
    h.get?_inFlight_eq_none_iff.2 (.inl (Nat.le_refl _))
  have hacked : r.nextTaskNo ∉ acked.map (·.taskNo) := fun hmem =>
    Nat.lt_irrefl _ (h.sound.lt_of_reported (List.mem_append_right _ hmem))
  have htask : (⟨r.nextTaskNo, args, r.monitor.forTask r.nextTaskNo⟩ : Task α) ∈ plan.tasks := by
    rw [h.monitor]
    exact Plan.taskOf_mem hargs
  obtain ⟨hfloor, -, hcancelled, hstaffed⟩ := Executor.floor_of_submit r.commons haccepts hsubmit
  refine { h with
    cancelled := hcancelled.trans h.cancelled
    staffed := hstaffed _ h.staffed
    sound := ?sound
    pending := hrest
    le_length := hlt
    inFlight := ?inFlight
    size := ?size
    permits := ?permits }
  case sound =>
    simp only [hfloor]
    exact h.sound.submit htask rfl
  case inFlight =>
    intro no slot
    by_cases hno : no = r.nextTaskNo
    · subst hno
      simp [hacked, hargs, Slot.ext_iff]
    · -- no other task is concerned
      simp only [SortedMap.get?_insert_of_ne _ hno, h.inFlight no slot]
      have hiff : no < r.nextTaskNo ↔ no < r.nextTaskNo + 1 := by omega
      rw [hiff]
  case size =>
    simp only [SortedMap.size_insert hnew]
    have := h.size
    omega
  case permits =>
    have hpermits := h.permits
    have htaken := Semaphore.permits_of_acquire hacquire
    simp only [SortedMap.size_insert hnew]
    omega

/-- A task is acknowledged: its outcome is taken for good, and its permit is given back. -/
theorem settle {no amount : Nat} {slot : Slot} {part : Option (Tally κ β)}
    {outcome : Outcome κ β} {outcomes : List (Outcome κ β)}
    {buffered : SortedMap Nat (Outcome κ β)} {progress : Progress} {transport : σ}
    (h : r.Ledger plan acked begun) (hslot : r.inFlight.get? no = some slot)
    (hadvance : r.progress.advance amount = .ok progress) (hfiled : Filed buffered)
    (hperm : (r.commons.outcomes ++ r.buffered.values).Perm
      (outcome :: (outcomes ++ buffered.values)))
    (hno : outcome.taskNo = no) (hpart : outcome.result = .ok part) :
    { r with
      semaphore := r.semaphore.release slot.permit
      inFlight := r.inFlight.erase no
      channel := { r.channel with seen := no :: r.channel.seen }
      progress
      buffered
      commons := { r.commons with transport, outcomes } }.Ledger plan
        (acked ++ [(⟨no, slot.label, amount, progress, part⟩ : Completion κ β)]) begun := by
  obtain ⟨discarded, hchannel⟩ := h.channel
  obtain ⟨hlt, hacked, hargs⟩ := (h.inFlight no slot).1 hslot
  -- the outcome is that of a task of the plan, whatever the signal says
  obtain ⟨task, htask, rfl⟩ := h.sound.sent_mem outcome (hperm.mem_iff.2 List.mem_cons_self)
  obtain ⟨args, htaskArgs, heq⟩ := Plan.mem_tasks_iff.1 htask
  have htaskNo : task.no = no := hno
  have hsize := SortedMap.size_erase hslot
  refine { h with
    channel := ⟨discarded, by simp [hchannel]⟩
    total := (Progress.total_of_advance hadvance).trans h.total
    computed := ?computed
    sound := ?sound
    filed := hfiled
    inFlight := ?inFlight
    size := ?size
    permits := ?permits
    honest := ?honest }
  case computed =>
    rw [Progress.computed_of_advance hadvance, h.computed, List.map_append, List.sum_append]
    simp
  case sound =>
    have hsettled := (h.sound.settle hperm).congr { r.commons with transport, outcomes } rfl rfl rfl
    rw [hno] at hsettled
    simpa [Executor.floor] using hsettled
  case inFlight =>
    intro no' slot'
    by_cases heqno : no' = no
    · subst heqno
      simp [SortedMap.get?_erase_self]
    · simp only [SortedMap.get?_erase_of_ne _ heqno, h.inFlight no' slot']
      simp [heqno]
  case size =>
    have := h.size
    simp only [List.length_append, List.length_singleton]
    omega
  case permits =>
    have := h.permits
    simp only [Semaphore.permits_release]
    omega
  case honest =>
    intro c hc
    rcases List.mem_append.1 hc with hc | hc
    · exact h.honest c hc
    · rw [List.mem_singleton.1 hc]
      refine ⟨task, htask, htaskNo.symm, ?_, hpart⟩
      rw [htaskNo] at htaskArgs
      rw [htaskArgs, Option.map_some] at hargs
      rw [heq]
      exact (Option.some.inj hargs).symm

end Run.Ledger

end BatchRun
