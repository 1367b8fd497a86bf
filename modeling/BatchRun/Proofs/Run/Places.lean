import Mathlib.Data.List.Nodup
import Mathlib.Data.List.Perm.Subperm
import BatchRun.Proofs.Tally.Merging
import BatchRun.Run.Worker

/-!
# The places of submitted tasks

What a run is started with is its plan: the arguments of all tasks in their order, the work
function, and how they are to be dealt with. Every task of the plan that was submitted is in one
place: it waits, a worker has it in hand, or its outcome was sent. A place tells the number of
its task, whether the work function was called, and which values are still to be merged into the
shared tally. Whatever the order of moves, a place is changed by its own task only, so that the
books about all places are kept by small entries: a task is submitted, begins, has a value
merged, or is lost with its worker.

## Main definitions

* `Plan`: what a run is started with
* `Plan.entriesOf`, `Plan.outcomeOf`: what a task gives to merge, and its outcome
* `Place`: where a submitted task stands
* `mergesOf`: the merges of one task among those of all
* `Books`: what holds of all places together

## Main results

* `Books.submit`, `Books.begin`, `Books.merge`, `Books.lose`: the entries
* `Books.exists_place`: no task is missing unless a worker was lost
-/

namespace BatchRun

/-- What a run is started with. -/
structure Plan (α κ β : Type) [Ord κ] where
  work : WorkFunction α κ β
  /-- The channel before anything was received. -/
  channel : Channel
  monitor : Monitor
  /-- The arguments of all tasks, those that follow lazily last. -/
  args : List α
  limit : Nat
  total : Nat
  /-- Whether workers merge into a shared tally. -/
  shares : Bool

variable {α κ β : Type} [Ord κ]

namespace Plan

/-- What workers know of the plan. -/
def shop (plan : Plan α κ β) : Workshop α κ β := ⟨plan.work, plan.channel.notifier⟩

@[simp] theorem work_shop (plan : Plan α κ β) : plan.shop.work = plan.work := rfl

/-- The task of a number with its arguments. -/
def taskOf (plan : Plan α κ β) (no : Nat) (args : α) : Task α :=
  ⟨no, args, plan.monitor.forTask no⟩

/-- All tasks, numbered from zero in the order of their arguments. -/
def tasks (plan : Plan α κ β) : List (Task α) := plan.args.mapIdx plan.taskOf

/-- The values that a task gives to merge; none if it fails. -/
def entriesOf (plan : Plan α κ β) (task : Task α) : List (κ × β) :=
  match (plan.work task).verdict.result with
  | .ok part => part.entries
  | .error _ => []

/-- How a task turns out. Where results are shared, a partial result stays with the worker that
merges it. -/
def resultOf (plan : Plan α κ β) (task : Task α) : Except Cause (Option (Tally κ β)) :=
  match (plan.work task).verdict.result with
  | .ok part => .ok (if plan.shares then none else some part)
  | .error cause => .error cause

/-- The outcome of a task. -/
def outcomeOf [Workload α] (plan : Plan α κ β) (task : Task α) : Outcome κ β :=
  Worker.outcomeOf task (plan.resultOf task)

variable {plan : Plan α κ β}

theorem entriesOf_ok {t : Task α} {part : Tally κ β}
    (h : (plan.work t).verdict.result = .ok part) : plan.entriesOf t = part.entries := by
  rw [entriesOf, h]

theorem entriesOf_error {t : Task α} {cause : Cause}
    (h : (plan.work t).verdict.result = .error cause) : plan.entriesOf t = [] := by
  rw [entriesOf, h]

theorem resultOf_ok {t : Task α} {part : Tally κ β}
    (h : (plan.work t).verdict.result = .ok part) :
    plan.resultOf t = .ok (if plan.shares then none else some part) := by
  rw [resultOf, h]

theorem resultOf_error {t : Task α} {cause : Cause}
    (h : (plan.work t).verdict.result = .error cause) : plan.resultOf t = .error cause := by
  rw [resultOf, h]

theorem mem_tasks_iff {t : Task α} :
    t ∈ plan.tasks ↔ ∃ args, plan.args[t.no]? = some args ∧ t = plan.taskOf t.no args := by
  rw [tasks, List.mem_mapIdx]
  constructor
  · rintro ⟨no, hno, rfl⟩
    exact ⟨plan.args[no], List.getElem?_eq_getElem hno, rfl⟩
  · rintro ⟨args, hargs, ht⟩
    obtain ⟨hno, rfl⟩ := List.getElem?_eq_some_iff.1 hargs
    exact ⟨t.no, hno, ht.symm⟩

theorem taskOf_mem {no : Nat} {args : α} (h : plan.args[no]? = some args) :
    plan.taskOf no args ∈ plan.tasks :=
  mem_tasks_iff.2 ⟨args, h, rfl⟩

/-- Tasks are told apart by their numbers. -/
theorem eq_of_no_eq {t t' : Task α} (ht : t ∈ plan.tasks) (ht' : t' ∈ plan.tasks)
    (h : t.no = t'.no) : t = t' := by
  obtain ⟨args, hargs, heq⟩ := mem_tasks_iff.1 ht
  obtain ⟨args', hargs', heq'⟩ := mem_tasks_iff.1 ht'
  rw [h, hargs'] at hargs
  obtain rfl := Option.some.inj hargs
  rw [heq, heq', h]

@[simp] theorem length_tasks (plan : Plan α κ β) : plan.tasks.length = plan.args.length :=
  List.length_mapIdx

theorem map_no_tasks (plan : Plan α κ β) :
    plan.tasks.map (·.no) = List.range plan.args.length := by
  apply List.ext_getElem (by simp)
  intro no h _
  simp [tasks, taskOf]

end Plan

/-- Where a submitted task stands. -/
structure Place (κ β : Type) where
  no : Nat
  /-- Whether the work function was called. -/
  begun : Bool
  /-- The values that are still to be merged. -/
  rest : List (κ × β)

/-- The place of a task whose outcome was sent. -/
def Place.settled {κ β : Type} (no : Nat) : Place κ β := ⟨no, true, []⟩

/-- The merges of one task, from merges that are marked with the numbers of their tasks. -/
def mergesOf (no : Nat) (merges : List (Nat × κ × β)) : List (κ × β) :=
  (merges.filter fun m => m.1 = no).map Prod.snd

section Merges

omit [Ord κ]

@[simp] theorem mergesOf_nil (no : Nat) : mergesOf no ([] : List (Nat × κ × β)) = [] := rfl

theorem mergesOf_concat_self (merges : List (Nat × κ × β)) (no : Nat) (entry : κ × β) :
    mergesOf no (merges ++ [(no, entry)]) = mergesOf no merges ++ [entry] := by
  simp [mergesOf]

theorem mergesOf_concat_of_ne (merges : List (Nat × κ × β)) {no no' : Nat} (h : no' ≠ no)
    (entry : κ × β) : mergesOf no (merges ++ [(no', entry)]) = mergesOf no merges := by
  simp [mergesOf, h]

theorem mergesOf_eq_nil {merges : List (Nat × κ × β)} {no : Nat} (h : ∀ m ∈ merges, m.1 ≠ no) :
    mergesOf no merges = [] := by
  rw [mergesOf, List.filter_eq_nil_iff.2 (by simpa using h), List.map_nil]

end Merges

variable [Std.TransOrd κ] [Mergeable β]

/-- What the books say about the places of all submitted tasks. Tasks are numbered from zero, and
`submitted` is the number of the next one; `whole` says that no worker was lost, and `tally` is
the tally that workers merge into, if they do. -/
structure Books (plan : Plan α κ β) (submitted : Nat) (whole : Bool) (tally : Option (Tally κ β))
    (begun : List (Task α)) (places : List (Place κ β)) : Prop where
  /-- No task has two places. -/
  nodup : (places.map (·.no)).Nodup
  lt : ∀ p ∈ places, p.no < submitted
  /-- No work function is called twice for one task. -/
  begun_nodup : (begun.map (·.no)).Nodup
  begun_mem : ∀ t ∈ begun, t ∈ plan.tasks ∧ t.no < submitted
  begun_iff : ∀ p ∈ places, p.begun = true ↔ p.no ∈ begun.map (·.no)
  /-- A task is missing if and only if a worker was lost. -/
  complete : whole = true ↔ places.length = submitted
  /-- The shared tally holds what has been merged, and each task has still to merge the rest. -/
  merged : whole = true → ∀ shared, tally = some shared →
    ∃ merges : List (Nat × κ × β), Tally.empty.mergeEntries (merges.map Prod.snd) = .ok shared ∧
      (∀ m ∈ merges, m.1 < submitted) ∧
      ∀ p ∈ places, ∀ t ∈ plan.tasks, t.no = p.no →
        mergesOf p.no merges ++ p.rest = plan.entriesOf t

namespace Books

variable {plan : Plan α κ β} {submitted : Nat} {whole : Bool} {tally : Option (Tally κ β)}
  {begun : List (Task α)} {places : List (Place κ β)}

/-- The books of a run before anything is submitted. -/
theorem start (plan : Plan α κ β) :
    Books plan 0 true (if plan.shares then some .empty else none) [] [] where
  nodup := .nil
  lt := by simp
  begun_nodup := .nil
  begun_mem := by simp
  begun_iff := by simp
  complete := by simp
  merged := by
    intro _ shared hshared
    cases hshares : plan.shares with
    | false => simp [hshares] at hshared
    | true =>
      rw [hshares] at hshared
      obtain rfl := Option.some.inj hshared
      exact ⟨[], rfl, by simp, by simp⟩

/-- The order of the places does not matter. -/
theorem perm {places' : List (Place κ β)} (hperm : places.Perm places')
    (h : Books plan submitted whole tally begun places) :
    Books plan submitted whole tally begun places' where
  nodup := (hperm.map _).nodup_iff.1 h.nodup
  lt := fun p hp => h.lt p (hperm.mem_iff.2 hp)
  begun_nodup := h.begun_nodup
  begun_mem := h.begun_mem
  begun_iff := fun p hp => h.begun_iff p (hperm.mem_iff.2 hp)
  complete := by rw [← hperm.length_eq, h.complete]
  merged := by
    intro hwhole shared hshared
    obtain ⟨merges, hmerges, hlt, hrest⟩ := h.merged hwhole shared hshared
    exact ⟨merges, hmerges, hlt, fun p hp => hrest p (hperm.mem_iff.2 hp)⟩

theorem no_ne {p q : Place κ β} (h : Books plan submitted whole tally begun (p :: places))
    (hq : q ∈ places) : p.no ≠ q.no := by
  intro heq
  have hnot : p.no ∉ places.map (·.no) := (List.nodup_cons.1 h.nodup).1
  exact hnot (heq ▸ List.mem_map_of_mem hq)

/-- A task is submitted: its work function is not called yet, and all that it gives is to be
merged. -/
theorem submit {t : Task α} (ht : t ∈ plan.tasks) (hno : t.no = submitted)
    (h : Books plan submitted whole tally begun places) :
    Books plan (submitted + 1) whole tally begun
      (⟨t.no, false, plan.entriesOf t⟩ :: places) where
  nodup := by
    refine List.nodup_cons.2 ⟨fun hmem => ?_, h.nodup⟩
    obtain ⟨p, hp, hpno⟩ := List.mem_map.1 hmem
    have := h.lt p hp
    simp only at hpno
    omega
  lt := by
    intro p hp
    rcases List.mem_cons.1 hp with rfl | hp
    · simp only
      omega
    · have := h.lt p hp
      omega
  begun_nodup := h.begun_nodup
  begun_mem := fun t' ht' => ⟨(h.begun_mem t' ht').1, by have := (h.begun_mem t' ht').2; omega⟩
  begun_iff := by
    intro p hp
    rcases List.mem_cons.1 hp with rfl | hp
    · -- a number that was not given away yet is none of those that have begun
      simp only [Bool.false_eq_true, false_iff, List.mem_map, not_exists, not_and]
      intro t' ht' heq
      have := (h.begun_mem t' ht').2
      omega
    · exact h.begun_iff p hp
  complete := by rw [List.length_cons, h.complete, Nat.add_right_cancel_iff]
  merged := by
    intro hwhole shared hshared
    obtain ⟨merges, hmerges, hlt, hrest⟩ := h.merged hwhole shared hshared
    refine ⟨merges, hmerges, fun m hm => by have := hlt m hm; omega, ?_⟩
    intro p hp t' ht' heq
    rcases List.mem_cons.1 hp with rfl | hp
    -- all merges so far are those of tasks with smaller numbers
    · have hnone : mergesOf t.no merges = [] := mergesOf_eq_nil fun m hm => by
        have := hlt m hm
        omega
      rw [hnone, List.nil_append, Plan.eq_of_no_eq ht' ht heq]
    · exact hrest p hp t' ht' heq

/-- The work function of a task is called. -/
theorem begin {t : Task α} {rest : List (κ × β)} (ht : t ∈ plan.tasks)
    (h : Books plan submitted whole tally begun (⟨t.no, false, rest⟩ :: places)) :
    Books plan submitted whole tally (begun ++ [t]) (⟨t.no, true, rest⟩ :: places) where
  nodup := h.nodup
  lt := by simpa using h.lt
  begun_nodup := by
    -- the place says that the task has not begun
    have hnew : t.no ∉ begun.map (·.no) := fun hmem => by
      simpa using (h.begun_iff _ List.mem_cons_self).2 hmem
    rw [List.map_append, List.nodup_append]
    refine ⟨h.begun_nodup, List.nodup_singleton _, ?_⟩
    rintro n hn m hm rfl
    have hn' : n = t.no := List.mem_singleton.1 hm
    exact hnew (hn' ▸ hn)
  begun_mem := by
    intro t' ht'
    rcases List.mem_append.1 ht' with ht' | ht'
    · exact h.begun_mem t' ht'
    · obtain rfl := List.mem_singleton.1 ht'
      exact ⟨ht, h.lt _ List.mem_cons_self⟩
  begun_iff := by
    intro p hp
    rcases List.mem_cons.1 hp with rfl | hp
    · simp
    · have hne : t.no ≠ p.no := h.no_ne hp
      rw [h.begun_iff p (List.mem_cons_of_mem _ hp), List.map_append, List.mem_append]
      simp [hne.symm]
  complete := h.complete
  merged := by simpa using h.merged

/-- The next value of a task is merged into the shared tally. -/
theorem merge {no : Nat} {b : Bool} {k : κ} {delta : β} {rest : List (κ × β)}
    {shared shared' : Tally κ β} (hmerge : shared.mergeInto k delta = .ok shared')
    (h : Books plan submitted whole (some shared) begun
      (⟨no, b, (k, delta) :: rest⟩ :: places)) :
    Books plan submitted whole (some shared') begun (⟨no, b, rest⟩ :: places) where
  nodup := h.nodup
  lt := by simpa using h.lt
  begun_nodup := h.begun_nodup
  begun_mem := h.begun_mem
  begun_iff := by simpa using h.begun_iff
  complete := h.complete
  merged := by
    intro hwhole final hfinal
    obtain rfl := Option.some.inj hfinal
    obtain ⟨merges, hmerges, hlt, hrest⟩ := h.merged hwhole shared rfl
    -- what is merged moves from the rest of its own place to the end of all merges
    refine ⟨merges ++ [(no, k, delta)], ?_, ?_, ?_⟩
    · rw [List.map_append, List.map_singleton, Tally.mergeEntries_append hmerges]
      simp [Tally.mergeEntries, hmerge]
    · intro m hm
      rcases List.mem_append.1 hm with hm | hm
      · exact hlt m hm
      · obtain rfl := List.mem_singleton.1 hm
        exact h.lt _ List.mem_cons_self
    · intro p hp t ht heq
      rcases List.mem_cons.1 hp with rfl | hp
      · have := hrest _ List.mem_cons_self t ht heq
        rw [mergesOf_concat_self, List.append_assoc]
        exact this
      · have hne : no ≠ p.no := h.no_ne hp
        rw [mergesOf_concat_of_ne _ hne]
        exact hrest p (List.mem_cons_of_mem _ hp) t ht heq

/-- Where nothing is shared, it does not matter what is still to be merged. -/
theorem skip {no : Nat} {b : Bool} {rest rest' : List (κ × β)}
    (h : Books plan submitted whole none begun (⟨no, b, rest⟩ :: places)) :
    Books plan submitted whole none begun (⟨no, b, rest'⟩ :: places) where
  nodup := h.nodup
  lt := by simpa using h.lt
  begun_nodup := h.begun_nodup
  begun_mem := h.begun_mem
  begun_iff := by simpa using h.begun_iff
  complete := h.complete
  merged := by simp

theorem subperm_range (h : Books plan submitted whole tally begun places) :
    (places.map (·.no)).Subperm (List.range submitted) := by
  apply List.subperm_of_subset h.nodup
  intro n hn
  obtain ⟨p, hp, rfl⟩ := List.mem_map.1 hn
  exact List.mem_range.2 (h.lt p hp)

/-- No more tasks have a place than were submitted. -/
theorem length_le (h : Books plan submitted whole tally begun places) :
    places.length ≤ submitted := by
  simpa using h.subperm_range.length_le

/-- A worker is lost, and with it some of the places and the account of the merges. -/
theorem lose {places' : List (Place κ β)} (tally' : Option (Tally κ β))
    (hsub : places'.Sublist places) (hlt : places'.length < submitted)
    (h : Books plan submitted whole tally begun places) :
    Books plan submitted false tally' begun places' where
  nodup := h.nodup.sublist (hsub.map _)
  lt := fun p hp => h.lt p (hsub.subset hp)
  begun_nodup := h.begun_nodup
  begun_mem := h.begun_mem
  begun_iff := fun p hp => h.begun_iff p (hsub.subset hp)
  complete := by
    simp only [Bool.false_eq_true, false_iff]
    omega
  merged := by simp

/-- Unless a worker was lost, every submitted task has a place. -/
theorem exists_place (h : Books plan submitted whole tally begun places)
    (hwhole : whole = true) {no : Nat} (hno : no < submitted) : ∃ p ∈ places, p.no = no := by
  have hperm : (places.map (·.no)).Perm (List.range submitted) :=
    h.subperm_range.perm_of_length_le (by simp [h.complete.1 hwhole])
  exact List.mem_map.1 (hperm.mem_iff.2 (List.mem_range.2 hno))

end Books

end BatchRun
