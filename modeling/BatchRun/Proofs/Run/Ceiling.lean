import BatchRun.Proofs.Run.Orderly
import BatchRun.Proofs.Run.Posted
import BatchRun.Proofs.Run.Verdict

/-!
# The ceiling of concurrency

No more tasks than the limit allows are submitted without their outcomes being sent, wherever
they are: in the queue, in the hands of a worker, or lost with one. The control node counts the
tasks in flight, and a task leaves that count only when its own outcome is in hand, so that what
a transport delivers cannot make room that there is not. The queue of a pool has as many places
as the limit, and is therefore never found full.

## Main definitions

* `Worker.held`, `Floor.held`: the tasks whose outcomes are still to be sent
* `Inquiry.unsent`: the submitted tasks whose outcomes were not sent
* `Inquiry.UnderCeiling`: what the limit means

## Main results

* `Floor.Steps.held`: what workers do with what they hold
* `Inquiry.Reaches.underCeiling`: inquiries stay under the ceiling until the run is aborted
-/

namespace BatchRun

open Std Relation

variable {σ α κ β : Type} [Ord κ]

/-- The number of the task in the hands of a worker, until its outcome is sent. -/
def Worker.held : Worker α κ β → List Nat
  | holding task | running task _ | merging task _ => [task.no]
  | reporting outcome => [outcome.taskNo]
  | idle | signalling .. | gone | lost _ => []

/-- The numbers of the tasks that wait or are in the hands of workers. -/
def Floor.held (f : Floor σ α κ β) : List Nat :=
  f.queue.map (·.no) ++ f.workers.flatMap Worker.held

/-- The numbers of the tasks that an executor has and has not sent the outcomes of. -/
def Executor.held (e : Executor α κ β) : List Nat :=
  e.waiting.map (·.no) ++ e.workers.flatMap Worker.held

theorem Executor.held_floor (e : Executor α κ β) (commons : Commons σ κ β) :
    (e.floor commons).held = e.held := rfl

/-- A task that is accepted is held. -/
theorem Executor.held_of_submit {task : Task α} {e e' : Executor α κ β} (commons : Commons σ κ β)
    (haccepts : e.accepts = true) (h : e.submit task = .ok e') :
    e'.held.Perm (task.no :: e.held) := by
  have hheld := congrArg Floor.held (floor_of_submit commons haccepts h).1
  rw [held_floor] at hheld
  rw [hheld, ← held_floor e commons]
  simp only [Floor.held, List.map_append, List.map_cons, List.map_nil, List.append_assoc,
    List.cons_append, List.nil_append]
  exact List.perm_middle

/-- What goes out of a part of what is held goes out of the whole. -/
theorem subperm_append_others {held held' sent : List Nat} (h : (held' ++ sent).Subperm held)
    (others : List Nat) : (held' ++ others ++ sent).Subperm (held ++ others) := by
  have hperm : (held' ++ others ++ sent).Perm (held' ++ sent ++ others) := by
    simp only [List.append_assoc]
    exact List.perm_append_comm.append_left _
  exact hperm.subperm_right.2 ((List.subperm_append_right _).2 h)

/-- How what is held changes when more outcomes are sent: nothing comes in anew, and what is sent
goes out. -/
def Releases (held held' : List Nat) (outcomes outcomes' : List (Outcome κ β)) : Prop :=
  ∃ more, outcomes' = outcomes ++ more ∧ (held' ++ more.map (·.taskNo)).Subperm held

namespace Releases

variable {held held' held'' : List Nat} {outcomes outcomes' outcomes'' : List (Outcome κ β)}

theorem of_subperm (h : held'.Subperm held) : Releases held held' outcomes outcomes :=
  ⟨[], (List.append_nil _).symm, by simpa using h⟩

theorem trans (h : Releases held held' outcomes outcomes')
    (h' : Releases held' held'' outcomes' outcomes'') :
    Releases held held'' outcomes outcomes'' := by
  obtain ⟨more, rfl, hsub⟩ := h
  obtain ⟨more', rfl, hsub'⟩ := h'
  refine ⟨more ++ more', List.append_assoc .., List.Subperm.trans ?_ hsub⟩
  rw [List.map_append, ← List.append_assoc]
  exact subperm_append_others hsub' _

/-- Others may hold something as well. -/
theorem frame (h : Releases held held' outcomes outcomes') (others : List Nat) :
    Releases (held ++ others) (held' ++ others) outcomes outcomes' := by
  obtain ⟨more, rfl, hsub⟩ := h
  exact ⟨more, rfl, subperm_append_others hsub others⟩

end Releases

section Held

variable [TransOrd κ] [Mergeable β] [Transport σ] [Workload α]

/-- A worker holds its task until the outcome is sent. -/
theorem Worker.releases_step (shop : Workshop α κ β) (w : Worker α κ β) (commons : Commons σ κ β)
    (hbusy : w.isBusy = true) :
    Releases w.held (w.step shop commons).1.held commons.outcomes
      (w.step shop commons).2.outcomes := by
  cases w, hbusy using busyCases with
  | running task ends =>
    simp only [step, conclude]
    split
    · exact .of_subperm (.refl _)
    · split <;> exact .of_subperm (.refl _)
  | merged task => exact .of_subperm (.refl _)
  | merging task k delta rest =>
    simp only [step]
    split
    · exact .of_subperm (.refl _)
    · split
      · exact .of_subperm (.refl _)
      · exact .of_subperm (List.nil_subperm)
  | reporting outcome =>
    simp only [step, Commons.send]
    split
    · exact ⟨[outcome], rfl, .refl _⟩
    · exact .of_subperm (List.nil_subperm)
  | signalling taskNo said =>
    obtain ⟨transport, hpublish⟩ :=
      commons.exists_publish_eq shop.notifier (signalOf shop taskNo said commons.now)
    rw [step, hpublish]
    exact .of_subperm (.refl _)

namespace Floor

omit [TransOrd κ] [Mergeable β] [Transport σ] [Workload α] in
/-- What one worker holds, and what else is held. -/
theorem held_perm (queue : List (Task α)) (before after : List (Worker α κ β)) (w : Worker α κ β)
    (commons : Commons σ κ β) :
    (⟨queue, before ++ w :: after, commons⟩ : Floor σ α κ β).held.Perm
      (w.held ++ (queue.map (·.no) ++ (before ++ after).flatMap Worker.held)) := by
  simp only [held, List.flatMap_append, List.flatMap_cons]
  rw [← List.append_assoc, ← List.append_assoc, ← List.append_assoc]
  have hswap : (queue.map (·.no) ++ before.flatMap Worker.held ++ w.held).Perm
      (w.held ++ queue.map (·.no) ++ before.flatMap Worker.held) := by
    rw [List.append_assoc w.held]
    exact List.perm_append_comm
  simpa only [List.append_assoc] using hswap.append_right (after.flatMap Worker.held)

/-- What a step of the floor does with what is held. -/
theorem Step.releases {shop : Workshop α κ β} {f g : Floor σ α κ β} {new : List (Task α)}
    (h : Step shop f new g) : Releases f.held g.held f.commons.outcomes g.commons.outcomes := by
  -- one worker goes to another station, and the others hold what they have held
  have hone : ∀ (queue : List (Task α)) (before after : List (Worker α κ β))
      (w w' : Worker α κ β) (commons commons' : Commons σ κ β),
      Releases w.held w'.held commons.outcomes commons'.outcomes →
        Releases (⟨queue, before ++ w :: after, commons⟩ : Floor σ α κ β).held
          (⟨queue, before ++ w' :: after, commons'⟩ : Floor σ α κ β).held commons.outcomes
          commons'.outcomes := by
    intro queue before after w w' commons commons' hw
    obtain ⟨more, hmore, hsub⟩ :=
      hw.frame (queue.map (·.no) ++ (before ++ after).flatMap Worker.held)
    refine ⟨more, hmore, (held_perm ..).subperm_left.2 ?_⟩
    exact ((held_perm ..).append_right _).subperm_right.2 hsub
  cases h with
  | take task queue before after commons =>
    refine .of_subperm (List.Perm.subperm ?_)
    refine (held_perm queue before after (.holding task) commons).trans ?_
    exact (held_perm (task :: queue) before after .idle commons).symm
  | leave before after commons => exact hone _ _ _ _ _ _ _ (.of_subperm (.refl _))
  | begin task queue before after commons => exact hone _ _ _ _ _ _ _ (.of_subperm (.refl _))
  | work w queue before after commons hbusy =>
    exact hone _ _ _ _ _ _ _ (w.releases_step shop commons hbusy)
  | desert _ _ =>
    exact .of_subperm (List.sublist_append_right _ _).subperm

/-- What rows of steps do with what is held. -/
theorem Steps.releases {shop : Workshop α κ β} {f g : Floor σ α κ β} {begun : List (Task α)}
    (h : Steps shop f begun g) :
    Releases f.held g.held f.commons.outcomes g.commons.outcomes := by
  induction h with
  | refl => exact .of_subperm (.refl _)
  | tail _ hlast ih => exact ih.trans hlast.releases

end Floor

namespace Executor

/-- What a worker of an executor does with what is held. -/
theorem releases_step {shop : Workshop α κ β} {index : Nat} {e e' : Executor α κ β}
    {commons commons' : Commons σ κ β} (hcancelled : e.isCancelled = false)
    (h : e.step shop index commons = some (e', commons')) :
    Releases e.held e'.held commons.outcomes commons'.outcomes :=
  (steps_of_step hcancelled h).releases

/-- What becomes of what is held when queued tasks are given a chance to run, with or without a
fault. -/
theorem releases_drive {shop : Workshop α κ β} {e e' : Executor α κ β}
    {commons commons' : Commons σ κ β} {fault : Option Fault}
    (h : e.drive shop commons = (fault, e', commons')) :
    Releases e.held e'.held commons.outcomes commons'.outcomes := by
  cases e with
  | pool p =>
    obtain ⟨-, rfl, rfl⟩ := h
    exact .of_subperm (.refl _)
  | sequential queue closed =>
    cases queue with
    | nil =>
      obtain ⟨-, rfl, rfl⟩ := h
      exact .of_subperm (.refl _)
    | cons task rest =>
      obtain ⟨-, rfl, rfl⟩ := h
      obtain ⟨w, hrow, hidle, hlost⟩ := Worker.steps_runTask shop task rest commons
      -- whether the worker is lost or idle, its hands are empty
      have hnone : w.held = [] := by
        by_cases hfault : (Worker.runTask shop task commons).1 = none
        · rw [hidle hfault]
          rfl
        · have := hlost hfault
          cases w <;> simp [Worker.isLost] at this
          rfl
      have hreleases := hrow.releases
      simp only [Floor.held, List.flatMap_singleton, hnone] at hreleases
      exact hreleases

end Executor

end Held

namespace Run

/-- What is sent in a move stands behind what waited before. -/
theorem sends_of_append {r r' : Run σ α κ β} {more : List (Outcome κ β)}
    (h : r'.commons.outcomes = r.commons.outcomes ++ more) : r.sends r' = more.map (·.taskNo) := by
  rw [sends, h, List.drop_left]

/-- Nothing is sent when outcomes are taken. -/
theorem sends_of_suffix {r r' : Run σ α κ β}
    (h : r'.commons.outcomes <:+ r.commons.outcomes) : r.sends r' = [] := by
  rw [sends, List.drop_eq_nil_of_le h.length_le]
  rfl

/-- The numbers of the submitted tasks whose outcomes are not among those that were sent. -/
def unsent (sent : List Nat) (r : Run σ α κ β) : List Nat :=
  (List.range r.nextTaskNo).filter (· ∉ sent)

theorem mem_unsent_iff {sent : List Nat} {r : Run σ α κ β} {no : Nat} :
    no ∈ r.unsent sent ↔ no < r.nextTaskNo ∧ no ∉ sent := by
  rw [unsent, List.mem_filter, List.mem_range, decide_eq_true_iff]

theorem nodup_unsent (sent : List Nat) (r : Run σ α κ β) : (r.unsent sent).Nodup :=
  List.nodup_range.filter _

/-- What the control node knows of the tasks whose outcomes are still to be sent, in a run that is
not aborted, and after outcomes that were sent: they are in flight. -/
structure Bounded (limit : Nat) (sent : List Nat) (r : Run σ α κ β) : Prop where
  limit_eq : r.limit = limit
  inFlight : ∀ no < r.nextTaskNo, no ∉ sent → r.inFlight.get? no ≠ none
  filed : Filed r.buffered
  sent_mem : ∀ o ∈ r.commons.outcomes ++ r.buffered.values, o.taskNo ∈ sent
  /-- What is held or was sent are different submitted tasks. -/
  nodup : (r.executor.held ++ sent).Nodup
  lt : ∀ no ∈ r.executor.held ++ sent, no < r.nextTaskNo
  cancelled : r.executor.isCancelled = false
  staffed : r.executor.Staffed limit
  accepts : r.executor.accepts = r.state.acceptsTasks

namespace Bounded

variable {limit : Nat} {sent : List Nat} {r : Run σ α κ β}

/-- No more tasks are without outcomes than are in flight. -/
theorem length_unsent_le (h : r.Bounded limit sent) :
    (r.unsent sent).length ≤ r.inFlight.size := by
  have hsub : r.unsent sent ⊆ r.inFlight.keys := by
    intro no hno
    obtain ⟨hlt, hunsent⟩ := mem_unsent_iff.1 hno
    obtain ⟨slot, hslot⟩ := Option.ne_none_iff_exists'.1 (h.inFlight no hlt hunsent)
    exact List.mem_map_of_mem (SortedMap.get?_eq_some_iff.1 hslot)
  have hlength := ((nodup_unsent sent r).subperm hsub).length_le
  rwa [SortedMap.keys, List.length_map] at hlength

/-- What is held is submitted, and not sent. -/
theorem held_subset (h : r.Bounded limit sent) :
    r.executor.held.Nodup ∧ r.executor.held ⊆ r.unsent sent := by
  obtain ⟨hnodup, -, hapart⟩ := List.nodup_append.1 h.nodup
  refine ⟨hnodup, fun no hno => mem_unsent_iff.2 ⟨?_, ?_⟩⟩
  · exact h.lt no (List.mem_append_left _ hno)
  · exact fun hsent => hapart no hno no hsent rfl

/-- As long as a task may be submitted, there is room for it in the queue. -/
theorem submit_ne_full (h : r.Bounded limit sent) (hroom : r.inFlight.size < r.limit)
    (task : Task α) (no : Nat) :
    r.executor.submit task ≠ .error (.transport (.poolFull no)) := by
  have hwaiting : r.executor.waiting.length < limit := by
    have hheld := (h.held_subset.1.subperm h.held_subset.2).length_le
    have hunsent := h.length_unsent_le
    rw [Executor.held, List.length_append, List.length_map] at hheld
    rw [h.limit_eq] at hroom
    omega
  have hstaffed := h.staffed
  cases hexecutor : r.executor with
  | sequential queue closed => simp [Executor.submit]
  | pool p =>
    rw [hexecutor] at hwaiting hstaffed
    have hplaces : ¬p.capacity ≤ p.queue.length := by
      rw [hstaffed.1]
      exact Nat.not_le.2 hwaiting
    simp only [Executor.submit, Pool.submit, hplaces, if_false]
    split
    · simp
    · next hproblem =>
      repeat' split at hproblem
      all_goals cases hproblem
      all_goals simp

/-- What is sent, and what goes on elsewhere, is of no concern to the tasks in flight. -/
theorem release (h : r.Bounded limit sent) {e : Executor α κ β} {commons : Commons σ κ β}
    {more : List (Outcome κ β)} (phase : Phase κ β)
    (houtcomes : commons.outcomes = r.commons.outcomes ++ more)
    (hheld : (e.held ++ more.map (·.taskNo)).Subperm r.executor.held)
    (hstaffed : e.accepts = r.executor.accepts ∧ e.isCancelled = r.executor.isCancelled ∧
      ∀ limit, r.executor.Staffed limit → e.Staffed limit) :
    ({ r with executor := e, commons, phase } : Run σ α κ β).Bounded limit
      (sent ++ more.map (·.taskNo)) := by
  have hsub : (e.held ++ (sent ++ more.map (·.taskNo))).Subperm (r.executor.held ++ sent) := by
    rw [← List.append_assoc]
    exact subperm_append_others hheld sent
  refine { h with
    inFlight := ?inFlight
    sent_mem := ?sent_mem
    nodup := ?nodup
    lt := fun no hno => h.lt no (hsub.subset hno)
    cancelled := hstaffed.2.1.trans h.cancelled
    staffed := hstaffed.2.2 limit h.staffed
    accepts := hstaffed.1.trans h.accepts }
  case inFlight =>
    exact fun no hlt hunsent => h.inFlight no hlt fun hmem =>
      hunsent (List.mem_append_left _ hmem)
  case sent_mem =>
    intro o ho
    simp only [houtcomes, List.append_assoc, List.mem_append] at ho
    rcases ho with ho | ho | ho
    · exact List.mem_append_left _ (h.sent_mem o (List.mem_append_left _ ho))
    · exact List.mem_append_right _ (List.mem_map_of_mem ho)
    · exact List.mem_append_left _ (h.sent_mem o (List.mem_append_right _ ho))
  case nodup =>
    obtain ⟨l, hperm, hsublist⟩ := hsub
    exact hperm.nodup_iff.1 (hsublist.nodup h.nodup)

/-- A task is submitted. -/
theorem submit (h : r.Bounded limit sent) {args : α} {rest : List α} {e : Executor α κ β}
    (hstate : r.state.acceptsTasks = true)
    (hsubmit : r.executor.submit ⟨r.nextTaskNo, args, r.monitor.forTask r.nextTaskNo⟩ = .ok e)
    (semaphore : Semaphore) (slot : Slot) (peak : Nat) :
    ({ r with
      pending := rest
      semaphore
      nextTaskNo := r.nextTaskNo + 1
      executor := e
      inFlight := r.inFlight.insert r.nextTaskNo slot
      peak } : Run σ α κ β).Bounded limit sent := by
  obtain ⟨-, haccepts, hcancelled, hstaffed⟩ :=
    Executor.floor_of_submit r.commons (h.accepts.trans hstate) hsubmit
  -- the number of the task was not given away yet
  have hheld : (e.held ++ sent).Perm (r.nextTaskNo :: (r.executor.held ++ sent)) :=
    (Executor.held_of_submit r.commons (h.accepts.trans hstate) hsubmit).append_right sent
  have hfresh : r.nextTaskNo ∉ r.executor.held ++ sent :=
    fun hmem => Nat.lt_irrefl _ (h.lt _ hmem)
  refine { h with
    inFlight := ?inFlight
    nodup := hheld.nodup_iff.2 (List.nodup_cons.2 ⟨hfresh, h.nodup⟩)
    lt := ?lt
    cancelled := hcancelled.trans h.cancelled
    staffed := hstaffed limit h.staffed
    accepts := haccepts.trans hstate.symm }
  case inFlight =>
    intro no hlt hunsent
    by_cases hno : no = r.nextTaskNo
    · subst hno
      simp
    · simp only [SortedMap.get?_insert_of_ne _ hno]
      exact h.inFlight no (by simp only at hlt; omega) hunsent
  case lt =>
    intro no hmem
    rcases List.mem_cons.1 (hheld.mem_iff.1 hmem) with rfl | hmem
    · exact Nat.lt_succ_self _
    · exact Nat.lt_succ_of_lt (h.lt no hmem)

/-- A task is acknowledged, with its outcome in hand. -/
theorem acknowledge (h : r.Bounded limit sent) {no : Nat} {outcome : Outcome κ β}
    {buffered : SortedMap Nat (Outcome κ β)} {outcomes : List (Outcome κ β)}
    (htake : r.takeOutcome no =
      (some outcome, { r with buffered, commons := { r.commons with outcomes } }))
    (semaphore : Semaphore) (channel : Channel) (progress : Progress) (transport : σ)
    (phase : Phase κ β) :
    ({ r with
      semaphore
      inFlight := r.inFlight.erase no
      channel
      progress
      buffered
      commons := { r.commons with transport, outcomes }
      phase } : Run σ α κ β).Bounded limit sent := by
  obtain ⟨hsent, hno, hfiled, hrest⟩ := forall_of_takeOutcome h.filed h.sent_mem htake
  refine { h with
    inFlight := ?inFlight
    filed := hfiled
    sent_mem := hrest }
  case inFlight =>
    intro no' hlt hunsent
    -- the outcome in hand is that of the task, which therefore was sent
    have hne : no' ≠ no := fun heq => hunsent (heq ▸ hno ▸ hsent)
    simp only [SortedMap.get?_erase_of_ne _ hne]
    exact h.inFlight no' hlt hunsent

variable [TransOrd κ] [Mergeable β] [Transport σ] [Workload α] {r' : Run σ α κ β}

/-- What the control node does keeps the tasks without outcomes in flight. -/
theorem did (h : r.Bounded limit sent) (hdid : r.Did r') (hstaged : r.Staged)
    (hopen : r'.state ≠ .aborted) : r'.Bounded limit (sent ++ r.sends r') := by
  -- where nothing happens to outcomes, nothing is sent
  have hidle : ∀ r' : Run σ α κ β, r'.Bounded limit sent →
      r'.commons.outcomes <:+ r.commons.outcomes → r'.Bounded limit (sent ++ r.sends r') := by
    intro r' h' hsuffix
    rw [sends_of_suffix hsuffix, List.append_nil]
    exact h'
  cases hdid with
  | submit acknowledged args rest permit semaphore executor hphase hstate hacquire hpending
      hsubmit =>
    exact hidle _ (h.submit hstate hsubmit _ _ _) List.suffix_rfl
  | fill hphase =>
    refine hidle _ { h with accepts := h.accepts.trans ?_ } List.suffix_rfl
    rw [hstaged.at_filling hphase]
    rfl
  | reply => exact hidle _ { h with } List.suffix_rfl
  | finish last =>
    obtain ⟨hfloor, haccepts, hcancelled, hstaffed⟩ := r.executor.floor_of_close r.commons
    have hheld : r.executor.close.held = r.executor.held := congrArg Floor.held hfloor
    refine hidle _ { h with
      nodup := ?_
      lt := ?_
      cancelled := hcancelled.trans h.cancelled
      staffed := hstaffed limit h.staffed
      accepts := haccepts } List.suffix_rfl
    · simp only [Run.finish, hheld]
      exact h.nodup
    · simp only [Run.finish, hheld]
      exact h.lt
  | drive executor commons phase hphase hdrive =>
    obtain ⟨more, houtcomes, hheld⟩ := Executor.releases_drive hdrive
    rw [sends_of_append (by exact houtcomes)]
    exact h.release phase houtcomes hheld (Executor.staffed_of_drive hdrive)
  | crash fault executor commons hphase hdrive =>
    obtain ⟨more, houtcomes, hheld⟩ := Executor.releases_drive hdrive
    rw [sends_of_append (by exact houtcomes)]
    exact h.release (.crashed fault) houtcomes hheld (Executor.staffed_of_drive hdrive)
  | join => exact hidle _ { h with } List.suffix_rfl
  | drop => exact hidle _ { h with } List.suffix_rfl
  | acknowledge since signal slot outcome part progress transport channel buffered outcomes hphase
      hincoming hslot hpasses hadvance htake hpart =>
    refine hidle _ (h.acknowledge htake _ channel progress transport _) ?_
    have hsuffix := r.takeOutcome_suffix signal.taskNo
    rw [htake] at hsuffix
    exact hsuffix
  | fail error _ _ hfailed => exact absurd hfailed.state hopen

/-- A task leaves those in flight only with its own outcome in hand, unless the run is aborted. -/
theorem exists_outcome (h : r.Bounded limit sent) (hdid : r.Did r') (hopen : r'.state ≠ .aborted)
    {no : Nat} (hbefore : r.inFlight.get? no ≠ none) (hafter : r'.inFlight.get? no = none) :
    ∃ outcome ∈ r.commons.outcomes ++ r.buffered.values, outcome.taskNo = no := by
  cases hdid with
  | submit acknowledged args =>
    by_cases hno : no = r.nextTaskNo
    · simp [hno] at hafter
    · simp only [SortedMap.get?_insert_of_ne _ hno] at hafter
      exact absurd hafter hbefore
  | acknowledge since signal slot outcome part progress transport channel buffered outcomes hphase
      hincoming hslot hpasses hadvance htake hpart =>
    obtain ⟨hmem, hno, -⟩ := forall_of_takeOutcome h.filed (fun o ho => ho) htake
    by_cases heq : no = signal.taskNo
    · exact ⟨outcome, hmem, hno.trans heq.symm⟩
    · simp only [SortedMap.get?_erase_of_ne _ heq] at hafter
      exact absurd hafter hbefore
  | fail error _ _ hfailed => exact absurd hfailed.state hopen
  | _ => exact absurd hafter hbefore

end Bounded

end Run

namespace Inquiry

/-- The numbers of the submitted tasks whose outcomes were not sent. -/
def unsent (q : Inquiry σ α κ β) : List Nat := q.run.unsent q.sent

/-- What the limit means for an inquiry into a run that is not aborted. -/
structure UnderCeiling (limit : Nat) (q : Inquiry σ α κ β) : Prop where
  /-- No more tasks are without outcomes than the limit allows. -/
  unsent_le : q.unsent.length ≤ limit
  /-- What waits or is in the hands of workers are such tasks, each of them once. -/
  held : q.run.executor.held.Nodup ∧ q.run.executor.held ⊆ q.unsent
  /-- A task that is submitted finds room in the queue. -/
  room : ∀ acknowledged, q.run.phase = .filling acknowledged → q.run.inFlight.size < q.run.limit →
    ∀ task no, q.run.executor.submit task ≠ .error (.transport (.poolFull no))

variable [TransOrd κ] [Mergeable β] [Transport σ] [Workload α]

/-- What an inquiry into an orderly run does keeps the tasks without outcomes in flight. -/
theorem Step.bounded {limit total : Nat} {q q' : Inquiry σ α κ β} (h : q.Step q')
    (horderly : q.Orderly total) (hbounded : q.run.Bounded limit q.sent)
    (hopen : q'.run.state ≠ .aborted) : q'.run.Bounded limit q'.sent := by
  cases h with
  | ask hask =>
    obtain ⟨phase, heq⟩ := q.run.ask_eq
    rw [run_ask, heq]
    exact { hbounded with }
  | arrive transport => exact { hbounded with }
  | @move m run hmove =>
    rcases Run.did_or_step_of_move? hmove with ⟨hdid, -⟩ | ⟨_, executor, commons, -, hstep, rfl⟩
    · exact hbounded.did hdid (hdid.staged horderly.run) hopen
    · obtain ⟨more, houtcomes, hheld⟩ := Executor.releases_step hbounded.cancelled hstep
      have hsends : q.run.sends { q.run with executor, commons } = more.map (·.taskNo) :=
        Run.sends_of_append houtcomes
      have hnext := hbounded.release q.run.phase houtcomes hheld (Executor.staffed_of_step hstep)
      rw [← hsends] at hnext
      exact hnext

variable {d : Dispatcher α κ β} {transport : σ} {pending : Pending α} {total : Nat}
  {run : Run σ α κ β} {q q' : Inquiry σ α κ β}

omit [TransOrd κ] [Mergeable β] [Workload α] in
/-- Nothing is submitted or sent when a run starts. -/
theorem bounded_of_start (h : d.start transport pending total = .ok run) :
    run.Bounded d.settings.limit [] := by
  obtain ⟨mode, executor, opened, hexecutor, -, rfl⟩ := Dispatcher.exists_of_start h
  obtain ⟨hwaiting, hidle, haccepts, hcancelled, hstaffed⟩ := Executor.of_ofMode hexecutor
  have hheld : executor.held = [] := by
    rw [Executor.held, hwaiting, List.map_nil, List.nil_append, List.flatMap_eq_nil_iff]
    intro w hw
    rw [hidle w hw]
    rfl
  exact {
    limit_eq := rfl
    inFlight := fun _ hlt => absurd hlt (Nat.not_lt_zero _)
    filed := by simp [Filed, Dispatcher.fresh]
    sent_mem := by simp [Dispatcher.fresh, Commons.start, SortedMap.values]
    nodup := by simp [Dispatcher.fresh, hheld]
    lt := by simp [Dispatcher.fresh, hheld]
    cancelled := hcancelled
    staffed := hstaffed
    accepts := haccepts }

/-- The tasks without outcomes are in flight until the run is aborted. -/
theorem Reaches.bounded (hstart : d.start transport pending total = .ok run)
    (hreaches : Reaches run q) (hopen : q.run.state ≠ .aborted) :
    q.run.Bounded d.settings.limit q.sent := by
  induction hreaches with
  | refl => exact bounded_of_start hstart
  | @tail q q' hrow hlast ih =>
    have horderly := AnyReaches.orderly hstart (Reaches.any hrow)
    -- a run that is not aborted now was not aborted before
    have hbefore : q.run.state ≠ .aborted := by
      intro haborted
      have hleads := (horderly.proceeds (AnyStep.step hlast).went).leads
      rw [haborted] at hleads
      exact hopen hleads.eq_aborted
    exact hlast.bounded horderly (ih hbefore) hopen

/-- Whatever a transport delivers and in whatever order everything happens, an inquiry stays under
the ceiling until the run is aborted: a task leaves those in flight only once its own outcome is
there to be taken. -/
theorem Reaches.underCeiling (hstart : d.start transport pending total = .ok run)
    (hreaches : Reaches run q) (hopen : q.run.state ≠ .aborted) :
    q.UnderCeiling d.settings.limit ∧
      ∀ q', q.Step q' → q'.run.state ≠ .aborted → ∀ no, q.run.inFlight.get? no ≠ none →
        q'.run.inFlight.get? no = none → no ∈ q.sent ∧
          ∃ outcome ∈ q.run.commons.outcomes ++ q.run.buffered.values, outcome.taskNo = no := by
  have hbounded := hreaches.bounded hstart hopen
  have hbalanced := (AnyReaches.orderly hstart (Reaches.any hreaches)).balanced
  have hsize : q.run.inFlight.size ≤ d.settings.limit := hbounded.limit_eq ▸ hbalanced.size_le
  refine ⟨⟨hbounded.length_unsent_le.trans hsize, hbounded.held_subset,
    fun _ _ hroom => hbounded.submit_ne_full hroom⟩, ?_⟩
  intro q' hstep hopen' no hbefore hafter
  suffices hhere : ∃ outcome ∈ q.run.commons.outcomes ++ q.run.buffered.values,
      outcome.taskNo = no by
    obtain ⟨outcome, hmem, rfl⟩ := hhere
    exact ⟨hbounded.sent_mem outcome hmem, outcome, hmem, rfl⟩
  cases hstep with
  | ask hask =>
    obtain ⟨phase, heq⟩ := q.run.ask_eq
    rw [run_ask, heq] at hafter
    exact absurd hafter hbefore
  | arrive transport => exact absurd hafter hbefore
  | @move m run hmove =>
    rcases Run.did_or_step_of_move? hmove with ⟨hdid, -⟩ | ⟨_, executor, commons, -, -, rfl⟩
    · exact hbounded.exists_outcome hdid hopen' hbefore hafter
    · exact absurd hafter hbefore

end Inquiry

/-- Two tasks wait for two threads, which is as many as there may be. -/
theorem Inquiry.underCeiling_of_twoThreads :
    ∃ (run : Run FaultyBroker ScriptedTask String Count)
      (q : Inquiry FaultyBroker ScriptedTask String Count),
      Dispatcher.twoThreads.start FaultyBroker.doubling .none 4 = .ok run ∧ Reaches run q ∧
        q.run.state ≠ .aborted ∧ q.run.executor.held = [0, 1] ∧ q.UnderCeiling 2 ∧
        ∀ q', q.Step q' → q'.run.state ≠ .aborted → ∀ no, q.run.inFlight.get? no ≠ none →
          q'.run.inFlight.get? no = none → no ∈ q.sent ∧
            ∃ outcome ∈ q.run.commons.outcomes ++ q.run.buffered.values, outcome.taskNo = no := by
  have hplayed : (match Dispatcher.twoThreads.start FaultyBroker.doubling .none 4 with
      | .ok run =>
        let played := run.ask.play (fun _ => false) 3
        run.mayAsk && decide (played.state ≠ .aborted ∧ played.executor.held = [0, 1])
      | .error _ => false) = true := by decide +kernel
  split at hplayed
  · next run hstart =>
    obtain ⟨hask, hplayed⟩ := Bool.and_eq_true_iff.1 hplayed
    obtain ⟨hopen, hheld⟩ := of_decide_eq_true hplayed
    have hask' : (start run).run.mayAsk = true := hask
    obtain ⟨q, hrow, hrun⟩ := exists_of_play hask' (fun _ => false) 3
    rw [run_start] at hrun
    rw [← hrun] at hopen hheld
    obtain ⟨hunder, hreleases⟩ := Reaches.underCeiling hstart hrow hopen
    exact ⟨run, q, hstart, hrow, hopen, hheld, hunder, hreleases⟩
  · cases hplayed

end BatchRun
