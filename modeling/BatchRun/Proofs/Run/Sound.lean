import BatchRun.Proofs.Run.Floor
import BatchRun.Proofs.Run.Places

/-!
# Nothing is lost or done twice on the floor

The books about the places of tasks are kept for a whole floor: the tasks that wait, those that
workers have in hand, those whose outcomes were sent and wait to be taken, and those whose
outcomes were taken for good. Beyond the books, everything on the floor tells the truth about
its task: outcomes are those of tasks of the plan, and a signal is only on its way after the
outcome.

## Main definitions

* `Worker.Honest`: what a worker says about its task is true
* `Sound`: the books of a floor, and the honesty of everything on it

## Main results

* `Sound.step`, `Sound.steps`: whatever is done on a floor keeps it sound
* `Sound.submit`, `Sound.settle`: so do the submission of a task and the end of one
-/

namespace BatchRun

open Std

variable {σ α κ β : Type} [Ord κ]

/-- Publishing a signal changes nothing but the transport. -/
theorem Commons.exists_publish_eq [Transport σ] (commons : Commons σ κ β)
    (notifier : Notifier) (signal : Signal) :
    ∃ transport, commons.publish notifier signal = { commons with transport } := by
  rw [publish]
  split
  · exact ⟨_, rfl⟩
  · exact ⟨commons.transport, rfl⟩

namespace Worker

/-- The place of the task that a worker has in hand. -/
def places (plan : Plan α κ β) : Worker α κ β → List (Place κ β)
  | holding task => [⟨task.no, false, plan.entriesOf task⟩]
  | running task _ => [⟨task.no, true, plan.entriesOf task⟩]
  | merging task rest => [⟨task.no, true, rest⟩]
  | reporting outcome => [.settled outcome.taskNo]
  | idle | signalling .. | gone | lost _ => []

/-- What the worker says about its task is true, and a signal comes after the outcome. -/
def Honest [Workload α] (plan : Plan α κ β) (reported : List Nat) : Worker α κ β → Prop
  | holding task | running task _ => task ∈ plan.tasks
  | merging task _ =>
    task ∈ plan.tasks ∧ plan.shares = true ∧ ∃ part, (plan.work task).verdict.result = .ok part
  | reporting outcome => ∃ task ∈ plan.tasks, outcome = plan.outcomeOf task
  | signalling taskNo said =>
    taskNo ∈ reported ∧
      ∃ task ∈ plan.tasks, taskNo = task.no ∧ said = saidOf (plan.outcomeOf task)
  | idle | gone | lost _ => True

theorem Honest.mono [Workload α] {plan : Plan α κ β} {reported reported' : List Nat}
    (hsub : reported ⊆ reported') {w : Worker α κ β} (h : w.Honest plan reported) :
    w.Honest plan reported' := by
  cases w with
  | signalling taskNo said => exact ⟨hsub h.1, h.2⟩
  | _ => exact h

/-- The end of the work function leaves what is shared as it was, except for timings. -/
theorem conclude_snd [Workload α] (shop : Workshop α κ β) (task : Task α)
    (commons : Commons σ κ β) :
    (conclude shop task commons).2 =
      { commons with
        timings := commons.timings.recordAll (scopesOf task (shop.work task)) } := by
  simp only [conclude]
  split
  · rfl
  · split <;> rfl

/-- The station that comes after the work function. -/
theorem conclude_fst [Workload α] {commons : Commons σ κ β} (plan : Plan α κ β)
    (task : Task α) (hshares : commons.shared.isSome = plan.shares) :
    (∃ part, (plan.work task).verdict.result = .ok part ∧ plan.shares = true ∧
        (conclude plan.shop task commons).1 = .merging task part.entries) ∨
      ((plan.shares = false ∨ plan.entriesOf task = []) ∧
        (conclude plan.shop task commons).1 = .reporting (plan.outcomeOf task)) := by
  simp only [conclude, Plan.work_shop, Plan.outcomeOf]
  cases hverdict : (plan.work task).verdict.result with
  | error cause =>
    rw [Plan.resultOf_error hverdict]
    exact .inr ⟨.inr (Plan.entriesOf_error hverdict), rfl⟩
  | ok part =>
    rw [Plan.resultOf_ok hverdict]
    cases hshared : commons.shared with
    | some shared =>
      rw [hshared] at hshares
      exact .inl ⟨part, rfl, hshares.symm, rfl⟩
    | none =>
      rw [hshared] at hshares
      exact .inr ⟨.inl hshares.symm, by rw [← hshares]; rfl⟩

end Worker

namespace Floor

/-- The places of all tasks, given the numbers of those whose outcomes were sent. -/
def places (plan : Plan α κ β) (f : Floor σ α κ β) (settled : List Nat) : List (Place κ β) :=
  f.queue.map (fun task => ⟨task.no, false, plan.entriesOf task⟩) ++
    (f.workers.flatMap (Worker.places plan) ++ settled.map .settled)

/-- The numbers of the tasks whose outcomes were sent: those that nobody has taken, those that
were put aside, and those that were taken for good. -/
def reported (f : Floor σ α κ β) (aside : List (Outcome κ β)) (taken : List Nat) : List Nat :=
  (f.commons.outcomes ++ aside).map (·.taskNo) ++ taken

/-- The place of the first worker's task can be listed first. -/
theorem places_cons_perm (plan : Plan α κ β) (queue : List (Task α)) (w : Worker α κ β)
    (workers : List (Worker α κ β)) (commons : Commons σ κ β) (settled : List Nat) :
    (places plan ⟨queue, w :: workers, commons⟩ settled).Perm
      (w.places plan ++ places plan ⟨queue, workers, commons⟩ settled) := by
  simp only [places, List.flatMap_cons, List.append_assoc]
  exact List.perm_append_comm_assoc _ _ _

theorem places_queue_cons (plan : Plan α κ β) (task : Task α) (queue : List (Task α))
    (workers : List (Worker α κ β)) (commons : Commons σ κ β) (settled : List Nat) :
    places plan ⟨task :: queue, workers, commons⟩ settled =
      ⟨task.no, false, plan.entriesOf task⟩ :: places plan ⟨queue, workers, commons⟩ settled :=
  rfl

theorem places_settled_cons_perm (plan : Plan α κ β) (f : Floor σ α κ β) (no : Nat)
    (settled : List Nat) :
    (f.places plan (no :: settled)).Perm (.settled no :: f.places plan settled) := by
  simp only [places, List.map_cons, ← List.append_assoc]
  exact List.perm_middle

theorem places_perm (plan : Plan α κ β) (f : Floor σ α κ β) {settled settled' : List Nat}
    (h : settled.Perm settled') : (f.places plan settled).Perm (f.places plan settled') :=
  ((h.map _).append_left _).append_left _

end Floor

/-- The books of a floor, and the honesty of everything on it. Outcomes that the control node has
put aside or taken for good are still counted. -/
structure Sound [Workload α] [TransOrd κ] [Mergeable β] (plan : Plan α κ β) (submitted : Nat)
    (aside : List (Outcome κ β)) (taken : List Nat) (begun : List (Task α))
    (f : Floor σ α κ β) : Prop where
  books : Books plan submitted (!f.hasLost) (f.commons.shared.map (·.tally)) begun
    (f.places plan (f.reported aside taken))
  queue_mem : ∀ t ∈ f.queue, t ∈ plan.tasks
  honest : ∀ w ∈ f.workers, w.Honest plan (f.reported aside taken)
  sent_mem : ∀ o ∈ f.commons.outcomes ++ aside, ∃ t ∈ plan.tasks, o = plan.outcomeOf t
  wanted : f.commons.outcomesWanted = true
  shares : f.commons.shared.isSome = plan.shares

namespace Sound

variable [Workload α] [TransOrd κ] [Mergeable β] {plan : Plan α κ β} {submitted : Nat}
  {aside : List (Outcome κ β)} {taken : List Nat} {begun : List (Task α)}
  {queue : List (Task α)} {workers workers' : List (Worker α κ β)}
  {commons commons' : Commons σ κ β}

/-- Which worker is which does not matter. -/
theorem perm (hperm : workers.Perm workers')
    (h : Sound plan submitted aside taken begun ⟨queue, workers, commons⟩) :
    Sound plan submitted aside taken begun ⟨queue, workers', commons⟩ := by
  refine { h with books := ?_, honest := fun w hw => h.honest w (hperm.mem_iff.2 hw) }
  have hlost : workers'.any Worker.isLost = workers.any Worker.isLost := hperm.symm.any_eq
  have hplaces := ((hperm.flatMap_right (Worker.places plan)).append_right
    (((⟨queue, workers, commons⟩ : Floor σ α κ β).reported aside taken).map .settled)).append_left
    (queue.map fun task => ⟨task.no, false, plan.entriesOf task⟩)
  have hbooks := h.books.perm hplaces
  simp only [Floor.hasLost] at hbooks ⊢
  rw [hlost]
  exact hbooks

/-- Only outcomes and the shared tally matter of what is shared. -/
theorem congr (h : Sound plan submitted aside taken begun ⟨queue, workers, commons⟩)
    (commons' : Commons σ κ β) (houtcomes : commons'.outcomes = commons.outcomes)
    (hshared : commons'.shared = commons.shared)
    (hwanted : commons'.outcomesWanted = commons.outcomesWanted) :
    Sound plan submitted aside taken begun ⟨queue, workers, commons'⟩ where
  books := by
    have hbooks := h.books
    simp only [Floor.hasLost, Floor.places, Floor.reported] at hbooks ⊢
    rwa [houtcomes, hshared]
  queue_mem := h.queue_mem
  honest := by
    have hhonest := h.honest
    simp only [Floor.reported] at hhonest ⊢
    rwa [houtcomes]
  sent_mem := by
    have hmem := h.sent_mem
    simp only at hmem ⊢
    rwa [houtcomes]
  wanted := by rw [← h.wanted]; exact hwanted
  shares := by rw [← h.shares]; exact congrArg Option.isSome hshared

/-- The worker in front goes to another station, and the books are kept with the place of its
task in front. -/
theorem restation {w : Worker α κ β} {begun' : List (Task α)} {shared : Option (SharedTally κ β)}
    (h : Sound plan submitted aside taken begun ⟨queue, w :: workers, commons⟩)
    (w' : Worker α κ β) (hshares : shared.isSome = plan.shares)
    (hbooks : ∀ places,
      Books plan submitted (!(w.isLost || workers.any Worker.isLost))
        (commons.shared.map (·.tally)) begun (w.places plan ++ places) →
      Books plan submitted (!(w'.isLost || workers.any Worker.isLost))
        (shared.map (·.tally)) begun' (w'.places plan ++ places))
    (hhonest : ∀ reported, w.Honest plan reported → w'.Honest plan reported) :
    Sound plan submitted aside taken begun'
      ⟨queue, w' :: workers, { commons with shared }⟩ where
  books := by
    have hfront := h.books.perm (Floor.places_cons_perm plan queue w workers commons _)
    exact (hbooks _ hfront).perm (Floor.places_cons_perm plan queue w' workers _ _).symm
  queue_mem := h.queue_mem
  honest := by
    obtain ⟨hw, hworkers⟩ := List.forall_mem_cons.1 h.honest
    exact List.forall_mem_cons.2 ⟨hhonest _ hw, hworkers⟩
  sent_mem := h.sent_mem
  wanted := h.wanted
  shares := hshares

/-- A worker goes to a station where its task has the same place. -/
theorem station {w : Worker α κ β}
    (h : Sound plan submitted aside taken begun ⟨queue, w :: workers, commons⟩)
    (w' : Worker α κ β) (hplaces : w'.places plan = w.places plan)
    (hlost : w'.isLost = w.isLost)
    (hhonest : ∀ reported, w.Honest plan reported → w'.Honest plan reported) :
    Sound plan submitted aside taken begun ⟨queue, w' :: workers, commons⟩ := by
  refine h.restation w' h.shares (fun places hbooks => ?_) hhonest
  rw [hplaces, hlost]
  exact hbooks

/-- A worker takes the next task. -/
theorem take {task : Task α}
    (h : Sound plan submitted aside taken begun ⟨task :: queue, .idle :: workers, commons⟩) :
    Sound plan submitted aside taken begun ⟨queue, .holding task :: workers, commons⟩ :=
  { h with
    books := h.books.perm <| by
      rw [Floor.places_queue_cons]
      apply ((Floor.places_cons_perm plan queue .idle workers commons _).cons _).trans
      exact (Floor.places_cons_perm plan queue (.holding task) workers commons _).symm
    queue_mem := fun t ht => h.queue_mem t (List.mem_cons_of_mem _ ht)
    honest := by
      obtain ⟨-, hworkers⟩ := List.forall_mem_cons.1 h.honest
      exact List.forall_mem_cons.2 ⟨h.queue_mem task List.mem_cons_self, hworkers⟩ }

/-- The work function of a task that was taken is called. -/
theorem begin {task : Task α} (ends : Nat)
    (h : Sound plan submitted aside taken begun ⟨queue, .holding task :: workers, commons⟩) :
    Sound plan submitted aside taken (begun ++ [task])
      ⟨queue, .running task ends :: workers, commons⟩ := by
  have ht : task ∈ plan.tasks := h.honest _ List.mem_cons_self
  exact h.restation (.running task ends) h.shares (fun _ hbooks => hbooks.begin ht) fun _ ht => ht

/-- Where nothing is shared, it does not matter what was still to be merged. -/
theorem skip {task : Task α} {ends : Nat} (hshares : plan.shares = false)
    (h : Sound plan submitted aside taken begun ⟨queue, .running task ends :: workers, commons⟩) :
    Sound plan submitted aside taken begun
      ⟨queue, .reporting (plan.outcomeOf task) :: workers, commons⟩ := by
  have hnone : commons.shared = none := by
    rw [← Option.isNone_iff_eq_none, ← Option.not_isSome, h.shares, hshares]
    rfl
  refine h.restation (.reporting (plan.outcomeOf task)) h.shares (fun places hbooks => ?_)
    fun _ ht => ⟨task, ht, rfl⟩
  rw [hnone] at hbooks ⊢
  exact hbooks.skip

/-- The end of the work function. -/
theorem conclude {task : Task α} {ends : Nat}
    (h : Sound plan submitted aside taken begun ⟨queue, .running task ends :: workers, commons⟩) :
    Sound plan submitted aside taken begun
      ⟨queue, (Worker.conclude plan.shop task commons).1 :: workers,
        (Worker.conclude plan.shop task commons).2⟩ := by
  have ht : task ∈ plan.tasks := (List.forall_mem_cons.1 h.honest).1
  -- timings are of no concern to the books
  suffices hsound : Sound plan submitted aside taken begun
      ⟨queue, (Worker.conclude plan.shop task commons).1 :: workers, commons⟩ by
    refine hsound.congr _ ?_ ?_ ?_ <;> rw [Worker.conclude_snd]
  rcases Worker.conclude_fst plan task h.shares with
    ⟨part, hverdict, hshares, hw⟩ | ⟨hshares | hnothing, hw⟩
  · rw [hw]
    refine h.station _ ?_ rfl fun _ _ => ⟨ht, hshares, part, hverdict⟩
    simp only [Worker.places, Plan.entriesOf_ok hverdict]
  · rw [hw]
    exact h.skip hshares
  · rw [hw]
    refine h.station _ ?_ rfl fun _ _ => ⟨task, ht, rfl⟩
    simp only [Worker.places, hnothing]
    rfl

/-- The next value of a task is merged into the shared tally. -/
theorem merge {task : Task α} {k : κ} {delta : β} {rest : List (κ × β)}
    {shared : SharedTally κ β} {tally : Tally κ β} (hshared : commons.shared = some shared)
    (hmerge : shared.tally.mergeInto k delta = .ok tally)
    (h : Sound plan submitted aside taken begun
      ⟨queue, .merging task ((k, delta) :: rest) :: workers, commons⟩) :
    Sound plan submitted aside taken begun
      ⟨queue, .merging task rest :: workers,
        { commons with shared := some { shared with tally } }⟩ := by
  have hshares : plan.shares = true := by
    rw [← h.shares, hshared]
    rfl
  refine h.restation (.merging task rest) hshares.symm (fun places hbooks => ?_) fun _ ht => ht
  rw [hshared] at hbooks
  exact hbooks.merge hmerge

/-- A merge faults, and the worker is lost with its task. -/
theorem lose {task : Task α} {rest : List (κ × β)} {shared : SharedTally κ β} (fault : Fault)
    (hshares : plan.shares = true)
    (h : Sound plan submitted aside taken begun
      ⟨queue, .merging task rest :: workers, commons⟩) :
    Sound plan submitted aside taken begun
      ⟨queue, .lost fault :: workers, { commons with shared := some shared }⟩ := by
  refine h.restation (.lost fault) hshares.symm (fun places hbooks => ?_) fun _ _ => trivial
  -- one place fewer than before is one too few
  have hlength := hbooks.length_le
  exact hbooks.lose _ (List.sublist_cons_self _ _) (Nat.lt_of_succ_le hlength)

/-- An outcome is sent. -/
theorem report {outcome : Outcome κ β}
    (h : Sound plan submitted aside taken begun
      ⟨queue, .reporting outcome :: workers, commons⟩) :
    Sound plan submitted aside taken begun
      ⟨queue, .signalling outcome.taskNo (Worker.saidOf outcome) :: workers,
        commons.send outcome⟩ := by
  obtain ⟨⟨task, ht, rfl⟩, hworkers⟩ := List.forall_mem_cons.1 h.honest
  have hsend : commons.send (plan.outcomeOf task) =
      { commons with outcomes := commons.outcomes ++ [plan.outcomeOf task] } := by
    rw [Commons.send, if_pos h.wanted]
  rw [hsend]
  -- the place of the task leaves the worker and comes to those of the outcomes
  have hreported : ((commons.outcomes ++ [plan.outcomeOf task] ++ aside).map (·.taskNo) ++
      taken).Perm (task.no :: ((commons.outcomes ++ aside).map (·.taskNo) ++ taken)) := by
    simp only [List.append_assoc, List.map_append, List.cons_append, List.map_cons]
    exact List.perm_middle
  refine { h with books := ?_, honest := ?_, sent_mem := ?_ }
  · have hbooks := h.books.perm (Floor.places_cons_perm plan queue _ workers commons _)
    apply Books.perm (Floor.places_cons_perm plan queue _ workers _ _).symm
    refine Books.perm ?_ hbooks
    exact ((Floor.places_perm plan _ hreported).trans
      (Floor.places_settled_cons_perm plan _ _ _)).symm
  · refine List.forall_mem_cons.2 ⟨⟨hreported.mem_iff.2 List.mem_cons_self, task, ht, rfl, rfl⟩,
      fun w hw => (hworkers w hw).mono fun no hno => ?_⟩
    exact hreported.mem_iff.2 (List.mem_cons_of_mem _ hno)
  · intro o ho
    simp only [List.append_assoc, List.mem_append, List.mem_singleton] at ho
    rcases ho with ho | rfl | ho
    · exact h.sent_mem o (List.mem_append_left _ ho)
    · exact ⟨task, ht, rfl⟩
    · exact h.sent_mem o (List.mem_append_right _ ho)

/-- After a loss, what waits may be dropped. -/
theorem desert {f : Floor σ α κ β} (hlost : f.hasLost = true)
    (h : Sound plan submitted aside taken begun f) :
    Sound plan submitted aside taken begun { f with queue := [] } := by
  refine { h with books := ?_, queue_mem := by simp }
  -- a task is missing already, so that the books are not worse off without the queue
  have hlength := h.books.length_le
  have hmissing := h.books.complete
  simp only [hlost, Bool.not_true, Bool.false_eq_true, false_iff] at hmissing
  have hsub : (Floor.places plan { f with queue := [] } (f.reported aside taken)).Sublist
      (f.places plan (f.reported aside taken)) := List.sublist_append_right _ _
  have hlt := hsub.length_le
  have hbooks := h.books.lose (f.commons.shared.map (·.tally)) hsub (by omega)
  have hlost' : ({ f with queue := [] } : Floor σ α κ β).hasLost = true := hlost
  rw [hlost']
  exact hbooks

/-- A floor before anything is submitted. -/
theorem start (plan : Plan α κ β) {f : Floor σ α κ β} (hqueue : f.queue = [])
    (hworkers : ∀ w ∈ f.workers, w = .idle) (transport : σ) (timings : Timings)
    (hcommons : f.commons = .start transport plan.shares timings) :
    Sound plan 0 [] [] [] f := by
  have hstays : f.hasLost = false := by
    simp only [Floor.hasLost, List.any_eq_false]
    intro w hw
    rw [hworkers w hw]
    simp [Worker.isLost]
  have hnone : f.workers.flatMap (Worker.places plan) = [] := by
    simp only [List.flatMap_eq_nil_iff]
    intro w hw
    rw [hworkers w hw]
    rfl
  -- nobody has a task in hand, so that no task has a place
  refine ⟨?_, by simp [hqueue], ?_, ?_, ?_, ?_⟩
  · have hbooks := Books.start plan
    rw [hstays]
    simp only [Floor.places, hqueue, hnone, Floor.reported, hcommons, Commons.start]
    cases hshares : plan.shares with
    | false => simpa [hshares] using hbooks
    | true => simpa [hshares, SharedTally.new] using hbooks
  · intro w hw
    rw [hworkers w hw]
    trivial
  · simp [hcommons, Commons.start]
  · simp [hcommons, Commons.start]
  · cases hshares : plan.shares <;> simp [hcommons, Commons.start, hshares]

/-- A task is submitted. -/
theorem submit {f : Floor σ α κ β} {task : Task α} (ht : task ∈ plan.tasks)
    (hno : task.no = submitted) (h : Sound plan submitted aside taken begun f) :
    Sound plan (submitted + 1) aside taken begun { f with queue := f.queue ++ [task] } := by
  refine { h with books := ?_, queue_mem := ?_ }
  · apply (h.books.submit ht hno).perm
    rw [← Floor.places_queue_cons]
    exact ((List.perm_append_singleton task f.queue).symm.map _).append_right _
  · intro t ht'
    rcases List.mem_append.1 ht' with ht' | ht'
    · exact h.queue_mem t ht'
    · rw [List.mem_singleton.1 ht']
      exact ht

/-- An outcome is taken for good, and others may be put aside. -/
theorem settle {outcome : Outcome κ β} {outcomes aside' : List (Outcome κ β)}
    (hperm : (commons.outcomes ++ aside).Perm (outcome :: (outcomes ++ aside')))
    (h : Sound plan submitted aside taken begun ⟨queue, workers, commons⟩) :
    Sound plan submitted aside' (taken ++ [outcome.taskNo]) begun
      ⟨queue, workers, { commons with outcomes }⟩ := by
  have hreported : ((commons.outcomes ++ aside).map (·.taskNo) ++ taken).Perm
      ((outcomes ++ aside').map (·.taskNo) ++ (taken ++ [outcome.taskNo])) := by
    apply ((hperm.map _).append_right taken).trans
    rw [List.map_cons, List.cons_append, ← List.append_assoc]
    exact (List.perm_append_singleton _ _).symm
  refine ⟨?_, h.queue_mem, fun w hw => (h.honest w hw).mono hreported.subset, ?_, h.wanted,
    h.shares⟩
  · exact h.books.perm (Floor.places_perm plan ⟨queue, workers, commons⟩ hreported)
  · exact fun o ho => h.sent_mem o (hperm.mem_iff.2 (List.mem_cons_of_mem _ ho))

/-- The numbers of the tasks whose outcomes were sent are all different. -/
theorem nodup_reported {f : Floor σ α κ β} (h : Sound plan submitted aside taken begun f) :
    (f.reported aside taken).Nodup := by
  have hnodup := h.books.nodup
  simp only [Floor.places, List.map_append, ← List.append_assoc, List.map_map] at hnodup
  simpa [Function.comp_def, Place.settled] using (List.nodup_append.1 hnodup).2.1

/-- Only submitted tasks have outcomes. -/
theorem lt_of_reported {f : Floor σ α κ β} (h : Sound plan submitted aside taken begun f)
    {no : Nat} (hno : no ∈ f.reported aside taken) : no < submitted := by
  apply h.books.lt (.settled no)
  exact List.mem_append_right _ (List.mem_append_right _ (List.mem_map_of_mem hno))

variable [Transport σ]

/-- A worker whose task has begun goes to its next station. -/
theorem work {w : Worker α κ β} (hbusy : w.isBusy = true)
    (h : Sound plan submitted aside taken begun ⟨queue, w :: workers, commons⟩) :
    Sound plan submitted aside taken begun
      ⟨queue, (w.step plan.shop commons).1 :: workers, (w.step plan.shop commons).2⟩ := by
  cases w, hbusy using Worker.busyCases with
  | running task ends =>
    exact conclude (h.congr (commons.passUntil ends) rfl rfl rfl)
  | merged task =>
    obtain ⟨ht, hshares, part, hverdict⟩ := (List.forall_mem_cons.1 h.honest).1
    have houtcome : Worker.outcomeOf task (.ok none) = plan.outcomeOf task := by
      rw [Plan.outcomeOf, Plan.resultOf_ok hverdict, if_pos hshares]
    simp only [Worker.step, houtcome]
    exact h.station (.reporting (plan.outcomeOf task)) rfl rfl fun _ _ => ⟨task, ht, rfl⟩
  -- a worker merges only where there is a tally to merge into
  | merging task k delta rest =>
    obtain ⟨ht, hshares, part, hverdict⟩ := (List.forall_mem_cons.1 h.honest).1
    obtain ⟨shared, hshared⟩ := Option.isSome_iff_exists.1 (h.shares.trans hshares)
    simp only at hshared
    simp only [Worker.step, hshared, SharedTally.mergeInto]
    cases hmerge : shared.tally.mergeInto k delta with
    | ok tally => exact h.merge hshared hmerge
    | error fault => exact h.lose fault hshares
  | reporting outcome => exact h.report
  | signalling taskNo said =>
    obtain ⟨transport, hpublish⟩ := commons.exists_publish_eq
      plan.shop.notifier (Worker.signalOf plan.shop taskNo said commons.now)
    simp only [Worker.step, hpublish]
    exact (h.station .idle rfl rfl fun _ _ => trivial).congr _ rfl rfl rfl

/-- Whatever a worker does keeps the floor sound. -/
theorem step {f g : Floor σ α κ β} {new : List (Task α)} (hstep : Floor.Step plan.shop f new g)
    (h : Sound plan submitted aside taken begun f) :
    Sound plan submitted aside taken (begun ++ new) g := by
  cases hstep with
  | take task queue before after commons =>
    rw [List.append_nil]
    exact (h.perm List.perm_middle).take.perm List.perm_middle.symm
  | leave before after commons =>
    rw [List.append_nil]
    exact ((h.perm List.perm_middle).station .gone rfl rfl fun _ _ => trivial).perm
      List.perm_middle.symm
  | begin task queue before after commons =>
    exact ((h.perm List.perm_middle).begin _).perm List.perm_middle.symm
  | work w queue before after commons hbusy =>
    rw [List.append_nil]
    exact ((h.perm List.perm_middle).work hbusy).perm List.perm_middle.symm
  | desert _ hlost =>
    rw [List.append_nil]
    exact h.desert hlost

/-- Rows of steps keep the floor sound. -/
theorem steps {f g : Floor σ α κ β} {new : List (Task α)}
    (hrow : Floor.Steps plan.shop f new g) (h : Sound plan submitted aside taken begun f) :
    Sound plan submitted aside taken (begun ++ new) g :=
  hrow.invariant h fun _ _ _ _ hstep h => h.step hstep

/-- What every step of a sound floor keeps is kept by rows of steps. -/
theorem invariant {motive : Floor σ α κ β → Prop} {f g : Floor σ α κ β} {new : List (Task α)}
    (h : Sound plan submitted aside taken begun f) (hrow : Floor.Steps plan.shop f new g)
    (hstart : motive f)
    (hstep : ∀ begun f new g, Floor.Step plan.shop f new g →
      Sound plan submitted aside taken begun f → motive f → motive g) : motive g := by
  have hboth : Sound plan submitted aside taken (begun ++ new) g ∧ motive g :=
    hrow.invariant
      (motive := fun begun f => Sound plan submitted aside taken begun f ∧ motive f) ⟨h, hstart⟩
      fun _ _ _ _ hlast hf => ⟨hf.1.step hlast, hstep _ _ _ _ hlast hf.1 hf.2⟩
  exact hboth.2

end Sound

end BatchRun
