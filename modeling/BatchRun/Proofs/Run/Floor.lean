import BatchRun.Proofs.Run.Session

/-!
# The floor where tasks are run

Queue, workers and what they share with the control node make up the floor. Both kinds of
executor do on it what single workers can do: one takes a task, begins it, goes from station to
station, or goes home. A sequential executor is a floor with one worker, which the control node
lends its own thread; when it is given a chance it does several of these steps at once.

Whatever the steps of the floor keep is therefore kept by every executor, and only here is it
said what an executor can do.

## Main definitions

* `Floor`, `Floor.Step`, `Floor.Steps`: what workers can do, and rows of it
* `Executor.floor`: the floor of an executor

## Main results

* `Executor.steps_of_step`, `Executor.steps_of_drive`: executors do steps of their floors
-/

namespace BatchRun

open Std

/-- The tasks that wait, the workers, and what is shared with the control node. -/
structure Floor (σ α κ β : Type) [Ord κ] where
  queue : List (Task α)
  workers : List (Worker α κ β)
  commons : Commons σ κ β

variable {σ α κ β : Type} [Ord κ]

/-- Whether a merge faulted in the hands of the worker. -/
def Worker.isLost : Worker α κ β → Bool
  | lost _ => true
  | _ => false

namespace Floor

/-- Whether a worker was lost. -/
def hasLost (f : Floor σ α κ β) : Bool := f.workers.any Worker.isLost

variable [TransOrd κ] [Mergeable β] [Transport σ] [Workload α]

/-- What a single worker can do, with the tasks that begin. -/
inductive Step (shop : Workshop α κ β) :
    Floor σ α κ β → List (Task α) → Floor σ α κ β → Prop
  /-- An idle worker takes the next task. -/
  | take (task : Task α) (queue : List (Task α)) (before after : List (Worker α κ β))
      (commons : Commons σ κ β) :
      Step shop ⟨task :: queue, before ++ .idle :: after, commons⟩ []
        ⟨queue, before ++ .holding task :: after, commons⟩
  /-- An idle worker goes home. -/
  | leave (before after : List (Worker α κ β)) (commons : Commons σ κ β) :
      Step shop ⟨[], before ++ .idle :: after, commons⟩ []
        ⟨[], before ++ .gone :: after, commons⟩
  /-- The work function is called. -/
  | begin (task : Task α) (queue : List (Task α)) (before after : List (Worker α κ β))
      (commons : Commons σ κ β) :
      Step shop ⟨queue, before ++ .holding task :: after, commons⟩ [task]
        ⟨queue, before ++ .begin shop task commons :: after, commons⟩
  /-- A worker with a task that has begun goes to its next station. -/
  | work (w : Worker α κ β) (queue : List (Task α)) (before after : List (Worker α κ β))
      (commons : Commons σ κ β) (hbusy : w.isBusy = true) :
      Step shop ⟨queue, before ++ w :: after, commons⟩ []
        ⟨queue, before ++ (w.step shop commons).1 :: after, (w.step shop commons).2⟩
  /-- After a loss nobody is left, and what waits is lost as well. -/
  | desert (f : Floor σ α κ β) (hlost : f.hasLost = true) :
      Step shop f [] { f with queue := [] }

/-- A row of steps, with all tasks that begin. -/
inductive Steps (shop : Workshop α κ β) (f : Floor σ α κ β) :
    List (Task α) → Floor σ α κ β → Prop
  | refl : Steps shop f [] f
  | tail {begun new : List (Task α)} {g h : Floor σ α κ β} (hrow : Steps shop f begun g)
      (hstep : Step shop g new h) : Steps shop f (begun ++ new) h

namespace Steps

variable {shop : Workshop α κ β} {f g h : Floor σ α κ β} {begun new : List (Task α)}

theorem single (hstep : Step shop f new g) : Steps shop f new g := .tail .refl hstep

theorem trans (hfg : Steps shop f begun g) (hgh : Steps shop g new h) :
    Steps shop f (begun ++ new) h := by
  induction hgh with
  | refl => simpa using hfg
  | tail _ hstep ih =>
    rw [← List.append_assoc]
    exact ih.tail hstep

/-- What every step keeps is kept by rows of steps. -/
theorem invariant {motive : List (Task α) → Floor σ α κ β → Prop} {before : List (Task α)}
    (hrow : Steps shop f begun g) (hstart : motive before f)
    (hstep : ∀ begun f new g, Step shop f new g → motive begun f → motive (begun ++ new) g) :
    motive (before ++ begun) g := by
  induction hrow with
  | refl => simpa using hstart
  | tail _ hlast ih =>
    rw [← List.append_assoc]
    exact hstep _ _ _ _ hlast ih

end Steps

end Floor

namespace Worker

variable [TransOrd κ] [Mergeable β] [Transport σ] [Workload α]

/-- A worker whose task has begun goes to another station of it, is through with it, or is
lost. -/
theorem step_isBusy (shop : Workshop α κ β) {w : Worker α κ β} (commons : Commons σ κ β)
    (hbusy : w.isBusy = true) :
    (w.step shop commons).1.isBusy = true ∨ (w.step shop commons).1 = .idle ∨
      (w.step shop commons).1.isLost = true := by
  cases w, hbusy using busyCases with
  | running task ends =>
    simp only [step, conclude]
    split
    · exact .inl rfl
    · split <;> exact .inl rfl
  | merged task => exact .inl rfl
  | merging task k delta rest =>
    simp only [step]
    split
    · exact .inl rfl
    · split
      · exact .inl rfl
      · exact .inr (.inr rfl)
  | reporting outcome => exact .inl rfl
  | signalling taskNo said => exact .inr (.inl rfl)

/-- A task that is taken to its end is a row of steps, after which the worker is idle or lost. -/
theorem steps_finish (shop : Workshop α κ β) (queue : List (Task α)) (w : Worker α κ β)
    (commons : Commons σ κ β) (hbusy : w.isBusy = true) :
    Floor.Steps shop ⟨queue, [w], commons⟩ []
        ⟨queue, [(w.finish shop commons).1], (w.finish shop commons).2⟩ ∧
      ((w.finish shop commons).1 = .idle ∨ (w.finish shop commons).1.isLost = true) := by
  have hstep : Floor.Step shop _ _ _ := .work w queue [] [] commons hbusy
  rw [finish, dif_pos hbusy]
  -- the recursion follows that of the definition, one station at a time
  rcases step_isBusy shop commons hbusy with hnext | hidle | hlost
  · have := ahead_step_lt shop w commons hbusy
    obtain ⟨hrow, hend⟩ := steps_finish shop queue _ (w.step shop commons).2 hnext
    exact ⟨(Floor.Steps.single hstep).trans hrow, hend⟩
  · have hrest : ¬(w.step shop commons).1.isBusy = true := by rw [hidle]; simp [isBusy]
    rw [finish, dif_neg hrest]
    exact ⟨.single hstep, .inl hidle⟩
  · have hrest : ¬(w.step shop commons).1.isBusy = true := by
      cases hw : (w.step shop commons).1 <;> simp [hw, isBusy, isLost] at hlost ⊢
    rw [finish, dif_neg hrest]
    exact ⟨.single hstep, .inr hlost⟩
termination_by w.ahead shop

/-- A task that is run from its beginning to its end is a row of steps of an idle worker, and a
merge faults in it if and only if the worker is lost. -/
theorem steps_runTask (shop : Workshop α κ β) (task : Task α) (queue : List (Task α))
    (commons : Commons σ κ β) :
    ∃ w : Worker α κ β,
      Floor.Steps shop ⟨task :: queue, [.idle], commons⟩ [task]
        ⟨queue, [w], (runTask shop task commons).2⟩ ∧
      ((runTask shop task commons).1 = none → w = .idle) ∧
      ((runTask shop task commons).1 ≠ none → w.isLost = true) := by
  have htake : Floor.Step shop _ _ _ := .take task queue [] [] commons
  have hbegin : Floor.Step shop _ _ _ := .begin task queue [] [] commons
  obtain ⟨hrow, hend⟩ := steps_finish shop queue (begin shop task commons) commons rfl
  have hwhole := ((Floor.Steps.single htake).tail hbegin).trans hrow
  rw [runTask]
  split
  · next fault commons' heq =>
    rw [heq] at hwhole
    exact ⟨_, hwhole, fun h => (nomatch h), fun _ => rfl⟩
  · next w commons' hnot heq =>
    rw [heq] at hwhole hend
    refine ⟨w, hwhole, fun _ => hend.resolve_right ?_, fun h => absurd rfl h⟩
    intro hlost
    cases w with
    | lost fault => exact hnot fault rfl
    | _ => cases hlost

end Worker

namespace Pool

omit [Ord κ] in
/-- Putting another worker in the place of one leaves the others where they are. -/
theorem exists_split {γ : Type} {l : List γ} {index : Nat} {w : γ} (h : l[index]? = some w) :
    ∃ before after, l = before ++ w :: after ∧
      ∀ w', l.set index w' = before ++ w' :: after := by
  obtain ⟨hlt, rfl⟩ := List.getElem?_eq_some_iff.1 h
  refine ⟨l.take index, l.drop (index + 1), ?_, ?_⟩
  · rw [List.getElem_cons_drop, List.take_append_drop]
  · intro w'
    rw [List.set_eq_take_append_cons_drop, if_pos hlt]

/-- Whether the worker will never take a task again. -/
def isAway : Worker α κ β → Bool
  | .gone | .lost _ => true
  | _ => false

theorem isDeserted_eq (p : Pool α κ β) : p.isDeserted = p.workers.all isAway := by
  unfold isDeserted isAway
  rfl

/-- The pool is not deserted as long as the worker that was set is there. -/
theorem setWorker_of_not_isAway {p : Pool α κ β} {index : Nat} {w : Worker α κ β}
    (hlt : index < p.workers.length) (h : isAway w = false) :
    p.setWorker index w = { p with workers := p.workers.set index w } := by
  have hmem : w ∈ p.workers.set index w := List.mem_set hlt w
  have hstays : ({ p with workers := p.workers.set index w } : Pool α κ β).isDeserted = false := by
    rw [isDeserted_eq, List.all_eq_false]
    exact ⟨w, hmem, by simp [h]⟩
  simp only [setWorker, hstays, Bool.false_eq_true, if_false]

theorem setWorker_of_queue_eq_nil {p : Pool α κ β} (h : p.queue = []) (index : Nat)
    (w : Worker α κ β) : p.setWorker index w = { p with workers := p.workers.set index w } := by
  simp only [setWorker]
  split
  · rw [h]
  · rfl

theorem exists_setWorker (p : Pool α κ β) (index : Nat) (w : Worker α κ β) :
    ∃ queue, (queue = p.queue ∨ queue = []) ∧
      p.setWorker index w = { p with queue, workers := p.workers.set index w } := by
  simp only [setWorker]
  split
  · exact ⟨[], .inr rfl, rfl⟩
  · exact ⟨p.queue, .inl rfl, rfl⟩

/-- A worker with a task that has begun calls no other work function. -/
theorem begins_of_isBusy {p : Pool α κ β} {index : Nat} {w : Worker α κ β}
    (hw : p.workers[index]? = some w) (hbusy : w.isBusy = true) : p.begins index = [] := by
  simp only [begins, hw]
  cases w with
  | holding => simp [Worker.isBusy] at hbusy
  | _ => rfl

variable [TransOrd κ] [Mergeable β] [Transport σ] [Workload α]

theorem isAway_step (shop : Workshop α κ β) {w : Worker α κ β} (commons : Commons σ κ β)
    (hbusy : w.isBusy = true) (hstays : (w.step shop commons).1.isLost = false) :
    isAway (w.step shop commons).1 = false := by
  rcases Worker.step_isBusy shop commons hbusy with hnext | hidle | hlost
  · cases hw : (w.step shop commons).1 <;> simp [hw, Worker.isBusy, isAway] at hnext ⊢
  · rw [hidle]; rfl
  · rw [hlost] at hstays; cases hstays

/-- What a worker of a pool can do. -/
inductive Did (shop : Workshop α κ β) (index : Nat) (p : Pool α κ β) (commons : Commons σ κ β) :
    Pool α κ β → Commons σ κ β → Prop
  | take (task : Task α) (rest : List (Task α)) (hw : p.workers[index]? = some .idle)
      (hqueue : p.queue = task :: rest) :
      Did shop index p commons
        { p with queue := rest, workers := p.workers.set index (.holding task) } commons
  | leave (hw : p.workers[index]? = some .idle) (hqueue : p.queue = [])
      (hclosed : p.accepting = false) :
      Did shop index p commons { p with workers := p.workers.set index .gone } commons
  | begin (task : Task α) (hw : p.workers[index]? = some (.holding task))
      (hcancelled : p.cancelled = false) :
      Did shop index p commons
        { p with workers := p.workers.set index (.begin shop task commons) } commons
  /-- The task is skipped. -/
  | skip (task : Task α) (hw : p.workers[index]? = some (.holding task))
      (hcancelled : p.cancelled = true) :
      Did shop index p commons { p with workers := p.workers.set index .idle } commons
  | work (w : Worker α κ β) (hw : p.workers[index]? = some w) (hbusy : w.isBusy = true)
      (hstays : (w.step shop commons).1.isLost = false) :
      Did shop index p commons
        { p with workers := p.workers.set index (w.step shop commons).1 }
        (w.step shop commons).2
  /-- The worker is lost, and what waits with it if nobody else is left. -/
  | lose (w : Worker α κ β) (queue : List (Task α)) (hw : p.workers[index]? = some w)
      (hbusy : w.isBusy = true) (hlost : (w.step shop commons).1.isLost = true)
      (hqueue : queue = p.queue ∨ queue = []) :
      Did shop index p commons
        { p with queue, workers := p.workers.set index (w.step shop commons).1 }
        (w.step shop commons).2

/-- A step of a worker is one of these. -/
theorem did_of_step {shop : Workshop α κ β} {index : Nat} {p p' : Pool α κ β}
    {commons commons' : Commons σ κ β} (h : p.step shop index commons = some (p', commons')) :
    Did shop index p commons p' commons' := by
  simp only [step] at h
  split at h
  · cases h
  · cases h
  · cases h
  · next hw =>
    have hlt : index < p.workers.length := (List.getElem?_eq_some_iff.1 hw).1
    split at h
    · next task rest hqueue =>
      rw [setWorker_of_not_isAway (by exact hlt) rfl] at h
      obtain ⟨rfl, rfl⟩ := Prod.mk.inj (Option.some.inj h)
      exact .take task rest hw hqueue
    · next hqueue =>
      split at h
      · cases h
      · next hclosed =>
        obtain ⟨rfl, rfl⟩ := Prod.mk.inj (Option.some.inj h)
        rw [setWorker_of_queue_eq_nil hqueue]
        exact .leave hw hqueue (by simpa using hclosed)
  · next task hw =>
    have hlt : index < p.workers.length := (List.getElem?_eq_some_iff.1 hw).1
    split at h
    · next hcancelled =>
      rw [setWorker_of_not_isAway hlt rfl] at h
      obtain ⟨rfl, rfl⟩ := Prod.mk.inj (Option.some.inj h)
      exact .skip task hw hcancelled
    · next hcancelled =>
      rw [setWorker_of_not_isAway hlt rfl] at h
      obtain ⟨rfl, rfl⟩ := Prod.mk.inj (Option.some.inj h)
      exact .begin task hw (by simpa using hcancelled)
  · next w hgone hlost hidle hholding hw =>
    have hlt : index < p.workers.length := (List.getElem?_eq_some_iff.1 hw).1
    have hbusy : w.isBusy = true := by
      cases w with
      | idle => exact absurd rfl hidle
      | holding task => exact absurd rfl (hholding task)
      | gone => exact absurd rfl hgone
      | lost fault => exact absurd rfl (hlost fault)
      | running | merging | reporting | signalling => rfl
    obtain ⟨rfl, rfl⟩ := Prod.mk.inj (Option.some.inj h)
    cases hnext : (w.step shop commons).1.isLost with
    | true =>
      obtain ⟨queue, hqueue, heq⟩ := exists_setWorker p index (w.step shop commons).1
      rw [heq]
      -- with the last worker the queue may go as well
      exact .lose w queue hw hbusy hnext hqueue
    | false =>
      rw [setWorker_of_not_isAway hlt (isAway_step shop commons hbusy hnext)]
      exact .work w hw hbusy hnext

end Pool

namespace Executor

/-- The tasks that wait. -/
def waiting : Executor α κ β → List (Task α)
  | sequential queue _ => queue
  | pool p => p.queue

/-- The workers. The control node is the only one of a sequential executor. -/
def workers : Executor α κ β → List (Worker α κ β)
  | sequential .. => [.idle]
  | pool p => p.workers

/-- The floor of an executor. -/
def floor (commons : Commons σ κ β) (e : Executor α κ β) : Floor σ α κ β :=
  ⟨e.waiting, e.workers, commons⟩

/-- Whether tasks that are taken from now on are skipped. -/
def isCancelled : Executor α κ β → Bool
  | sequential .. => false
  | pool p => p.cancelled

/-- Whether tasks are still accepted. -/
def accepts : Executor α κ β → Bool
  | sequential _ closed => !closed
  | pool p => p.accepting

/-- A pool has as many workers as tasks may be in flight, with as much room in its queue, and
nobody goes home before the end. -/
def Staffed (limit : Nat) : Executor α κ β → Prop
  | sequential .. => True
  | pool p =>
    p.capacity = limit ∧ p.workers.length = limit ∧ (p.accepting = true → .gone ∉ p.workers)

/-- Whether a worker was lost. -/
def hasLost (e : Executor α κ β) : Bool := e.workers.any Worker.isLost

/-- Aborting an executor brings no worker back. -/
theorem hasLost_abort (e : Executor α κ β) : e.abort.hasLost = e.hasLost := by cases e <;> rfl

/-- Closing an executor brings no worker back. -/
theorem hasLost_close (e : Executor α κ β) : e.close.hasLost = e.hasLost := by cases e <;> rfl

/-- An executor that is aborted takes in nothing. -/
theorem waiting_abort_suffix (e : Executor α κ β) : e.abort.waiting <:+ e.waiting := by
  cases e with
  | sequential queue closed => exact List.nil_suffix
  | pool p => exact List.suffix_rfl

/-- An executor that is closed takes in nothing. -/
theorem waiting_close (e : Executor α κ β) : e.close.waiting = e.waiting := by cases e <;> rfl

/-- An executor that accepts a task loses no worker. -/
theorem hasLost_submit {task : Task α} {e e' : Executor α κ β} (h : e.submit task = .ok e') :
    e'.hasLost = e.hasLost := by
  cases e with
  | sequential queue closed =>
    obtain rfl := Except.ok.inj h
    split <;> rfl
  | pool p =>
    simp only [submit, Pool.submit] at h
    split at h
    · next q hsubmit =>
      obtain rfl := Except.ok.inj h
      repeat' split at hsubmit
      all_goals cases hsubmit
      rfl
    · cases h

/-- An executor that accepts a task keeps it in its queue. -/
theorem floor_of_submit {task : Task α} {e e' : Executor α κ β} (commons : Commons σ κ β)
    (haccepts : e.accepts = true) (h : e.submit task = .ok e') :
    e'.floor commons = { e.floor commons with queue := (e.floor commons).queue ++ [task] } ∧
      e'.accepts = true ∧ e'.isCancelled = e.isCancelled ∧
      ∀ limit, e.Staffed limit → e'.Staffed limit := by
  cases e with
  | sequential queue closed =>
    have hopen : closed = false := by simpa [accepts] using haccepts
    subst hopen
    obtain rfl := Except.ok.inj h
    exact ⟨rfl, rfl, rfl, fun _ _ => trivial⟩
  | pool p =>
    simp only [submit, Pool.submit] at h
    split at h
    · next q hsubmit =>
      obtain rfl := Except.ok.inj h
      repeat' split at hsubmit
      all_goals cases hsubmit
      exact ⟨rfl, haccepts, rfl, fun _ hstaffed => hstaffed⟩
    · cases h

/-- A pool from which nobody was lost or has gone is not deserted. -/
theorem isDeserted_eq_false {p : Pool α κ β} {limit : Nat} (hlimit : 0 < limit)
    (hlength : p.workers.length = limit) (hgone : .gone ∉ p.workers)
    (hstays : (pool p).hasLost = false) : p.isDeserted = false := by
  obtain ⟨w, hw⟩ := List.exists_mem_of_length_pos (hlength ▸ hlimit)
  have hhere : w.isLost = false := by
    simp only [hasLost, workers, List.any_eq_false] at hstays
    simpa using hstays w hw
  rw [Pool.isDeserted_eq, List.all_eq_false]
  refine ⟨w, hw, ?_⟩
  cases w with
  | gone => exact absurd hw hgone
  | lost fault => cases hhere
  | _ => simp [Pool.isAway]

/-- With all workers there and room in the queue, a task is accepted. -/
theorem exists_submit_eq_ok {e : Executor α κ β} {limit : Nat} (hlimit : 0 < limit)
    (haccepts : e.accepts = true) (hstaffed : e.Staffed limit) (hstays : e.hasLost = false)
    (hroom : e.waiting.length < limit) (task : Task α) : ∃ e', e.submit task = .ok e' := by
  cases e with
  | sequential queue closed => exact ⟨_, rfl⟩
  | pool p =>
    obtain ⟨hcapacity, hlength, hgone⟩ := hstaffed
    have hhere := isDeserted_eq_false hlimit hlength (hgone haccepts) hstays
    have hroom' : ¬p.capacity ≤ p.queue.length := by
      rw [hcapacity]
      exact Nat.not_le.2 hroom
    have haccepting : p.accepting = true := haccepts
    simp only [submit, Pool.submit, haccepting, hhere, hroom', Bool.not_true,
      Bool.false_eq_true, if_false]
    exact ⟨_, rfl⟩

/-- An executor that is closed goes on with what it has. -/
theorem floor_of_close (e : Executor α κ β) (commons : Commons σ κ β) :
    e.close.floor commons = e.floor commons ∧ e.close.accepts = false ∧
      e.close.isCancelled = e.isCancelled ∧ ∀ limit, e.Staffed limit → e.close.Staffed limit := by
  cases e with
  | sequential queue closed => exact ⟨rfl, rfl, rfl, fun _ _ => trivial⟩
  | pool p =>
    exact ⟨rfl, rfl, rfl, fun _ hstaffed => ⟨hstaffed.1, hstaffed.2.1, fun h => by cases h⟩⟩

variable [TransOrd κ] [Mergeable β] [Transport σ] [Workload α]

/-- Only pools have workers that move by themselves. -/
theorem did_of_step {shop : Workshop α κ β} {index : Nat} {e e' : Executor α κ β}
    {commons commons' : Commons σ κ β} (h : e.step shop index commons = some (e', commons')) :
    ∃ p p', e = pool p ∧ e' = pool p' ∧ p.Did shop index commons p' commons' := by
  cases e with
  | sequential queue closed => cases h
  | pool p =>
    simp only [step, Option.map_eq_some_iff, Prod.mk.injEq, Prod.exists] at h
    obtain ⟨p', _, hstep, rfl, rfl⟩ := h
    exact ⟨p, p', rfl, rfl, Pool.did_of_step hstep⟩

/-- Workers close no executor, and none goes home too early. -/
theorem staffed_of_step {shop : Workshop α κ β} {index : Nat} {e e' : Executor α κ β}
    {commons commons' : Commons σ κ β} (h : e.step shop index commons = some (e', commons')) :
    e'.accepts = e.accepts ∧ e'.isCancelled = e.isCancelled ∧
      ∀ limit, e.Staffed limit → e'.Staffed limit := by
  obtain ⟨p, p', rfl, rfl, hdid⟩ := did_of_step h
  -- whatever the worker does, only its own place in the pool changes
  have hset : ∀ (queue : List (Task α)) (w : Worker α κ β), (p.accepting = true → w ≠ .gone) →
      ∀ limit, (pool p).Staffed limit →
        (pool { p with queue, workers := p.workers.set index w }).Staffed limit := by
    rintro queue w hw limit ⟨hcapacity, hlength, hgone⟩
    refine ⟨hcapacity, by rw [← hlength]; exact List.length_set, ?_⟩
    intro haccepts hmem
    rcases List.mem_or_eq_of_mem_set hmem with hmem | heq
    · exact hgone haccepts hmem
    · exact hw haccepts heq.symm
  have hbusy : ∀ w : Worker α κ β, w.isBusy = true → (w.step shop commons).1 ≠ .gone := by
    intro w hw heq
    rcases Worker.step_isBusy shop commons hw with h | h | h <;>
      simp [heq, Worker.isBusy, Worker.isLost] at h
  cases hdid with
  | take task rest _ _ => exact ⟨rfl, rfl, hset rest _ fun _ => by simp⟩
  | leave _ _ hclosed =>
    exact ⟨rfl, rfl, hset p.queue _ fun haccepts => by rw [hclosed] at haccepts; cases haccepts⟩
  | begin task _ _ => exact ⟨rfl, rfl, hset p.queue _ fun _ => by simp [Worker.begin]⟩
  | skip task _ _ => exact ⟨rfl, rfl, hset p.queue _ fun _ => by simp⟩
  | work w _ hw _ => exact ⟨rfl, rfl, hset p.queue _ fun _ => hbusy w hw⟩
  | lose w queue _ hw _ _ => exact ⟨rfl, rfl, hset queue _ fun _ => hbusy w hw⟩

/-- A worker that was lost does not come back. -/
theorem hasLost_of_step {shop : Workshop α κ β} {index : Nat} {e e' : Executor α κ β}
    {commons commons' : Commons σ κ β} (h : e.step shop index commons = some (e', commons'))
    (hlost : e.hasLost = true) : e'.hasLost = true := by
  obtain ⟨p, p', rfl, rfl, hdid⟩ := did_of_step h
  have hset : ∀ (queue : List (Task α)) (w w' : Worker α κ β), p.workers[index]? = some w →
      w.isLost = false →
        (pool { p with queue, workers := p.workers.set index w' }).hasLost = true := by
    intro queue w w' hw hhere
    obtain ⟨before, after, hworkers, hset⟩ := Pool.exists_split hw
    simp only [hasLost, workers, hworkers, List.any_append, List.any_cons, hhere,
      Bool.false_or] at hlost
    simp only [hasLost, workers, hset, List.any_append, List.any_cons]
    rw [Bool.or_left_comm, hlost, Bool.or_true]
  have hbusy : ∀ w : Worker α κ β, w.isBusy = true → w.isLost = false := by
    intro w hw
    cases w <;> simp [Worker.isBusy, Worker.isLost] at hw ⊢
  cases hdid with
  | take task rest hw _ => exact hset rest _ _ hw rfl
  | leave hw _ _ => exact hset p.queue _ _ hw rfl
  | begin task hw _ => exact hset p.queue _ _ hw rfl
  | skip task hw _ => exact hset p.queue _ _ hw rfl
  | work w hw hb _ => exact hset p.queue _ _ hw (hbusy w hb)
  | lose w queue hw hb _ _ => exact hset queue _ _ hw (hbusy w hb)

/-- Giving queued tasks a chance to run closes no executor. -/
theorem staffed_of_drive {shop : Workshop α κ β} {e e' : Executor α κ β}
    {commons commons' : Commons σ κ β} {fault : Option Fault}
    (h : e.drive shop commons = (fault, e', commons')) :
    e'.accepts = e.accepts ∧ e'.isCancelled = e.isCancelled ∧
      ∀ limit, e.Staffed limit → e'.Staffed limit := by
  cases e with
  | pool p =>
    simp only [drive, Prod.mk.injEq] at h
    obtain ⟨-, rfl, -⟩ := h
    exact ⟨rfl, rfl, fun _ hstaffed => hstaffed⟩
  | sequential queue closed =>
    cases queue with
    | nil =>
      simp only [drive, Prod.mk.injEq] at h
      obtain ⟨-, rfl, -⟩ := h
      exact ⟨rfl, rfl, fun _ _ => trivial⟩
    | cons task rest =>
      simp only [drive, Prod.mk.injEq] at h
      obtain ⟨-, rfl, -⟩ := h
      exact ⟨rfl, rfl, fun _ _ => trivial⟩

/-- Workers take tasks from the front of the queue, and put none there. -/
theorem waiting_step_suffix {shop : Workshop α κ β} {index : Nat} {e e' : Executor α κ β}
    {commons commons' : Commons σ κ β} (h : e.step shop index commons = some (e', commons')) :
    e'.waiting <:+ e.waiting := by
  obtain ⟨p, p', rfl, rfl, hdid⟩ := did_of_step h
  cases hdid with
  | take task rest _ hqueue =>
    simp only [waiting, hqueue]
    exact List.suffix_cons task rest
  | lose w queue _ _ _ hqueue =>
    rcases hqueue with rfl | rfl
    · exact List.suffix_rfl
    · exact List.nil_suffix
  | _ => exact List.suffix_rfl

/-- Queued tasks that are given a chance to run are taken from the front of the queue. -/
theorem waiting_drive_suffix {shop : Workshop α κ β} {e e' : Executor α κ β}
    {commons commons' : Commons σ κ β} {fault : Option Fault}
    (h : e.drive shop commons = (fault, e', commons')) : e'.waiting <:+ e.waiting := by
  cases e with
  | pool p =>
    simp only [drive, Prod.mk.injEq] at h
    obtain ⟨-, rfl, -⟩ := h
    exact List.suffix_rfl
  | sequential queue closed =>
    cases queue with
    | nil =>
      simp only [drive, Prod.mk.injEq] at h
      obtain ⟨-, rfl, -⟩ := h
      exact List.suffix_rfl
    | cons task rest =>
      simp only [drive, Prod.mk.injEq] at h
      obtain ⟨-, rfl, -⟩ := h
      exact List.suffix_cons task rest

/-- A worker of an executor that skips nothing does steps of the floor. -/
theorem steps_of_step {shop : Workshop α κ β} {index : Nat} {e e' : Executor α κ β}
    {commons commons' : Commons σ κ β} (hcancelled : e.isCancelled = false)
    (h : e.step shop index commons = some (e', commons')) :
    Floor.Steps shop (e.floor commons) (e.begins index) (e'.floor commons') := by
  obtain ⟨p, p', rfl, rfl, hdid⟩ := did_of_step h
  simp only [floor, waiting, workers, begins, Pool.begins]
  cases hdid with
  | take task rest hw hqueue =>
    obtain ⟨before, after, hworkers, hset⟩ := Pool.exists_split hw
    simp only [hw, hqueue, hset]
    rw [hworkers]
    exact .single (.take task rest before after _)
  | leave hw hqueue hclosed =>
    obtain ⟨before, after, hworkers, hset⟩ := Pool.exists_split hw
    simp only [hw, hqueue, hset]
    rw [hworkers]
    exact .single (.leave before after _)
  | begin task hw _ =>
    obtain ⟨before, after, hworkers, hset⟩ := Pool.exists_split hw
    simp only [isCancelled] at hcancelled
    simp only [hw, hcancelled, hset, Bool.false_eq_true, if_false]
    rw [hworkers]
    exact .single (.begin task p.queue before after _)
  | skip task hw hskips =>
    rw [isCancelled, hskips] at hcancelled
    cases hcancelled
  | work w hw hbusy _ =>
    obtain ⟨before, after, hworkers, hset⟩ := Pool.exists_split hw
    have hnone := Pool.begins_of_isBusy hw hbusy
    simp only [Pool.begins] at hnone
    simp only [hnone, hset]
    rw [hworkers]
    exact .single (.work w p.queue before after _ hbusy)
  | lose w queue hw hbusy hlost hqueue =>
    obtain ⟨before, after, hworkers, hset⟩ := Pool.exists_split hw
    have hnone := Pool.begins_of_isBusy hw hbusy
    simp only [Pool.begins] at hnone
    simp only [hnone, hset]
    rw [hworkers]
    -- the worker does one step more, and what waits is lost in another one if nobody is left
    have hrow : Floor.Steps shop _ _ _ := .single (.work w p.queue before after commons hbusy)
    rcases hqueue with rfl | rfl
    · exact hrow
    · exact hrow.tail (.desert _ (by simp [Floor.hasLost, hlost]))

/-- Giving queued tasks a chance to run is a row of steps of the floor. -/
theorem steps_of_drive {shop : Workshop α κ β} {e e' : Executor α κ β}
    {commons commons' : Commons σ κ β} (h : e.drive shop commons = (none, e', commons')) :
    Floor.Steps shop (e.floor commons) e.driven (e'.floor commons') := by
  cases e with
  | pool p =>
    simp only [drive, Prod.mk.injEq, true_and] at h
    obtain ⟨rfl, rfl⟩ := h
    exact .refl
  | sequential queue closed =>
    cases queue with
    | nil =>
      simp only [drive, Prod.mk.injEq, true_and] at h
      obtain ⟨rfl, rfl⟩ := h
      exact .refl
    | cons task rest =>
      simp only [drive, Prod.mk.injEq] at h
      obtain ⟨hfault, rfl, rfl⟩ := h
      obtain ⟨w, hrow, hidle, -⟩ := Worker.steps_runTask shop task rest commons
      rw [hidle hfault] at hrow
      exact hrow

end Executor

end BatchRun
