import Mathlib.Data.Set.List
import BatchRun.Proofs.Run.Chronicle

/-!
# The rounds of the workers of a pool

What a worker of a pool does is a row of turns: it takes a task and skips it, or it takes a task,
begins it and goes through its stations, at the last two of which it sends the outcome and
publishes the signal. The last turn may be under way. A worker that has gone home has none under
way, so that whatever it began it has reported.

## Main definitions

* `Round`, `Round.IsTrue`: a task from being taken to its signal, truly reported
* `Turn`: a round, or a task that was skipped
* `Worker.Amid`: how far a worker is, at its station
* `Chronicle.IsDutiful`: what a pool owes to those who submit tasks

## Main results

* `Worker.Amid.step`: from one station to the next
* `Chronicle.Reaches.rows`: each worker does one turn after the other
* `Chronicle.Reaches.isDutiful`: every pool does its duty
-/

namespace BatchRun

open Std Relation

variable {σ α κ β : Type} [Ord κ]

/-- What a worker does with a task that it begins. -/
structure Round (σ α κ β : Type) [Ord κ] where
  task : Task α
  /-- The stations up to the last two. -/
  silent : List (Passage σ κ β)
  sending : Passage σ κ β
  publishing : Passage σ κ β
  outcome : Outcome κ β
  signal : Signal

namespace Round

/-- The first part of it: the task is taken and begun, and some stations are passed. -/
def opening (task : Task α) (silent : List (Passage σ κ β)) : List (Deed σ α κ β) :=
  .took task :: .began task :: silent.map .passed

theorem opening_append (task : Task α) (silent : List (Passage σ κ β)) (p : Passage σ κ β) :
    opening task silent ++ [.passed p] = (opening task (silent ++ [p]) : List (Deed σ α κ β)) := by
  simp [opening]

/-- All of it in its order. -/
def deeds (r : Round σ α κ β) : List (Deed σ α κ β) :=
  opening r.task r.silent ++ [.passed r.sending] ++ [.passed r.publishing]

/-- The outcome of the task is sent, then its signal is published, both of them true. Only an
outcome that nobody is left to take is not sent, and only a signal that the transport refuses is
not published. -/
structure IsTrue [Transport σ] [Workload α] (shop : Workshop α κ β) (shares : Bool)
    (r : Round σ α κ β) : Prop where
  silent : ∀ p ∈ r.silent, p.IsSilent
  sends : r.sending.SendsIfWanted r.outcome
  publishes : r.publishing.PublishesIfAccepted shop.notifier r.signal
  tells : Tells shop r.task shares r.outcome r.signal

end Round

/-- What a worker does with a task that it takes. -/
inductive Turn (σ α κ β : Type) [Ord κ] where
  | skip (task : Task α)
  | full (round : Round σ α κ β)

namespace Turn

/-- All of it in its order. -/
def deeds : Turn σ α κ β → List (Deed σ α κ β)
  | skip task => [.took task, .skipped task]
  | full round => round.deeds

/-- A task that is begun is truly reported. -/
def IsTrue [Transport σ] [Workload α] (shop : Workshop α κ β) (shares : Bool) :
    Turn σ α κ β → Prop
  | skip _ => True
  | full round => round.IsTrue shop shares

end Turn

namespace Worker

variable [Workload α]

/-- The outcome of a task, given whether the partial result is merged by the worker. -/
def trueOutcome (shop : Workshop α κ β) (shares : Bool) (task : Task α) : Outcome κ β :=
  outcomeOf task
    ((shop.work task).verdict.result.map fun part => if shares then none else some part)

/-- What a worker has done with the task in its hands, given its station. -/
def Amid (shop : Workshop α κ β) (shares : Bool) (ds : List (Deed σ α κ β)) :
    Worker α κ β → Prop
  | .idle | .gone => ds = []
  | .holding task => ds = [.took task]
  | .running task _ => ds = Round.opening task []
  | .merging task _ => shares = true ∧ (∃ part, (shop.work task).verdict.result = .ok part) ∧
      ∃ silent, (∀ p ∈ silent, p.IsSilent) ∧ ds = Round.opening task silent
  | .reporting outcome => ∃ task silent, outcome = trueOutcome shop shares task ∧
      (∀ p ∈ silent, p.IsSilent) ∧ ds = Round.opening task silent
  | .signalling taskNo said => ∃ task silent sending,
      taskNo = task.no ∧ said = saidOf (trueOutcome shop shares task) ∧
        (∀ p ∈ silent, p.IsSilent) ∧
        sending.SendsIfWanted (trueOutcome shop shares task) ∧
        ds = Round.opening task silent ++ [.passed sending]
  | .lost _ => True

variable {shop : Workshop α κ β} {shares : Bool} {ds : List (Deed σ α κ β)}
  {commons : Commons σ κ β}

/-- At the end of the work function a worker goes to merge the partial result, or to send the
outcome. -/
theorem amid_conclude (task : Task α) {p : Passage σ κ β} (hp : p.IsSilent)
    (hshares : commons.shared.isSome = shares) :
    (conclude shop task commons).1.Amid shop shares (Round.opening task [p]) := by
  have hall : ∀ q ∈ [p], q.IsSilent := by simpa using hp
  subst hshares
  simp only [conclude]
  cases hresult : (shop.work task).verdict.result with
  | error cause =>
    refine ⟨task, [p], ?_, hall, rfl⟩
    rw [trueOutcome, hresult]
    rfl
  | ok part =>
    cases hshared : commons.shared with
    | some shared => exact ⟨rfl, ⟨part, hresult⟩, [p], hall, rfl⟩
    | none =>
      refine ⟨task, [p], ?_, hall, rfl⟩
      rw [trueOutcome, hresult]
      rfl

variable [TransOrd κ] [Mergeable β] [Transport σ]

/-- A worker whose task has begun goes to the next station, or it has done a full round. -/
theorem Amid.step {w : Worker α κ β} (h : w.Amid shop shares ds) (hbusy : w.isBusy = true)
    (hshares : commons.shared.isSome = shares) :
    (w.step shop commons).1.Amid shop shares
        (ds ++ [.passed ⟨commons, (w.step shop commons).2⟩]) ∨
      (w.step shop commons).1 = .idle ∧ ∃ r : Round σ α κ β, r.IsTrue shop shares ∧
        ds ++ [.passed ⟨commons, (w.step shop commons).2⟩] = r.deeds := by
  cases w, hbusy using busyCases with
  | running task ends =>
    obtain rfl := h
    rw [Round.opening_append]
    exact .inl (amid_conclude task (isSilent_step commons nofun nofun) hshares)
  | merged task =>
    obtain ⟨rfl, ⟨part, hresult⟩, silent, hsilent, rfl⟩ := h
    rw [Round.opening_append]
    refine .inl ⟨task, _, ?_, ?_, rfl⟩
    · rw [trueOutcome, hresult]
      rfl
    · exact List.forall_mem_append.2
        ⟨hsilent, List.forall_mem_singleton.2 (isSilent_step commons nofun nofun)⟩
  | merging task k delta rest =>
    obtain ⟨hmerges, hresult, silent, hsilent, rfl⟩ := h
    rw [Round.opening_append]
    rcases step_merging shop task k delta rest commons with ⟨-, hnext⟩ | ⟨_, _, -, -, hnext⟩
    · rw [hnext]
      refine .inl ⟨hmerges, hresult, _, ?_, rfl⟩
      exact List.forall_mem_append.2
        ⟨hsilent, List.forall_mem_singleton.2 (isSilent_step commons nofun nofun)⟩
    · rw [hnext]
      exact .inl trivial
  | reporting outcome =>
    obtain ⟨task, silent, rfl, hsilent, rfl⟩ := h
    have hsends := Passage.sendsIfWanted_send commons (trueOutcome shop shares task)
    exact .inl ⟨task, silent, _, rfl, rfl, hsilent, hsends, rfl⟩
  | signalling taskNo said =>
    obtain ⟨task, silent, sending, rfl, rfl, hsilent, hsends, rfl⟩ := h
    have htells := tells_of_outcomeOf shop task shares commons.now rfl
    have hpublishes := Passage.publishesIfAccepted_publish commons shop.notifier
      (signalOf shop task.no (saidOf (trueOutcome shop shares task)) commons.now)
    exact .inr ⟨rfl, ⟨task, silent, sending, _, _, _⟩, ⟨hsilent, hsends, hpublishes, htells⟩, rfl⟩

/-- What a worker has done is a row of turns, of which the last one may be under way. -/
def HasRow (shop : Workshop α κ β) (shares : Bool) (ds : List (Deed σ α κ β))
    (w : Worker α κ β) : Prop :=
  ∃ (turns : List (Turn σ α κ β)) (current : List (Deed σ α κ β)),
    (∀ t ∈ turns, t.IsTrue shop shares) ∧ w.Amid shop shares current ∧
      ds = turns.flatMap Turn.deeds ++ current

omit [TransOrd κ] [Mergeable β] in
/-- A worker is through with a turn. -/
theorem hasRow_idle {turns : List (Turn σ α κ β)} (htrue : ∀ t ∈ turns, t.IsTrue shop shares)
    {t : Turn σ α κ β} (ht : t.IsTrue shop shares) :
    (.idle : Worker α κ β).HasRow shop shares (turns.flatMap Turn.deeds ++ t.deeds) := by
  refine ⟨turns ++ [t], [], ?_, rfl, ?_⟩
  · exact List.forall_mem_append.2 ⟨htrue, List.forall_mem_singleton.2 ht⟩
  · rw [List.flatMap_append, List.flatMap_singleton, List.append_nil]

/-- A worker with a task that has begun stays in its turn, or is through with it. -/
theorem HasRow.step {w : Worker α κ β} (h : w.HasRow shop shares ds) (hbusy : w.isBusy = true)
    (hshares : commons.shared.isSome = shares) :
    (w.step shop commons).1.HasRow shop shares
      (ds ++ [.passed ⟨commons, (w.step shop commons).2⟩]) := by
  obtain ⟨turns, current, htrue, hcurrent, rfl⟩ := h
  rw [List.append_assoc]
  rcases hcurrent.step hbusy hshares with hnext | ⟨hidle, r, hr, hdeeds⟩
  · exact ⟨turns, _, htrue, hnext, rfl⟩
  · rw [hidle, hdeeds]
    exact hasRow_idle (t := .full r) htrue hr

end Worker

section Did

variable [TransOrd κ] [Mergeable β] [Transport σ] [Workload α] {shop : Workshop α κ β}
  {shares : Bool} {p p' : Pool α κ β} {index : Nat} {commons commons' : Commons σ κ β}

/-- Whatever a worker does belongs to its row. -/
theorem Pool.Did.exists_hasRow (h : p.Did shop index commons p' commons')
    (hshares : commons.shared.isSome = shares) {ds : List (Deed σ α κ β)}
    (hrow : ∀ w, p.workers[index]? = some w → w.HasRow shop shares ds) :
    ∃ w', p'.workers = p.workers.set index w' ∧
      w'.HasRow shop shares (ds ++ p.deeds index commons commons') := by
  cases h with
  | take task rest hw hqueue =>
    rw [deeds_take hw hqueue]
    obtain ⟨turns, _, htrue, rfl, rfl⟩ := hrow _ hw
    exact ⟨_, rfl, turns, [.took task], htrue, rfl, by rw [List.append_nil]⟩
  | leave hw hqueue _ =>
    rw [deeds_leave hw hqueue, List.append_nil]
    obtain ⟨turns, _, htrue, rfl, rfl⟩ := hrow _ hw
    exact ⟨_, rfl, turns, [], htrue, rfl, rfl⟩
  | begin task hw hcancelled =>
    rw [deeds_begin hw hcancelled]
    obtain ⟨turns, _, htrue, rfl, rfl⟩ := hrow _ hw
    exact ⟨_, rfl, turns, [.took task, .began task], htrue, rfl, by simp⟩
  | skip task hw hcancelled =>
    rw [deeds_skip hw hcancelled]
    obtain ⟨turns, _, htrue, rfl, rfl⟩ := hrow _ hw
    refine ⟨_, rfl, ?_⟩
    rw [List.append_assoc]
    exact Worker.hasRow_idle (t := .skip task) htrue trivial
  | work w hw hbusy _ =>
    rw [deeds_work hw hbusy]
    exact ⟨_, rfl, (hrow w hw).step hbusy hshares⟩
  | lose w _ hw hbusy _ _ =>
    rw [deeds_work hw hbusy]
    exact ⟨_, rfl, (hrow w hw).step hbusy hshares⟩

end Did

/-- Whether there is a shared tally is not for workers of a pool to change. -/
theorem Pool.Did.isSome_shared [TransOrd κ] [Mergeable β] [Transport σ] [Workload α]
    {shop : Workshop α κ β} {p p' : Pool α κ β} {index : Nat} {commons commons' : Commons σ κ β}
    (h : p.Did shop index commons p' commons') :
    commons'.shared.isSome = commons.shared.isSome := by
  cases h with
  | take | leave | begin | skip => rfl
  | work w | lose w => exact (Worker.step_keeps shop w commons).2

namespace Chronicle

section Rows

variable [Transport σ] [Workload α] {shop : Workshop α κ β} {shares : Bool}
  {c : Chronicle σ α κ β}

/-- Each worker does one turn after the other, and others do nothing. -/
structure Rows (shop : Workshop α κ β) (shares : Bool) (c : Chronicle σ α κ β) : Prop where
  shared : c.commons.shared.isSome = shares
  row (index : Nat) (w : Worker α κ β) (hw : c.pool.workers[index]? = some w) :
    w.HasRow shop shares (c.deeds index)
  none (index : Nat) (hw : c.pool.workers[index]? = none) : c.deeds index = []

theorem rows_start (shop : Workshop α κ β) (commons : Commons σ κ β) {n : Nat}
    {pool : Pool α κ β} (hnew : Pool.new n = .ok pool) :
    (start pool commons).Rows shop commons.shared.isSome := by
  obtain rfl := Pool.eq_of_new hnew
  refine ⟨rfl, ?_, fun _ _ => rfl⟩
  intro index w hw
  have hmem : w ∈ List.replicate n Worker.idle := List.mem_of_getElem? hw
  obtain rfl := List.eq_of_mem_replicate hmem
  exact ⟨[], [], by simp, rfl, rfl⟩

/-- A worker that has gone home without skipping a task has done full rounds. -/
theorem Rows.exists_rounds (h : c.Rows shop shares) (hdeserted : c.pool.isDeserted = true)
    (hlost : c.hasLost = false) (hskipped : c.skipped = []) (index : Nat) :
    ∃ rounds : List (Round σ α κ β), c.deeds index = rounds.flatMap Round.deeds ∧
      ∀ r ∈ rounds, r.IsTrue shop shares := by
  cases hw : c.pool.workers[index]? with
  | none => exact ⟨[], h.none index hw, by simp⟩
  | some w =>
    obtain ⟨turns, current, htrue, hcurrent, hdeeds⟩ := h.row index w hw
    rw [eq_gone_of_isDeserted hdeserted hlost (List.mem_of_getElem? hw)] at hcurrent
    obtain rfl : current = [] := hcurrent
    rw [List.append_nil] at hdeeds
    have hfull : turns ∈ Set.range (List.map (Turn.full : Round σ α κ β → Turn σ α κ β)) := by
      rw [Set.range_list_map]
      intro t ht
      cases t with
      | full r => exact ⟨r, rfl⟩
      | skip task =>
        -- a task that was skipped would be in the log
        have hmem : Deed.skipped task ∈ c.deeds index := by
          rw [hdeeds]
          exact List.mem_flatMap.2 ⟨_, ht, by simp [Turn.deeds]⟩
        have hskip : task ∈ c.skipped :=
          List.mem_filterMap.2 ⟨_, mem_deeds_iff.1 hmem, rfl⟩
        rw [hskipped] at hskip
        cases hskip
    obtain ⟨rounds, rfl⟩ := hfull
    refine ⟨rounds, ?_, fun r hr => htrue _ (List.mem_map_of_mem hr)⟩
    rw [hdeeds, List.flatMap_map]
    rfl

end Rows

variable [TransOrd κ] [Mergeable β] [Transport σ] [Workload α] {shop : Workshop α κ β}
  {shares : Bool} {c c' : Chronicle σ α κ β}

theorem Rows.step (h : c.Rows shop shares) (hstep : Step shop c c') : c'.Rows shop shares := by
  cases hstep with
  | submit _ hsubmit =>
    obtain ⟨-, rfl⟩ := Pool.eq_of_submit hsubmit
    exact { h with }
  | @work index pool commons hwork =>
    have hdid := Pool.did_of_step hwork
    obtain ⟨w', hworkers, hrow⟩ := hdid.exists_hasRow h.shared fun w hw => h.row index w hw
    obtain ⟨before, _, hthere, -⟩ := hdid.exists_handles
    have hlt : index < c.pool.workers.length := (List.getElem?_eq_some_iff.1 hthere).1
    refine ⟨hdid.isSome_shared.trans h.shared, ?_, ?_⟩
    · intro i w hw
      rw [pool_worked, hworkers] at hw
      rw [deeds_worked]
      by_cases hi : i = index
      · subst hi
        rw [List.getElem?_set_self hlt] at hw
        obtain rfl := Option.some.inj hw
        rw [if_pos rfl]
        exact hrow
      · rw [List.getElem?_set_ne (Ne.symm hi)] at hw
        rw [if_neg hi]
        exact h.row i w hw
    · intro i hw
      rw [pool_worked, hworkers, List.getElem?_eq_none_iff, List.length_set,
        ← List.getElem?_eq_none_iff] at hw
      have hi : i ≠ index := by
        rintro rfl
        rw [hw] at hthere
        cases hthere
      rw [deeds_worked, if_neg hi]
      exact h.none i hw
  | elsewhere hshares => exact { h with shared := hshares.trans h.shared }
  | _ => exact { h with }

theorem Reaches.rows (h : c.Reaches shop c') (hc : c.Rows shop shares) : c'.Rows shop shares := by
  induction h with
  | refl => exact hc
  | tail _ hstep ih => exact ih.step hstep

/-- What a pool owes to those who submit tasks to it. -/
structure IsDutiful (shop : Workshop α κ β) (shares : Bool) (c : Chronicle σ α κ β) : Prop where
  /-- A task is executed at most as often as it was accepted. -/
  once : c.begun.Subperm c.accepted
  /-- No task is executed by two workers. -/
  alone (hdistinct : c.accepted.Nodup) : c.begun.Nodup ∧ ∀ (task : Task α) (index index' : Nat),
    .began task ∈ c.deeds index → .began task ∈ c.deeds index' → index = index'
  /-- When the pool was shut down without an abort, all tasks were executed and reported. -/
  complete (hshutdown : .shutdown ∈ c.calls) (habort : .abort ∉ c.calls)
    (hreturned : c.stance ≠ .joining) (hstays : c.hasLost = false) :
    c.begun.Perm c.accepted ∧ ∀ index, ∃ rounds : List (Round σ α κ β),
      c.deeds index = rounds.flatMap Round.deeds ∧ ∀ r ∈ rounds, r.IsTrue shop shares
  /-- A call that shuts down waits for workers that can go on. -/
  waits (hjoining : c.stance = .joining) (hhere : c.pool.isDeserted = false) :
    ∃ index pool commons, c.pool.step shop index c.commons = some (pool, commons)
  /-- An abort tells the workers to skip tasks, and from then on none is begun. -/
  halted (habort : .abort ∈ c.calls) :
    c.pool.cancelled = true ∧ ∀ c', c.Reaches shop c' → c'.begun = c.begun
  /-- A task that is submitted after an abort or a shutdown is refused, and never executed. -/
  refused (hcalled : .abort ∈ c.calls ∨ .shutdown ∈ c.calls) (hfree : c.stance = .free)
    (task : Task α) :
    (Executor.pool c.pool).submit task = .error (.transport .poolClosed) ∧
      ∀ c', c.Reaches shop c' → c'.accepted = c.accepted ∧ (task ∉ c.accepted → task ∉ c'.begun)

/-- Whatever the calls of the control node, and in whatever order the workers go on, a pool of any
size does its duty. -/
theorem Reaches.isDutiful {n : Nat} {pool : Pool α κ β} (hnew : Pool.new n = .ok pool)
    {commons : Commons σ κ β} (h : (start pool commons).Reaches shop c) :
    c.IsDutiful shop commons.shared.isSome := by
  have hruled := h.ruled (ruled_start commons hnew)
  have hstocked := h.stocked (stocked_start commons hnew)
  have hrows := h.rows (rows_start shop commons hnew)
  refine ⟨hstocked.begun_subperm, hstocked.nodup_begun, ?_, ?_, ?_, ?_⟩
  · intro hshutdown habort hreturned hstays
    have hjoinable : c.joinable = false := (hruled.shutDown hshutdown).2 hreturned
    have hdeserted : c.pool.isDeserted = true := (hruled.joined hjoinable).resolve_left habort
    have hcancelled : c.pool.cancelled = false := by
      rw [Bool.eq_false_iff]
      intro hskips
      rcases hruled.cancelled hskips with habort' | ⟨hshutdown', -⟩
      · exact habort habort'
      · exact hshutdown' hshutdown
    exact ⟨hstocked.begun_perm hdeserted hstays hcancelled,
      hrows.exists_rounds hdeserted hstays (hstocked.skipped_eq hcancelled)⟩
  · intro hjoining hhere
    exact Pool.exists_step_of_closed shop c.commons
      (hruled.shutDown (hruled.joining hjoining)).1 hhere
  · intro habort
    have hcancelled : c.pool.cancelled = true := (hruled.aborted habort).1
    exact ⟨hcancelled, fun c' hlater => hlater.begun_eq hcancelled⟩
  · intro hcalled hfree task
    have hclosed : c.pool.accepting = false := by
      rcases hcalled with habort | hshutdown
      · exact (hruled.aborted habort).2 (by rw [hfree]; nofun)
      · exact (hruled.shutDown hshutdown).1
    refine ⟨by rw [Executor.submit, Pool.submit_of_closed hclosed], ?_⟩
    intro c' hlater
    have haccepted := (hlater.accepted_eq hclosed).2
    refine ⟨haccepted, fun hnot hbegun => hnot ?_⟩
    rw [← haccepted]
    exact (hlater.stocked hstocked).begun_subperm.subset hbegun

/-- Workers go on, one step each, in a given order. -/
def works? (shop : Workshop α κ β) : List Nat → Chronicle σ α κ β → Option (Chronicle σ α κ β)
  | [], c => some c
  | index :: rest, c =>
    match c.pool.step shop index c.commons with
    | some (pool, commons) =>
      works? shop rest (c.worked index pool commons (c.pool.deeds index c.commons commons))
    | none => none

theorem reaches_of_works {order : List Nat} (h : works? shop order c = some c') :
    c.Reaches shop c' ∧ c'.stance = c.stance ∧ c'.calls = c.calls ∧ c'.accepted = c.accepted := by
  induction order generalizing c with
  | nil =>
    obtain rfl := Option.some.inj h
    exact ⟨.refl, rfl, rfl, rfl⟩
  | cons index rest ih =>
    rw [works?] at h
    split at h
    · next pool commons hwork =>
      obtain ⟨hreaches, hkept⟩ := ih h
      exact ⟨.head (.work hwork) hreaches, hkept⟩
    · cases h

/-- A task of one unit. -/
def unitTask (no : Nat) : Task ScriptedTask :=
  ⟨no, .plain "unit" (.ofInt 1), .named "dispatch"⟩

/-- Two tasks are submitted to a pool that is shut down before a worker has taken one. -/
def twoTasks (pool : Pool ScriptedTask String Count) :
    Chronicle Broker ScriptedTask String Count where
  pool := { pool with queue := [unitTask 0, unitTask 1] }.close
  commons := .counted (.ofInt 0)
  stance := .joining
  joinable := true
  calls := [.submit (unitTask 0), .submit (unitTask 1), .shutdown]
  accepted := [unitTask 0, unitTask 1]
  log := []

/-- Two workers come in between each other until both have gone home. -/
def turns : List Nat := [0, 1, 0, 1, 1, 0, 0, 0, 1, 0, 1, 1, 0, 1, 0, 1]

/-- When the call returns, both tasks were executed, and both outcomes are there. -/
theorem isDutiful_of_twoTasks :
    ∃ (pool : Pool ScriptedTask String Count) (c : Chronicle Broker ScriptedTask String Count),
      Pool.new 2 = .ok pool ∧
      (start pool (.counted (.ofInt 0))).Reaches .counting c ∧
      c.calls = [.submit (unitTask 0), .submit (unitTask 1), .shutdown] ∧ c.stance = .free ∧
      c.hasLost = false ∧ c.begun.Perm [unitTask 0, unitTask 1] ∧
      c.commons.outcomes.map (·.taskNo) = [0, 1] ∧ c.IsDutiful .counting true := by
  let pool : Pool ScriptedTask String Count := ⟨[], 2, true, false, [.idle, .idle]⟩
  have hnew : Pool.new 2 = .ok pool := rfl
  have hcalls : (start pool (.counted (.ofInt 0))).Reaches .counting
      (twoTasks pool) :=
    .head (.submit rfl rfl) (.head (.submit rfl rfl) (.head (.shutdown rfl) .refl))
  have hworks : ((works? .counting turns (twoTasks pool)).any fun c =>
      c.pool.isDeserted && !c.hasLost && c.commons.outcomes.map (·.taskNo) == [0, 1]) = true := by
    decide +kernel
  obtain ⟨c, hc, hends⟩ := (Option.any_eq_true _ _).1 hworks
  rw [Bool.and_eq_true, Bool.and_eq_true, Bool.not_eq_true', beq_iff_eq] at hends
  obtain ⟨⟨hdeserted, hstays⟩, houtcomes⟩ := hends
  obtain ⟨hreaches, hstance, hkept, haccepted⟩ := reaches_of_works hc
  have hjoined := (hcalls.trans hreaches).tail (.joined hstance fun _ => hdeserted)
  have hdutiful := Reaches.isDutiful hnew hjoined
  have hshutdown : Call.shutdown ∈ c.calls := by simp [hkept, twoTasks]
  have habort : Call.abort ∉ c.calls := by simp [hkept, twoTasks]
  have hbegun := (hdutiful.complete hshutdown habort (by simp) hstays).1
  exact ⟨pool, _, hnew, hjoined, hkept, rfl, hstays, haccepted ▸ hbegun, houtcomes, hdutiful⟩

end Chronicle

end BatchRun
