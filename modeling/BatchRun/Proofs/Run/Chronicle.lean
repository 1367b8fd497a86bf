import BatchRun.Proofs.Run.Course
import BatchRun.Proofs.Run.Reporting

/-!
# The chronicle of a pool

The control node submits tasks to a pool, aborts it, shuts it down or drops it, one call after the
other, while the workers take tasks, look whether tasks are skipped, and go from station to
station in any order. The chronicle keeps the calls, the tasks that were accepted, and what each
worker did, in the order in which it happened.

A call that aborts first tells the workers to skip tasks and only then stops to accept them. A
call that shuts down waits for the workers if there are any to wait for; after an abort there are
none, as it has let them go.

## Main definitions

* `Chronicle`, `Chronicle.Step`: a pool with all that was done, and what can be done next
* `Chronicle.begun`: the tasks that were executed, by whichever worker
* `Chronicle.Ruled`, `Chronicle.Stocked`: what the calls and the tasks come to

## Main results

* `Chronicle.Reaches.ruled`, `Chronicle.Reaches.stocked`: every chronicle is like that
* `Chronicle.Reaches.begun_eq`: once tasks are skipped, none is begun
-/

namespace BatchRun

open Std Relation

variable {σ α κ β : Type} [Ord κ]

/-- What a worker of a pool does. -/
inductive Deed (σ α κ β : Type) [Ord κ] where
  | took (task : Task α)
  | skipped (task : Task α)
  | began (task : Task α)
  /-- A station of a task that has begun. -/
  | passed (passage : Passage σ κ β)

namespace Deed

/-- The task that is taken. -/
def taken? : Deed σ α κ β → Option (Task α)
  | took task => some task
  | _ => none

/-- The task that is skipped. -/
def skipped? : Deed σ α κ β → Option (Task α)
  | skipped task => some task
  | _ => none

/-- The task that is begun. -/
def begun? : Deed σ α κ β → Option (Task α)
  | began task => some task
  | _ => none

end Deed

/-- The task that a worker has taken and not yet begun. -/
def Worker.held? : Worker α κ β → Option (Task α)
  | .holding task => some task
  | _ => none

/-- What a worker does in its next step, given what it finds and leaves. -/
def Pool.deeds (p : Pool α κ β) (index : Nat) (found left : Commons σ κ β) :
    List (Deed σ α κ β) :=
  match p.workers[index]? with
  | some .idle =>
    match p.queue with
    | task :: _ => [.took task]
    | [] => []
  | some (.holding task) => if p.cancelled then [.skipped task] else [.began task]
  | some w => if w.isBusy then [.passed ⟨found, left⟩] else []
  | none => []

/-- A call of the control node. -/
inductive Call (α : Type) where
  | submit (task : Task α)
  | abort
  | shutdown
  | drop

/-- Where the control node stands with its calls. -/
inductive Stance where
  | free
  /-- Tasks are skipped from now on, but still accepted. -/
  | aborting
  /-- The workers are waited for. -/
  | joining
  /-- Tasks are skipped because the pool is on its way out. -/
  | dropping
  /-- The pool is dropped. -/
  | parted

/-- A pool with all that was done with it and in it. -/
structure Chronicle (σ α κ β : Type) [Ord κ] where
  pool : Pool α κ β
  commons : Commons σ κ β
  stance : Stance
  /-- Whether there are workers to wait for. -/
  joinable : Bool
  calls : List (Call α)
  accepted : List (Task α)
  /-- What was done by which worker. -/
  log : List (Nat × Deed σ α κ β)

namespace Chronicle

/-- Nothing was done yet. -/
def start (pool : Pool α κ β) (commons : Commons σ κ β) : Chronicle σ α κ β :=
  ⟨pool, commons, .free, true, [], [], []⟩

/-- The tasks that workers have taken. -/
def taken (c : Chronicle σ α κ β) : List (Task α) := c.log.filterMap (·.2.taken?)

/-- The tasks that were skipped. -/
def skipped (c : Chronicle σ α κ β) : List (Task α) := c.log.filterMap (·.2.skipped?)

/-- The tasks that were executed, each as often as it was. -/
def begun (c : Chronicle σ α κ β) : List (Task α) := c.log.filterMap (·.2.begun?)

/-- What a worker did. -/
def deeds (c : Chronicle σ α κ β) (index : Nat) : List (Deed σ α κ β) :=
  c.log.filterMap fun e => if e.1 = index then some e.2 else none

theorem mem_deeds_iff {c : Chronicle σ α κ β} {index : Nat} {d : Deed σ α κ β} :
    d ∈ c.deeds index ↔ (index, d) ∈ c.log := by
  simp only [deeds, List.mem_filterMap, Option.ite_none_right_eq_some, Option.some.injEq,
    Prod.exists]
  constructor
  · rintro ⟨_, _, hmem, rfl, rfl⟩
    exact hmem
  · exact fun hmem => ⟨_, _, hmem, rfl, rfl⟩

/-- Whether a worker was lost. -/
def hasLost (c : Chronicle σ α κ β) : Bool := (Executor.pool c.pool).hasLost

/-- A worker has done something. -/
def worked (c : Chronicle σ α κ β) (index : Nat) (pool : Pool α κ β) (commons : Commons σ κ β)
    (deeds : List (Deed σ α κ β)) : Chronicle σ α κ β :=
  { c with pool, commons, log := c.log ++ deeds.map (index, ·) }

section Worked

variable (c : Chronicle σ α κ β) (index : Nat) (pool : Pool α κ β) (commons : Commons σ κ β)
  (deeds : List (Deed σ α κ β))

@[simp] theorem pool_worked : (c.worked index pool commons deeds).pool = pool := rfl

@[simp] theorem taken_worked :
    (c.worked index pool commons deeds).taken = c.taken ++ deeds.filterMap Deed.taken? := by
  rw [taken, worked, List.filterMap_append, List.filterMap_map]
  rfl

@[simp] theorem skipped_worked :
    (c.worked index pool commons deeds).skipped = c.skipped ++ deeds.filterMap Deed.skipped? := by
  rw [skipped, worked, List.filterMap_append, List.filterMap_map]
  rfl

@[simp] theorem begun_worked :
    (c.worked index pool commons deeds).begun = c.begun ++ deeds.filterMap Deed.begun? := by
  rw [begun, worked, List.filterMap_append, List.filterMap_map]
  rfl

theorem deeds_worked (i : Nat) : (c.worked index pool commons deeds).deeds i =
    if i = index then c.deeds i ++ deeds else c.deeds i := by
  rw [Chronicle.deeds, worked, List.filterMap_append, List.filterMap_map]
  by_cases h : i = index
  · subst h
    simp [Chronicle.deeds]
  · simp [Chronicle.deeds, h, Ne.symm h]

end Worked

variable [TransOrd κ] [Mergeable β] [Transport σ] [Workload α]

/-- What can happen next. The calls come one after the other, and workers and all others go on in
between. -/
inductive Step (shop : Workshop α κ β) : Chronicle σ α κ β → Chronicle σ α κ β → Prop
  | submit {c : Chronicle σ α κ β} {task : Task α} {pool : Pool α κ β} (hfree : c.stance = .free)
      (h : c.pool.submit task = .ok pool) :
      Step shop c { c with
        pool, calls := c.calls ++ [.submit task], accepted := c.accepted ++ [task] }
  | refuse {c : Chronicle σ α κ β} {task : Task α} {problem : TransportProblem}
      (hfree : c.stance = .free) (h : c.pool.submit task = .error problem) :
      Step shop c { c with calls := c.calls ++ [.submit task] }
  | abort {c : Chronicle σ α κ β} (hfree : c.stance = .free) :
      Step shop c { c with
        pool := { c.pool with cancelled := true }, stance := .aborting,
        calls := c.calls ++ [.abort] }
  | aborted {c : Chronicle σ α κ β} (haborting : c.stance = .aborting) :
      Step shop c { c with pool := c.pool.abort, stance := .free, joinable := false }
  | shutdown {c : Chronicle σ α κ β} (hfree : c.stance = .free) :
      Step shop c { c with
        pool := c.pool.close, stance := .joining, calls := c.calls ++ [.shutdown] }
  | joined {c : Chronicle σ α κ β} (hjoining : c.stance = .joining)
      (hall : c.joinable = true → c.pool.isDeserted = true) :
      Step shop c { c with stance := .free, joinable := false }
  | drop {c : Chronicle σ α κ β} (hfree : c.stance = .free) (hjoinable : c.joinable = true) :
      Step shop c { c with
        pool := { c.pool with cancelled := true }, stance := .dropping,
        calls := c.calls ++ [.drop] }
  | dropped {c : Chronicle σ α κ β} (hdropping : c.stance = .dropping) :
      Step shop c { c with pool := c.pool.abort, stance := .parted }
  /-- A pool that has let its workers go is just dropped. -/
  | part {c : Chronicle σ α κ β} (hfree : c.stance = .free) (hjoinable : c.joinable = false) :
      Step shop c { c with stance := .parted, calls := c.calls ++ [.drop] }
  | work {c : Chronicle σ α κ β} {index : Nat} {pool : Pool α κ β} {commons : Commons σ κ β}
      (h : c.pool.step shop index c.commons = some (pool, commons)) :
      Step shop c (c.worked index pool commons (c.pool.deeds index c.commons commons))
  /-- Others use what is shared; whether there is a shared tally does not change. -/
  | elsewhere {c : Chronicle σ α κ β} {commons : Commons σ κ β}
      (h : commons.shared.isSome = c.commons.shared.isSome) : Step shop c { c with commons }

/-- Any number of steps. -/
abbrev Reaches (shop : Workshop α κ β) : Chronicle σ α κ β → Chronicle σ α κ β → Prop :=
  ReflTransGen (Step shop)

end Chronicle

namespace Pool

variable {p p' : Pool α κ β}

/-- A pool that accepts a task keeps it in its queue. -/
theorem eq_of_submit {task : Task α} (h : p.submit task = .ok p') :
    p.accepting = true ∧ p' = { p with queue := p.queue ++ [task] } := by
  rw [submit] at h
  repeat' split at h
  all_goals cases h
  simp_all

theorem submit_of_closed (h : p.accepting = false) (task : Task α) :
    p.submit task = .error .poolClosed := by
  simp [submit, h]

section Did

variable [TransOrd κ] [Mergeable β] [Transport σ] [Workload α] {shop : Workshop α κ β}
  {index : Nat} {commons commons' : Commons σ κ β}

/-- Workers leave alone what the control node decides. -/
theorem Did.kept (h : Did shop index p commons p' commons') :
    p'.accepting = p.accepting ∧ p'.cancelled = p.cancelled ∧
      p'.workers.length = p.workers.length := by
  cases h <;> exact ⟨rfl, rfl, List.length_set⟩

/-- Of a pool that is deserted no worker does anything. -/
theorem Did.not_isDeserted (h : Did shop index p commons p' commons') : p.isDeserted = false := by
  have hhere (w : Worker α κ β) (hw : p.workers[index]? = some w) (haway : isAway w = false) :
      p.isDeserted = false := by
    rw [isDeserted_eq, List.all_eq_false]
    exact ⟨w, List.mem_of_getElem? hw, by simp [haway]⟩
  have hbusy (w : Worker α κ β) (h : w.isBusy = true) : isAway w = false := by
    cases w <;> simp_all [Worker.isBusy, isAway]
  cases h with
  | take _ _ hw _ => exact hhere _ hw rfl
  | leave hw _ _ => exact hhere _ hw rfl
  | begin _ hw _ => exact hhere _ hw rfl
  | skip _ hw _ => exact hhere _ hw rfl
  | work w hw hb _ => exact hhere w hw (hbusy w hb)
  | lose w _ hw hb _ _ => exact hhere w hw (hbusy w hb)

/-- As long as a pool that is closed is not deserted, one of its workers can go on. -/
theorem exists_step_of_closed (shop : Workshop α κ β) (commons : Commons σ κ β)
    (hclosed : p.accepting = false) (hhere : p.isDeserted = false) :
    ∃ index p' commons', p.step shop index commons = some (p', commons') := by
  rw [isDeserted_eq, List.all_eq_false] at hhere
  obtain ⟨w, hw, haway⟩ := hhere
  obtain ⟨index, hindex⟩ := List.mem_iff_getElem?.1 hw
  refine ⟨index, ?_⟩
  cases w with
  | idle => cases hqueue : p.queue <;> simp [step, hindex, hqueue, hclosed]
  | gone => exact absurd rfl haway
  | lost fault => exact absurd rfl haway
  | _ => simp [step, hindex]

end Did

end Pool

namespace Chronicle

/-- What the calls have come to. -/
structure Ruled (c : Chronicle σ α κ β) : Prop where
  cancelled : c.pool.cancelled = true → .abort ∈ c.calls ∨
    .shutdown ∉ c.calls ∧ (c.stance = .dropping ∨ c.stance = .parted)
  aborting : c.stance = .aborting → .abort ∈ c.calls
  joining : c.stance = .joining → .shutdown ∈ c.calls
  dropping : c.stance = .dropping → c.pool.cancelled = true
  aborted : .abort ∈ c.calls → c.pool.cancelled = true ∧
    (c.stance ≠ .aborting → c.pool.accepting = false)
  /-- After a call that shuts down there is no one left to wait for. -/
  shutDown : .shutdown ∈ c.calls → c.pool.accepting = false ∧
    (c.stance ≠ .joining → c.joinable = false)
  /-- Without an abort, workers are let go only when all have gone home. -/
  joined : c.joinable = false → .abort ∈ c.calls ∨ c.pool.isDeserted = true

theorem ruled_start (commons : Commons σ κ β) {n : Nat} {pool : Pool α κ β}
    (hnew : Pool.new n = .ok pool) : (start pool commons).Ruled := by
  obtain rfl := Pool.eq_of_new hnew
  constructor <;> simp [start]

variable {c c' : Chronicle σ α κ β}

/-- What the calls have come to does not depend on tasks and workers. -/
theorem Ruled.congr (h : c.Ruled)
    (habort : .abort ∈ c'.calls ↔ .abort ∈ c.calls)
    (hshutdown : .shutdown ∈ c'.calls ↔ .shutdown ∈ c.calls)
    (hcancelled : c'.pool.cancelled = c.pool.cancelled)
    (haccepting : c'.pool.accepting = c.pool.accepting)
    (hdeserted : c.pool.isDeserted = true → c'.pool.isDeserted = true)
    (hstance : c'.stance = c.stance) (hjoinable : c'.joinable = c.joinable) : c'.Ruled where
  cancelled := by
    rw [hcancelled, habort, hshutdown, hstance]
    exact h.cancelled
  aborting := by
    rw [habort, hstance]
    exact h.aborting
  joining := by
    rw [hshutdown, hstance]
    exact h.joining
  dropping := by
    rw [hcancelled, hstance]
    exact h.dropping
  aborted := by
    rw [habort, hcancelled, haccepting, hstance]
    exact h.aborted
  shutDown := by
    rw [hshutdown, haccepting, hstance, hjoinable]
    exact h.shutDown
  joined := by
    rw [habort, hjoinable]
    exact fun hnone => (h.joined hnone).imp id hdeserted

/-- Unless the pool is on its way out, workers skip tasks only after an abort. -/
theorem Ruled.abort_mem (h : c.Ruled) (hstays : c.stance = .free ∨ c.stance = .joining)
    (hcancelled : c.pool.cancelled = true) : .abort ∈ c.calls := by
  refine (h.cancelled hcancelled).resolve_right ?_
  rintro ⟨-, hout⟩
  rcases hstays with hstays | hstays <;> simp [hstays] at hout

/-- What an abort has come to once the caller is free again. -/
theorem Ruled.halted (h : c.Ruled) (hstays : c.stance ≠ .aborting) (habort : .abort ∈ c.calls) :
    c.pool.cancelled = true ∧ c.pool.accepting = false :=
  ⟨(h.aborted habort).1, (h.aborted habort).2 hstays⟩

/-- What a shutdown has come to once the caller is free again. -/
theorem Ruled.drained (h : c.Ruled) (hstays : c.stance ≠ .joining)
    (hshutdown : .shutdown ∈ c.calls) : c.pool.accepting = false ∧ c.joinable = false :=
  ⟨(h.shutDown hshutdown).1, (h.shutDown hshutdown).2 hstays⟩

/-- With no call under way it is enough to say what the calls have come to once they are done. -/
theorem Ruled.of_done (hdone : c.stance = .free ∨ c.stance = .parted)
    (hcancelled : c.pool.cancelled = true → .abort ∈ c.calls ∨
      .shutdown ∉ c.calls ∧ c.stance = .parted)
    (hhalted : .abort ∈ c.calls → c.pool.cancelled = true ∧ c.pool.accepting = false)
    (hdrained : .shutdown ∈ c.calls → c.pool.accepting = false ∧ c.joinable = false)
    (hjoined : c.joinable = false → .abort ∈ c.calls ∨ c.pool.isDeserted = true) : c.Ruled where
  cancelled hskips := (hcancelled hskips).imp id fun hout => ⟨hout.1, .inr hout.2⟩
  aborting haborting := by simp [haborting] at hdone
  joining hjoining := by simp [hjoining] at hdone
  dropping hdropping := by simp [hdropping] at hdone
  aborted habort := ⟨(hhalted habort).1, fun _ => (hhalted habort).2⟩
  shutDown hshutdown := ⟨(hdrained hshutdown).1, fun _ => (hdrained hshutdown).2⟩
  joined := hjoined

variable [TransOrd κ] [Mergeable β] [Transport σ] [Workload α] {shop : Workshop α κ β}

theorem Ruled.step (h : c.Ruled) (hstep : Step shop c c') : c'.Ruled := by
  cases hstep with
  | submit _ hsubmit =>
    obtain ⟨-, rfl⟩ := Pool.eq_of_submit hsubmit
    exact h.congr (by simp) (by simp) rfl rfl id rfl rfl
  | refuse => exact h.congr (by simp) (by simp) rfl rfl id rfl rfl
  | elsewhere => exact h.congr .rfl .rfl rfl rfl id rfl rfl
  | work hwork =>
    have hdid := Pool.did_of_step hwork
    obtain ⟨haccepting, hcancelled, -⟩ := hdid.kept
    refine h.congr .rfl .rfl hcancelled haccepting (fun hdeserted => ?_) rfl rfl
    rw [hdid.not_isDeserted] at hdeserted
    cases hdeserted
  | abort hfree =>
    have hdrained := h.drained (by simp [hfree])
    exact
      { cancelled := by simp
        aborting := by simp
        joining := nofun
        dropping := nofun
        aborted := by simp
        shutDown := fun hshutdown =>
          have hcalled := hdrained (by simpa using hshutdown)
          ⟨hcalled.1, fun _ => hcalled.2⟩
        joined := by simp }
  | aborted haborting =>
    have habort := h.aborting haborting
    exact .of_done (.inl rfl) (fun _ => .inl habort) (fun _ => ⟨rfl, rfl⟩) (fun _ => ⟨rfl, rfl⟩)
      fun _ => .inl habort
  | shutdown hfree =>
    exact
      { cancelled := fun hcancelled => by simp [h.abort_mem (.inl hfree) hcancelled]
        aborting := nofun
        joining := by simp
        dropping := nofun
        aborted := fun habort => ⟨(h.aborted (by simpa using habort)).1, fun _ => rfl⟩
        shutDown := by simp [Pool.close]
        joined := fun hnone => (h.joined hnone).imp (by simp) id }
  | joined hjoining hall =>
    refine .of_done (.inl rfl) ?_ (h.halted (by simp [hjoining])) ?_ fun _ => ?_
    · exact fun hcancelled => .inl (h.abort_mem (.inr hjoining) hcancelled)
    · exact fun hshutdown => ⟨(h.shutDown hshutdown).1, rfl⟩
    · cases hjoinable : c.joinable with
      | true => exact .inr (hall hjoinable)
      | false => exact h.joined hjoinable
  | drop hfree hjoinable =>
    -- a pool that was shut down has no workers to let go
    have hshutdown : .shutdown ∉ c.calls := by
      intro hshutdown
      rw [(h.drained (by simp [hfree]) hshutdown).2] at hjoinable
      cases hjoinable
    have hhalted := h.halted (by simp [hfree])
    exact
      { cancelled := by simp [hshutdown]
        aborting := nofun
        joining := nofun
        dropping := by simp
        aborted := fun habort => ⟨rfl, fun _ => (hhalted (by simpa using habort)).2⟩
        shutDown := by simp [hshutdown]
        joined := fun hnone => absurd (hjoinable.symm.trans hnone) nofun }
  | dropped hdropping =>
    refine .of_done (.inr rfl) (fun _ => ?_) (fun _ => ⟨rfl, rfl⟩) ?_ h.joined
    · exact (h.cancelled (h.dropping hdropping)).imp id fun hout => ⟨hout.1, rfl⟩
    · exact fun hshutdown => ⟨rfl, (h.drained (by simp [hdropping]) hshutdown).2⟩
  | part hfree hjoinable =>
    refine .of_done (.inr rfl) ?_ ?_ ?_ ?_
    · exact fun hcancelled => .inl (by simp [h.abort_mem (.inl hfree) hcancelled])
    · exact fun habort => h.halted (by simp [hfree]) (by simpa using habort)
    · exact fun hshutdown => ⟨(h.shutDown (by simpa using hshutdown)).1, hjoinable⟩
    · exact fun hnone => (h.joined hnone).imp (by simp) id

theorem Reaches.ruled (h : c.Reaches shop c') (hc : c.Ruled) : c'.Ruled := by
  induction h with
  | refl => exact hc
  | tail _ hstep ih => exact ih.step hstep

end Chronicle

namespace Pool

variable {p : Pool α κ β} {index : Nat}

section Deeds

variable {found left : Commons σ κ β}

theorem deeds_take {task : Task α} {rest : List (Task α)} (hw : p.workers[index]? = some .idle)
    (hqueue : p.queue = task :: rest) : p.deeds index found left = [.took task] := by
  rw [deeds, hw, hqueue]

theorem deeds_leave (hw : p.workers[index]? = some .idle) (hqueue : p.queue = []) :
    p.deeds index found left = [] := by
  rw [deeds, hw, hqueue]

theorem deeds_begin {task : Task α} (hw : p.workers[index]? = some (.holding task))
    (hcancelled : p.cancelled = false) : p.deeds index found left = [.began task] := by
  simp [deeds, hw, hcancelled]

theorem deeds_skip {task : Task α} (hw : p.workers[index]? = some (.holding task))
    (hcancelled : p.cancelled = true) : p.deeds index found left = [.skipped task] := by
  simp [deeds, hw, hcancelled]

theorem deeds_work {w : Worker α κ β} (hw : p.workers[index]? = some w) (hbusy : w.isBusy = true) :
    p.deeds index found left = [.passed ⟨found, left⟩] := by
  cases w <;> simp_all [deeds, Worker.isBusy]

end Deeds

/-- Only the worker that is set can come to hold a task or to let go of one. -/
theorem exists_held {w : Worker α κ β} (hw : p.workers[index]? = some w) :
    ∃ others : List (Task α),
      (p.workers.filterMap Worker.held?).Perm (w.held?.toList ++ others) ∧
      ∀ w', ((p.workers.set index w').filterMap Worker.held?).Perm (w'.held?.toList ++ others) := by
  obtain ⟨before, after, hworkers, hset⟩ := exists_split hw
  have hheld (w : Worker α κ β) : ((before ++ w :: after).filterMap Worker.held?).Perm
      (w.held?.toList ++ (before ++ after).filterMap Worker.held?) := by
    rw [List.filterMap_append, List.filterMap_append]
    cases hw : w.held? with
    | none => simp [hw]
    | some task => simp [hw]
  exact ⟨_, hworkers ▸ hheld w, fun w' => by rw [hset]; exact hheld w'⟩

end Pool

/-- A worker with a task that has begun has none that it has not begun, and does not go home. -/
theorem Worker.of_isBusy {w : Worker α κ β} (h : w.isBusy = true) : w.held? = none ∧ w ≠ .gone := by
  cases w <;> simp_all [isBusy, held?]

theorem Worker.held?_of_isLost {w : Worker α κ β} (h : w.isLost = true) :
    w.held? = none ∧ w ≠ .gone := by
  cases w <;> simp_all [isLost, held?]

/-- The next station of a worker with a task that has begun is none where a task is not begun. -/
theorem Worker.held?_step [TransOrd κ] [Mergeable β] [Transport σ] [Workload α]
    (shop : Workshop α κ β) {w : Worker α κ β} (commons : Commons σ κ β) (h : w.isBusy = true) :
    (w.step shop commons).1.held? = none ∧ (w.step shop commons).1 ≠ .gone := by
  rcases step_isBusy shop commons h with hbusy | hidle | hlost
  · exact of_isBusy hbusy
  · rw [hidle]
    exact ⟨rfl, nofun⟩
  · exact held?_of_isLost hlost

namespace Pool

/-- What a worker of a pool does with tasks when it goes from one station to another. -/
structure Handles (p p' : Pool α κ β) (w w' : Worker α κ β) (deeds : List (Deed σ α κ β)) :
    Prop where
  /-- Tasks are taken from the front of the queue, or are lost with the last worker. -/
  queue : deeds.filterMap Deed.taken? ++ p'.queue = p.queue ∨
    deeds.filterMap Deed.taken? = [] ∧ p'.queue = [] ∧ w'.isLost = true
  /-- What was in hand or is taken stays in hand, or is begun or skipped. -/
  held : w.held?.toList ++ deeds.filterMap Deed.taken? =
    w'.held?.toList ++ (deeds.filterMap Deed.begun? ++ deeds.filterMap Deed.skipped?)
  skipped : p.cancelled = false → deeds.filterMap Deed.skipped? = []
  begun : p.cancelled = true → deeds.filterMap Deed.begun? = []
  gone : w' = .gone → p.accepting = false ∧ p'.queue = []

variable [TransOrd κ] [Mergeable β] [Transport σ] [Workload α] {shop : Workshop α κ β}
  {p p' : Pool α κ β} {index : Nat} {commons commons' : Commons σ κ β}

/-- Whatever a worker does, only its own place in the pool changes. -/
theorem Did.exists_handles (h : Did shop index p commons p' commons') :
    ∃ w w', p.workers[index]? = some w ∧ p'.workers = p.workers.set index w' ∧
      Handles p p' w w' (p.deeds index commons commons') := by
  have hsilent (w : Worker α κ β) (queue : List (Task α)) (hbusy : w.isBusy = true)
      (hqueue : queue = p.queue ∨ queue = [] ∧ (w.step shop commons).1.isLost = true) :
      Handles p { p with queue, workers := p.workers.set index (w.step shop commons).1 } w
        (w.step shop commons).1 [Deed.passed ⟨commons, (w.step shop commons).2⟩] := by
    obtain ⟨hheld, hstays⟩ := Worker.held?_step shop commons hbusy
    refine ⟨?_, ?_, fun _ => rfl, fun _ => rfl, fun hgone => absurd hgone hstays⟩
    · exact hqueue.imp id fun hlost => ⟨rfl, hlost⟩
    · rw [(Worker.of_isBusy hbusy).1, hheld]
      rfl
  cases h with
  | take task rest hw hqueue =>
    rw [deeds_take hw hqueue]
    exact ⟨_, _, hw, rfl, .inl hqueue.symm, rfl, fun _ => rfl, fun _ => rfl, nofun⟩
  | leave hw hqueue hclosed =>
    rw [deeds_leave hw hqueue]
    exact ⟨_, _, hw, rfl, .inl rfl, rfl, fun _ => rfl, fun _ => rfl, fun _ => ⟨hclosed, hqueue⟩⟩
  | begin task hw hcancelled =>
    rw [deeds_begin hw hcancelled]
    exact ⟨_, _, hw, rfl, .inl rfl, rfl, fun _ => rfl,
      fun h => absurd (hcancelled.symm.trans h) nofun, nofun⟩
  | skip task hw hcancelled =>
    rw [deeds_skip hw hcancelled]
    exact ⟨_, _, hw, rfl, .inl rfl, rfl, fun h => absurd (hcancelled.symm.trans h) nofun,
      fun _ => rfl, nofun⟩
  | work w hw hbusy _ =>
    rw [deeds_work hw hbusy]
    exact ⟨_, _, hw, rfl, hsilent w p.queue hbusy (.inl rfl)⟩
  | lose w queue hw hbusy hlost hqueue =>
    rw [deeds_work hw hbusy]
    exact ⟨_, _, hw, rfl, hsilent w queue hbusy (hqueue.imp id fun h => ⟨h, hlost⟩)⟩

/-- Once tasks are skipped, no worker begins one. -/
theorem Did.begun_eq_nil (h : Did shop index p commons p' commons') (hcancelled : p.cancelled) :
    (p.deeds index commons commons').filterMap Deed.begun? = [] := by
  obtain ⟨w, w', -, -, hhandles⟩ := h.exists_handles
  exact hhandles.begun hcancelled

end Pool

namespace Chronicle

/-- Every task that was accepted is somewhere: in the queue, in the hands of one worker, begun or
skipped. Only with the last worker tasks are lost. -/
structure Stocked (c : Chronicle σ α κ β) : Prop where
  /-- Tasks are taken in the order in which they were accepted. -/
  taken_append : (c.taken ++ c.pool.queue).Sublist c.accepted
  eq_accepted : c.hasLost = false → c.taken ++ c.pool.queue = c.accepted
  taken_perm : c.taken.Perm (c.pool.workers.filterMap Worker.held? ++ (c.begun ++ c.skipped))
  skipped_eq : c.pool.cancelled = false → c.skipped = []
  /-- Nobody goes home as long as there may be something to do. -/
  gone : .gone ∈ c.pool.workers → c.pool.accepting = false ∧ c.pool.queue = []
  staffed : c.pool.workers ≠ []

theorem stocked_start (commons : Commons σ κ β) {n : Nat} {pool : Pool α κ β}
    (hnew : Pool.new n = .ok pool) : (start pool commons).Stocked := by
  obtain rfl := Pool.eq_of_new hnew
  have hpos : n ≠ 0 := by
    rintro rfl
    cases hnew
  refine ⟨.refl [], fun _ => rfl, ?_, fun _ => rfl, ?_, ?_⟩
  · simp [start, taken, begun, skipped, Worker.held?]
  · simp [start]
  · simpa [start] using hpos

/-- Executed tasks were accepted, each as often as it was executed. -/
theorem Stocked.begun_subperm {c : Chronicle σ α κ β} (h : c.Stocked) :
    c.begun.Subperm c.accepted := by
  have hbegun : c.begun.Subperm
      (c.pool.workers.filterMap Worker.held? ++ (c.begun ++ c.skipped)) :=
    ((List.sublist_append_left _ _).trans (List.sublist_append_right _ _)).subperm
  have htaken : c.taken.Sublist c.accepted := (List.sublist_append_left _ _).trans h.taken_append
  exact (hbegun.trans h.taken_perm.symm.subperm).trans htaken.subperm

/-- Two entries of a list that give the same item are the same, if no item is given twice. -/
theorem eq_of_nodup_filterMap {γ δ : Type} {f : γ → Option δ} {l : List γ}
    (h : (l.filterMap f).Nodup) {a b : γ} {x : δ} (ha : a ∈ l) (hb : b ∈ l) (hfa : f a = some x)
    (hfb : f b = some x) : a = b := by
  induction l with
  | nil => cases ha
  | cons c rest ih =>
    have hrest {e : γ} (he : e ∈ rest) (hfe : f e = some x) : x ∈ rest.filterMap f :=
      List.mem_filterMap.2 ⟨e, he, hfe⟩
    rcases List.mem_cons.1 ha with rfl | ha' <;> rcases List.mem_cons.1 hb with rfl | hb'
    · rfl
    · rw [List.filterMap_cons_some hfa, List.nodup_cons] at h
      exact absurd (hrest hb' hfb) h.1
    · rw [List.filterMap_cons_some hfb, List.nodup_cons] at h
      exact absurd (hrest ha' hfa) h.1
    · exact ih (h.sublist ((List.sublist_cons_self c rest).filterMap f)) ha' hb'

/-- Of distinct tasks none is executed twice, and none by two workers. -/
theorem Stocked.nodup_begun {c : Chronicle σ α κ β} (h : c.Stocked)
    (hdistinct : c.accepted.Nodup) : c.begun.Nodup ∧ ∀ (task : Task α) (index index' : Nat),
    .began task ∈ c.deeds index → .began task ∈ c.deeds index' → index = index' := by
  obtain ⟨l, hperm, hsub⟩ := h.begun_subperm
  have hnodup : c.begun.Nodup := hperm.nodup_iff.1 (hdistinct.sublist hsub)
  refine ⟨hnodup, ?_⟩
  intro task index index' hbegan hbegan'
  have hentry := eq_of_nodup_filterMap hnodup (mem_deeds_iff.1 hbegan) (mem_deeds_iff.1 hbegan')
    rfl rfl
  exact (Prod.mk.inj hentry).1

/-- If nobody is there and nobody was lost, all have gone home. -/
theorem eq_gone_of_isDeserted {c : Chronicle σ α κ β} (hdeserted : c.pool.isDeserted = true)
    (hlost : c.hasLost = false) {w : Worker α κ β} (hw : w ∈ c.pool.workers) : w = .gone := by
  have haway := List.all_eq_true.1 ((Pool.isDeserted_eq _).symm.trans hdeserted) w hw
  have hstays := List.any_eq_false.1 hlost w hw
  cases w with
  | gone => rfl
  | lost fault => exact absurd rfl hstays
  | _ => cases haway

/-- If all have gone home and nobody was lost or told to skip tasks, all tasks were executed. -/
theorem Stocked.begun_perm {c : Chronicle σ α κ β} (h : c.Stocked)
    (hdeserted : c.pool.isDeserted = true) (hlost : c.hasLost = false)
    (hcancelled : c.pool.cancelled = false) : c.begun.Perm c.accepted := by
  have hall {w : Worker α κ β} : w ∈ c.pool.workers → w = .gone :=
    eq_gone_of_isDeserted hdeserted hlost
  have hheld : c.pool.workers.filterMap Worker.held? = [] := by
    rw [List.filterMap_eq_nil_iff]
    intro w hw
    rw [hall hw]
    rfl
  obtain ⟨w, hw⟩ := List.exists_mem_of_ne_nil _ h.staffed
  have hqueue : c.pool.queue = [] := (h.gone (hall hw ▸ hw)).2
  have haccepted := h.eq_accepted hlost
  have htaken := h.taken_perm
  rw [hqueue, List.append_nil] at haccepted
  rw [hheld, h.skipped_eq hcancelled, List.append_nil, List.nil_append, haccepted] at htaken
  exact htaken.symm

variable [TransOrd κ] [Mergeable β] [Transport σ] [Workload α] {shop : Workshop α κ β}
  {c c' : Chronicle σ α κ β}

/-- A worker that was lost does not come back. -/
theorem hasLost_of_step {index : Nat} {p p' : Pool α κ β} {commons commons' : Commons σ κ β}
    (hstep : p.step shop index commons = some (p', commons'))
    (hlost : (Executor.pool p).hasLost = true) : (Executor.pool p').hasLost = true := by
  have hpool : (Executor.pool p).step shop index commons = some (.pool p', commons') := by
    simp [Executor.step, hstep]
  exact Executor.hasLost_of_step hpool hlost

/-- A worker goes from one station to another. -/
theorem Stocked.work (h : c.Stocked) {index : Nat} {pool : Pool α κ β} {commons : Commons σ κ β}
    (hstep : c.pool.step shop index c.commons = some (pool, commons)) :
    (c.worked index pool commons (c.pool.deeds index c.commons commons)).Stocked := by
  have hdid := Pool.did_of_step hstep
  obtain ⟨haccepting, hcancelled, hlength⟩ := hdid.kept
  obtain ⟨w, w', hw, hworkers, hhandles⟩ := hdid.exists_handles
  obtain ⟨others, hheld, hset⟩ := Pool.exists_held hw
  have hlast (hlost : pool.queue = [] ∧ w'.isLost = true) :
      (Executor.pool pool).hasLost = true := by
    have hmem : w' ∈ pool.workers :=
      hworkers ▸ List.mem_set (List.getElem?_eq_some_iff.1 hw).1 w'
    exact List.any_eq_true.2 ⟨w', hmem, hlost.2⟩
  constructor
  case taken_append =>
    rw [taken_worked, pool_worked, List.append_assoc]
    rcases hhandles.queue with heq | ⟨htaken, hnil, -⟩
    · rw [heq]
      exact h.taken_append
    · rw [htaken, hnil, List.append_nil, List.append_nil]
      exact (List.sublist_append_left _ _).trans h.taken_append
  case eq_accepted =>
    intro hlost
    rw [taken_worked, pool_worked, List.append_assoc]
    rcases hhandles.queue with heq | ⟨-, hnil⟩
    · rw [heq]
      apply h.eq_accepted
      exact Bool.eq_false_iff.2 fun hbefore =>
        absurd (hasLost_of_step hstep hbefore) (Bool.eq_false_iff.1 hlost)
    · exact absurd (hlast hnil) (Bool.eq_false_iff.1 hlost)
  case taken_perm =>
    classical
    rw [taken_worked, pool_worked, begun_worked, skipped_worked, hworkers, List.perm_iff_count]
    intro task
    -- it is enough to count each task, before and after
    have hbefore := h.taken_perm.count_eq task
    have hheld := hheld.count_eq task
    have hset := (hset w').count_eq task
    have hmoved := congrArg (List.count task) hhandles.held
    simp only [List.count_append] at hbefore hheld hset hmoved ⊢
    omega
  case skipped_eq =>
    intro hgoes
    rw [pool_worked, hcancelled] at hgoes
    rw [skipped_worked, h.skipped_eq hgoes, hhandles.skipped hgoes]
    rfl
  case gone =>
    intro hgone
    rw [pool_worked, hworkers] at hgone
    rw [pool_worked, haccepting]
    rcases List.mem_or_eq_of_mem_set hgone with hgone | hgone
    · obtain ⟨hclosed, hnil⟩ := h.gone hgone
      refine ⟨hclosed, ?_⟩
      rcases hhandles.queue with heq | ⟨-, hnil', -⟩
      · rw [hnil, List.append_eq_nil_iff] at heq
        exact heq.2
      · exact hnil'
    · exact hhandles.gone hgone.symm
  case staffed =>
    rw [pool_worked, ← List.length_pos_iff, hlength, List.length_pos_iff]
    exact h.staffed

theorem Stocked.step (h : c.Stocked) (hstep : Step shop c c') : c'.Stocked := by
  cases hstep with
  | submit hfree hsubmit =>
    obtain ⟨haccepting, rfl⟩ := Pool.eq_of_submit hsubmit
    refine ⟨?_, ?_, h.taken_perm, h.skipped_eq, ?_, h.staffed⟩
    · simpa [taken] using h.taken_append.append_right [_]
    · intro hlost
      rw [← h.eq_accepted hlost, List.append_assoc]
      rfl
    · intro hgone
      have hclosed := (h.gone hgone).1
      rw [haccepting] at hclosed
      cases hclosed
  | work hwork => exact h.work hwork
  | abort | drop => exact { h with skipped_eq := nofun }
  | aborted | dropped =>
    exact { h with skipped_eq := nofun, gone := fun hgone => ⟨rfl, (h.gone hgone).2⟩ }
  | shutdown => exact { h with gone := fun hgone => ⟨rfl, (h.gone hgone).2⟩ }
  | refuse | joined | part | elsewhere => exact { h with }

theorem Reaches.stocked (h : c.Reaches shop c') (hc : c.Stocked) : c'.Stocked := by
  induction h with
  | refl => exact hc
  | tail _ hstep ih => exact ih.step hstep

/-- Once tasks are skipped they are skipped for ever, and none is begun. -/
theorem Reaches.begun_eq (h : c.Reaches shop c') (hcancelled : c.pool.cancelled = true) :
    c'.begun = c.begun := by
  suffices c'.pool.cancelled = true ∧ c'.begun = c.begun from this.2
  induction h with
  | refl => exact ⟨hcancelled, rfl⟩
  | tail _ hstep ih =>
    obtain ⟨hskips, hbegun⟩ := ih
    cases hstep with
    | submit _ hsubmit =>
      obtain ⟨-, rfl⟩ := Pool.eq_of_submit hsubmit
      exact ⟨hskips, hbegun⟩
    | work hwork =>
      have hdid := Pool.did_of_step hwork
      rw [begun_worked, hdid.begun_eq_nil hskips, List.append_nil]
      exact ⟨hdid.kept.2.1.trans hskips, hbegun⟩
    | abort | aborted | drop | dropped => exact ⟨rfl, hbegun⟩
    | refuse | shutdown | joined | part | elsewhere => exact ⟨hskips, hbegun⟩

/-- A pool that is closed accepts no task any more. -/
theorem Reaches.accepted_eq (h : c.Reaches shop c') (hclosed : c.pool.accepting = false) :
    c'.pool.accepting = false ∧ c'.accepted = c.accepted := by
  induction h with
  | refl => exact ⟨hclosed, rfl⟩
  | tail _ hstep ih =>
    obtain ⟨hcloses, haccepted⟩ := ih
    cases hstep with
    | submit _ hsubmit =>
      rw [(Pool.eq_of_submit hsubmit).1] at hcloses
      cases hcloses
    | work hwork => exact ⟨(Pool.did_of_step hwork).kept.1.trans hcloses, haccepted⟩
    | aborted | dropped | shutdown => exact ⟨rfl, haccepted⟩
    | refuse | abort | drop | joined | part | elsewhere => exact ⟨hcloses, haccepted⟩

end Chronicle

end BatchRun
