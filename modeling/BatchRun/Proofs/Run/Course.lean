import BatchRun.Proofs.Run.Live
import BatchRun.Run.Dispatcher

/-!
# The course of a session

From the moment a dispatcher starts a run, a session stands in one of a few ways: its run is
live, or it could not begin, or a fault or an error ended it, and then it was live right before.
What moves keep of a live run, beyond what is kept in general, can be carried along.

## Main definitions

* `Dispatcher.plan`: the plan of the run that a dispatcher starts
* `Session.Stands`, `Session.Ends`: how a session stands, and how it has ended

## Main results

* `Dispatcher.live_of_start`: a run that was started is live, or has crashed
* `Session.Reaches.stands`: every session stands in one of these ways
* `Session.Stands.ends`: and it ends accordingly
-/

namespace BatchRun

open Std

variable {σ α κ β : Type} [Ord κ]

/-- The plan of the run that a dispatcher starts. -/
def Dispatcher.plan (d : Dispatcher α κ β) (pending : Pending α) (total : Nat) : Plan α κ β where
  work := d.work
  channel := .ofRun d.runId d.settings.signaling
  monitor := d.monitor
  args := d.queued ++ pending.args
  limit := d.settings.limit
  total := total
  shares := d.settings.accumulation = .inWorker

namespace Pool

/-- A new pool is a crew of idle workers. -/
theorem eq_of_new {limit : Nat} {p : Pool α κ β} (h : new limit = .ok p) :
    p = ⟨[], limit, true, false, List.replicate limit .idle⟩ := by
  simp only [new] at h
  split at h
  · cases h
  · split at h
    · cases h
    · split at h
      · cases h
      · exact (Except.ok.inj h).symm

end Pool

namespace Executor

/-- A new executor has nothing to do, and accepts tasks. -/
theorem of_ofMode {mode : ExecutionMode} {limit : Nat} {e : Executor α κ β}
    (h : ofMode mode limit = .ok e) :
    e.waiting = [] ∧ (∀ w ∈ e.workers, w = .idle) ∧ e.accepts = true ∧ e.isCancelled = false ∧
      e.Staffed limit := by
  have hsequential : ∀ e : Executor α κ β, e = .sequential [] false →
      e.waiting = [] ∧ (∀ w ∈ e.workers, w = .idle) ∧ e.accepts = true ∧ e.isCancelled = false ∧
        e.Staffed limit := by
    rintro _ rfl
    exact ⟨rfl, fun w hw => List.mem_singleton.1 hw, rfl, rfl, trivial⟩
  cases mode with
  | auto => exact hsequential e (Except.ok.inj h).symm
  | sequential => exact hsequential e (Except.ok.inj h).symm
  | threads =>
    simp only [ofMode] at h
    cases hnew : (Pool.new limit : Except Failure (Pool α κ β)) with
    | error why => rw [hnew] at h; cases h
    | ok p =>
      rw [hnew] at h
      obtain rfl := Except.ok.inj h
      obtain rfl := Pool.eq_of_new hnew
      refine ⟨rfl, fun w hw => List.eq_of_mem_replicate hw, rfl, rfl, rfl, ?_, ?_⟩
      · exact List.length_replicate
      · intro _ hgone
        cases List.eq_of_mem_replicate hgone

/-- No worker of a new executor is lost. -/
theorem hasLost_of_ofMode {mode : ExecutionMode} {limit : Nat} {e : Executor α κ β}
    (h : ofMode mode limit = .ok e) : e.hasLost = false := by
  simp only [hasLost, List.any_eq_false]
  intro w hw
  rw [(of_ofMode h).2.1 w hw]
  simp [Worker.isLost]

end Executor

/-- The first question makes the control node submit tasks. -/
theorem Run.ask_of_resting {r : Run σ α κ β} (hphase : r.phase = .resting)
    (hstate : r.state = .filling) : r.ask = { r with phase := .filling none } := by
  simp only [ask, hphase, hstate]

section Start

variable [TransOrd κ] [Mergeable β] [Transport σ] [Workload α] {d : Dispatcher α κ β}
  {transport : σ} {pending : Pending α} {total : Nat} {run : Run σ α κ β}

/-- A run at its start, with its executor and the transport on which its channel was opened. -/
def Dispatcher.fresh (d : Dispatcher α κ β) (pending : Pending α) (total : Nat)
    (mode : ExecutionMode) (executor : Executor α κ β) (opened : σ) : Run σ α κ β where
  mode := mode
  limit := d.settings.limit
  shop := (d.plan pending total).shop
  monitor := d.monitor
  state := .filling
  phase := if mostPermits < d.settings.limit then .crashed (.permits mostPermits) else .resting
  pending := d.queued ++ pending.args
  semaphore := ⟨d.settings.limit⟩
  inFlight := .empty
  channel := .ofRun d.runId d.settings.signaling
  buffered := .empty
  progress := .start total
  showsShared := true
  nextTaskNo := 0
  peak := 0
  executor := executor
  commons := .start opened (d.settings.accumulation = .inWorker) d.timings
  journal := d.journal ++ [.runStarted d.runId]

omit [TransOrd κ] [Mergeable β] [Workload α] in
/-- A run that was started is fresh. -/
theorem Dispatcher.exists_of_start (h : d.start transport pending total = .ok run) :
    ∃ mode executor opened, Executor.ofMode mode d.settings.limit = .ok executor ∧
      Transport.declare (.transient (d.plan pending total).channel.queue
        (d.plan pending total).channel.routingKey) transport = .ok opened ∧
      run = d.fresh pending total mode executor opened := by
  simp only [start] at h
  split at h
  · cases h
  · split at h
    · cases h
    · next channel opened hopen =>
      split at h
      · cases h
      · next executor hexecutor =>
        simp only [Channel.openOn] at hopen
        split at hopen
        · next declared hdeclare =>
          obtain ⟨rfl, rfl⟩ := Prod.mk.inj (Except.ok.inj hopen)
          exact ⟨_, executor, declared, hexecutor, hdeclare, (Except.ok.inj h).symm⟩
        · cases hopen

/-- A run that was started is live once its caller asks, or it has crashed. -/
theorem Dispatcher.live_of_start (h : d.start transport pending total = .ok run) :
    (run.phase = .crashed (.permits mostPermits) ∧ mostPermits < (d.plan pending total).limit) ∨
      run.ask.Live (d.plan pending total) [] [] := by
  obtain ⟨mode, executor, opened, hexecutor, -, rfl⟩ := exists_of_start h
  obtain ⟨hwaiting, hidle, haccepts, hcancelled, hstaffed⟩ := Executor.of_ofMode hexecutor
  by_cases hpermits : mostPermits < d.settings.limit
  · exact .inl ⟨if_pos hpermits, hpermits⟩
  · rw [Run.ask_of_resting (if_neg hpermits) rfl]
    -- nothing is in flight and nothing sent, so that there is little to show
    refine .inr ⟨⟨rfl, rfl, rfl, ⟨0, rfl⟩, rfl, rfl, hcancelled, hstaffed, ?_, ?_, rfl,
      Nat.zero_le _, ?_, rfl, rfl, ?_, rfl⟩, ?_, haccepts⟩
    · exact .start _ hwaiting hidle opened d.timings rfl
    · simp [Filed, fresh]
    · simp [Run.current, fresh]
    · simp [Run.current]
    · rfl

/-- A run that is played to its end gives a session that is over, with all that can be checked of
how it was played. -/
theorem Dispatcher.exists_session (d : Dispatcher α κ β) (transport : σ) (pending : Pending α)
    (total patience questions : Nat) (check : Ending κ β × Run σ α κ β → Bool)
    (hcheck : (match d.start transport pending total with
      | .ok run => check (run.toEnd patience questions .empty)
      | .error _ => false) = true)
    (hstalled : ∀ run, check (.stalled, run) = false) :
    ∃ run s ending, d.start transport pending total = .ok run ∧ Session.Reaches run s ∧
      s.ending? = some ending ∧ check (ending, s.run) = true := by
  split at hcheck
  · next run hstart =>
    -- a run that stalls would not have passed the check
    have hending : (run.toEnd patience questions .empty).1 ≠ .stalled := by
      intro heq
      have hsame : run.toEnd patience questions .empty =
          (.stalled, (run.toEnd patience questions .empty).2) := Prod.ext heq rfl
      rw [hsame, hstalled] at hcheck
      cases hcheck
    obtain ⟨s, hreaches, hrun, hover⟩ := Session.exists_of_toEnd rfl hending
    refine ⟨run, s, _, hstart, hreaches, hover, ?_⟩
    rw [hrun]
    exact hcheck
  · cases hcheck

end Start

section Stands

variable [TransOrd κ] [Mergeable β] [Transport σ] [Workload α]

/-- How a session stands, with something more that was kept while the run was live. -/
inductive Session.Stands (plan : Plan α κ β) (Extra : Run σ α κ β → Prop)
    (s : Session σ α κ β) : Prop
  /-- The run is live, and the caller has merged what it was told. -/
  | live (hlive : s.run.Live plan s.acknowledged s.begun) (hextra : Extra s.run)
      (hresult : (s.acknowledged.map (·.part)).foldlM Tally.absorb .empty = .ok s.result)
  /-- More tasks may be in flight than can be counted. -/
  | overloaded (hphase : s.run.phase = .crashed (.permits mostPermits))
      (hlimit : mostPermits < plan.limit)
  /-- A merge has faulted on the control node, and the run was live right before. -/
  | crashed (fault : Fault) (r : Run σ α κ β) (told : List (Completion κ β))
      (begun : List (Task α)) (hphase : s.run.phase = .crashed fault)
      (hlive : r.Live plan told begun) (hextra : Extra r) (hfaults : r.Faults fault)
  /-- The run has failed, and was live right before. -/
  | failed (error : RunError) (r : Run σ α κ β) (told : List (Completion κ β))
      (begun : List (Task α)) (hphase : s.run.phase = .replied (.error error))
      (hlive : r.Live plan told begun) (hextra : Extra r) (hrefuses : r.Refuses error)
      (hlost : r.executor.hasLost = true → s.run.executor.hasLost = true)

/-- A worker does not change what the control node is doing. -/
theorem Run.phase_of_worker? {r r' : Run σ α κ β} {index : Nat}
    (h : r.worker? index = some r') :
    r'.phase = r.phase ∧ (r.executor.hasLost = true → r'.executor.hasLost = true) := by
  simp only [worker?, Option.map_eq_some_iff, Prod.exists] at h
  obtain ⟨executor, commons, hstep, rfl⟩ := h
  exact ⟨rfl, Executor.hasLost_of_step hstep⟩

/-- Once the control node has come to an end, only workers move. -/
theorem Run.phase_of_move {r r' : Run σ α κ β} {m : Move} (h : r.move? m = some r')
    (hover : (∃ error, r.phase = .replied (.error error)) ∨ ∃ fault, r.phase = .crashed fault) :
    r'.phase = r.phase ∧ (r.executor.hasLost = true → r'.executor.hasLost = true) := by
  cases m with
  | worker index => exact phase_of_worker? h
  | control => rcases hover with ⟨_, hphase⟩ | ⟨_, hphase⟩ <;> simp [move?, control?, hphase] at h
  | expire => rcases hover with ⟨_, hphase⟩ | ⟨_, hphase⟩ <;> simp [move?, expire?, hphase] at h

/-- Every session of a run stands in one of these ways. -/
theorem Session.Reaches.stands (Extra : Run σ α κ β → Prop) {plan : Plan α κ β}
    {run : Run σ α κ β} {s : Session σ α κ β} (h : Session.Reaches run s)
    (hstart : (run.phase = .crashed (.permits mostPermits) ∧ mostPermits < plan.limit) ∨
      run.ask.Live plan [] [] ∧ Extra run.ask)
    (hturn : ∀ r r' told begun, r.Live plan told begun → Extra r → r.Turn r' → Extra r')
    (hask : ∀ r told begun completion, r.Live plan told begun → Extra r →
      r.phase = .replied (.ok (some completion)) → Extra r.ask) :
    s.Stands plan Extra := by
  refine h.invariant ?_ fun s t hstep hs => ?_
  · rcases hstart with ⟨hphase, hlimit⟩ | ⟨hlive, hextra⟩
    · refine .overloaded ?_ hlimit
      simp only [Session.start, Run.ask, hphase]
    · exact .live hlive hextra rfl
  · cases hstep with
    | @move m run hrun =>
      cases hs with
      | live hlive hextra hresult =>
        rcases hlive.move hrun with
          ⟨hnext, hturn'⟩ | ⟨fault, hphase, hfaults⟩ | ⟨error, hfailed, hrefuses⟩
        · exact .live hnext (hturn _ _ _ _ hlive hextra hturn') hresult
        · exact .crashed fault s.run _ _ hphase hlive hextra hfaults
        · apply Stands.failed error s.run _ _ hfailed.phase hlive hextra hrefuses
          intro hlost
          rw [hfailed.executor, Executor.hasLost_abort]
          exact hlost
      | overloaded hphase hlimit =>
        have hsame := Run.phase_of_move hrun (.inr ⟨_, hphase⟩)
        exact .overloaded (hsame.1.trans hphase) hlimit
      | crashed fault r told begun hphase hlive hextra hfaults =>
        have hsame := Run.phase_of_move hrun (.inr ⟨fault, hphase⟩)
        exact .crashed fault r told begun (hsame.1.trans hphase) hlive hextra hfaults
      | failed error r told begun hphase hlive hextra hrefuses hlost =>
        have hsame := Run.phase_of_move hrun (.inl ⟨error, hphase⟩)
        exact .failed error r told begun (hsame.1.trans hphase) hlive hextra hrefuses fun hr =>
          hsame.2 (hlost hr)
    | @absorb completion result hphase hresult' =>
      cases hs with
      | live hlive hextra hresult =>
        apply Stands.live (hlive.ask hphase) (hask _ _ _ _ hlive hextra hphase)
        have hlast : [completion.part].foldlM Tally.absorb s.result = .ok result := by
          simpa using hresult'
        rw [List.map_append, List.foldlM_append, hresult]
        exact hlast
      | overloaded hcrashed => rw [hcrashed] at hphase; cases hphase
      | crashed fault _ _ _ hcrashed => rw [hcrashed] at hphase; cases hphase
      | failed error r told begun herror => rw [herror] at hphase; cases hphase

/-- How a session has ended, with something more that was kept while its run was live. -/
inductive Session.Ends (plan : Plan α κ β) (Extra : Run σ α κ β → Prop) (s : Session σ α κ β) :
    Ending κ β → Prop
  /-- The caller was told everything, and the result is concluded. -/
  | concluded (ending : Ending κ β) (hlive : s.run.Live plan s.acknowledged s.begun)
      (hextra : Extra s.run)
      (hresult : (s.acknowledged.map (·.part)).foldlM Tally.absorb .empty = .ok s.result)
      (hphase : s.run.phase = .replied (.ok none))
      (hconclude : s.run.conclude s.result = ending) : Ends plan Extra s ending
  /-- A merge of the caller has faulted. -/
  | unmerged (completion : Completion κ β) (fault : Fault)
      (hlive : s.run.Live plan s.acknowledged s.begun)
      (hresult : (s.acknowledged.map (·.part)).foldlM Tally.absorb .empty = .ok s.result)
      (hphase : s.run.phase = .replied (.ok (some completion)))
      (hfault : s.result.absorb completion.part = .error fault) : Ends plan Extra s (.crashed fault)
  | overloaded (hlimit : mostPermits < plan.limit) :
      Ends plan Extra s (.crashed (.permits mostPermits))
  /-- A merge has faulted on the control node. -/
  | crashed (fault : Fault) (r : Run σ α κ β) (told : List (Completion κ β))
      (begun : List (Task α)) (hlive : r.Live plan told begun) (hextra : Extra r)
      (hfaults : r.Faults fault) : Ends plan Extra s (.crashed fault)
  | failed (error : RunError) (r : Run σ α κ β) (told : List (Completion κ β))
      (begun : List (Task α)) (hlive : r.Live plan told begun) (hextra : Extra r)
      (hrefuses : r.Refuses error)
      (hlost : r.executor.hasLost = true → s.run.executor.hasLost = true) :
      Ends plan Extra s (.failed error)

/-- A session that is over has ended in one of these ways. -/
theorem Session.Stands.ends {plan : Plan α κ β} {Extra : Run σ α κ β → Prop}
    {s : Session σ α κ β} {ending : Ending κ β} (h : s.Stands plan Extra)
    (hending : s.ending? = some ending) : s.Ends plan Extra ending := by
  rw [ending?] at hending
  cases h with
  | overloaded hphase hlimit =>
    rw [hphase] at hending
    obtain rfl := Option.some.inj hending
    exact .overloaded hlimit
  | crashed fault r told begun hphase hlive hextra hfaults =>
    rw [hphase] at hending
    obtain rfl := Option.some.inj hending
    exact .crashed fault r told begun hlive hextra hfaults
  | failed error r told begun hphase hlive hextra hrefuses hlost =>
    rw [hphase] at hending
    obtain rfl := Option.some.inj hending
    exact .failed error r told begun hlive hextra hrefuses hlost
  -- a live run has neither failed nor crashed
  | live hlive hextra hresult =>
    have hstaged := hlive.staged
    rw [Run.Staged] at hstaged
    split at hending
    · next completion hphase =>
      split at hending
      · cases hending
      · next fault hfault =>
        obtain rfl := Option.some.inj hending
        exact .unmerged completion fault hlive hresult hphase hfault
    · next hphase =>
      exact .concluded ending hlive hextra hresult hphase (Option.some.inj hending)
    · next error hphase =>
      rw [hphase] at hstaged
      exact hstaged.elim
    · next fault hphase =>
      rw [hphase] at hstaged
      exact hstaged.elim
    · cases hending

end Stands

end BatchRun
