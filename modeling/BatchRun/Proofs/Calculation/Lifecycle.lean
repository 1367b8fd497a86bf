import BatchRun.Proofs.Calculation.Steps
import BatchRun.Proofs.Tally.Placewise
import BatchRun.Rehearsal.ScriptedCalculation

/-!
# The lifecycle of a calculation

What a calculation does from its first stage on is followed part by part: a part that stands before
a step goes on with that step, and then with those that it leads to. Whatever came of the steps,
the calculation cleans up once, and a failure to clean up is told where nothing failed before.

A fault on the way leaves nothing to be said: the calculation does not return.

## Main definitions

* `CalculationRunner.GoesOn`: how part of a calculation goes on
* `CalculationRunner.Lifecycle`: what is to be known of a calculation that has returned

## Main results

* `CalculationRunner.GoesOn.stages`: all stages but the last, from the first on
* `CalculationRunner.runBy_lifecycle`: a calculation that returns has a lifecycle
-/

namespace BatchRun

open Std

open Calculation (Step)

namespace CalculationRunner

variable {γ ι κ κ' β : Type} [Ord κ'] [BEq κ] [Described κ] [TransOrd κ'] [Mergeable β]

section Course

variable {σ α : Type}

theorem eq_of_mapError_eq {x y : Except RunError α}
    (h : x.mapError Stop.failed = y.mapError Stop.failed) : x = y := by
  cases x <;> cases y <;> simp_all [Except.mapError]

/-- Part of a calculation and what follows it. -/
theorem run_bind {δ : Type} (x : Course σ γ δ) (f : δ → Course σ γ α) (t : Trail σ γ) :
    (x >>= f).run.run t = match x.run.run t with
      | (.ok value, t') => (f value).run.run t'
      | (.error stop, t') => (.error stop, t') := by
  change (x.run >>= ExceptT.bindCont f).run t = _
  rw [StateT.run_bind]
  generalize x.run.run t = out
  obtain ⟨result, t'⟩ := out
  cases result <;> rfl

theorem run_get (t : Trail σ γ) : (get : Course σ γ (Trail σ γ)).run.run t = (.ok t, t) := rfl

theorem run_modify (change : Trail σ γ → Trail σ γ) (t : Trail σ γ) :
    (modify change : Course σ γ PUnit).run.run t = (.ok ⟨⟩, change t) := rfl

theorem run_modifyGet (change : Trail σ γ → α × Trail σ γ) (t : Trail σ γ) :
    (modifyGet change : Course σ γ α).run.run t = (.ok (change t).1, (change t).2) := rfl

/-- A value that is handed on, or the error of the stage that gives none. -/
def ofStage (stage : Stage) : Except Cause α → Except Stop α
  | .ok value => .ok value
  | .error cause => .error (.failed (stageError stage cause))

/-- A stage that is called. -/
theorem run_call (stage : Stage) (act : γ → Effect γ α) (t : Trail σ γ) :
    (call stage act : Course σ γ α).run.run t =
      (ofStage stage (act t.state).result, (t.call stage act).2) := by
  simp only [call, run_bind, run_modifyGet, Trail.call]
  cases (act t.state).result <;> rfl

/-- A stage that is measured and noted is called just the same. -/
theorem run_callNoted (r : CalculationRunner) (calculation : String) (stage : Stage)
    (act : Monitor → γ → Effect γ α) (t : Trail σ γ) :
    ∃ t' : Trail σ γ, (r.callNoted calculation stage act).run.run t =
        (ofStage stage (act r.monitor t.state).result, t') ∧
      t'.state = (act r.monitor t.state).state ∧ t'.transport = t.transport ∧
        t'.called = t.called ++ [stage] := by
  simp only [callNoted, run_bind, run_modify, run_modifyGet]
  have hresult : ((t.note (.phaseStarted calculation stage.name)).call stage (act r.monitor)).1 =
      (act r.monitor t.state).result := rfl
  rw [hresult]
  cases (act r.monitor t.state).result with
  | ok value => exact ⟨_, rfl, rfl, rfl, rfl⟩
  | error cause => exact ⟨_, rfl, rfl, rfl, rfl⟩

theorem run_orFail (value : Except RunError α) (t : Trail σ γ) :
    (orFail value : Course σ γ α).run.run t = (value.mapError .failed, t) := by
  cases value <;> rfl

/-- What comes of a run that was played, if anything comes of it. -/
def ofEnding {κ β : Type} [Ord κ] : Ending κ β → Except Stop (Tally κ β × Summary)
  | .finished result summary => .ok (result, summary)
  | .failed error => .error (.failed error)
  | .crashed fault => .error (.crashed fault)
  | .stalled => .error .stalled

/-- Tasks are run without a stage being called. -/
theorem run_execute {δ κ β : Type} [Ord κ] (r : CalculationRunner) (player : Player σ δ κ β)
    (d : Dispatcher δ κ β) (pending : Pending δ) (total : Nat) (t : Trail σ γ) :
    ∃ t' : Trail σ γ, (r.execute player d pending total).run.run t =
        (ofEnding (player { d with
          monitor := r.monitor.child "execute", timings := t.timings, journal := [] }
          t.transport pending total).ending, t') ∧ t'.state = t.state ∧ t'.called = t.called := by
  simp only [execute, run_bind, run_get, run_modify]
  generalize player _ t.transport pending total = played
  cases hending : played.ending with
  | finished result summary => exact ⟨_, rfl, rfl, rfl⟩
  | failed error => exact ⟨_, rfl, rfl, rfl⟩
  | crashed fault => exact ⟨_, rfl, rfl, rfl⟩
  | stalled => exact ⟨_, rfl, rfl, rfl⟩

end Course

/-- What is told of the run and of the outputs. -/
def told (report : CalculationReport) : Summary × List String := (report.run, report.exported)

/-- How part of a calculation goes on that stands before a step: the steps that it takes from there
on, if it returns, and the stages that it calls. -/
inductive GoesOn (r : CalculationRunner) (runId : RunId) (broker : Broker)
    (c : Calculation γ ι κ κ' β) (t : Trail Broker γ) (step : Step ι κ κ' β) :
      Except Stop CalculationReport × Trail Broker γ → Prop
  | returned (settled : Except RunError CalculationReport) {t' : Trail Broker γ}
      {steps : List (Step ι κ κ' β)}
      (h : r.Takes runId broker c t.state step steps t'.state (settled.map told))
      (hcalled : t'.called = t.called ++ steps.filterMap Step.stage?)
      (hname : ∀ report, settled = .ok report → report.name = c.name) :
      GoesOn r runId broker c t step (settled.mapError .failed, t')
  | crashed {fault : Fault} {t' : Trail Broker γ} :
      GoesOn r runId broker c t step (.error (.crashed fault), t')
  | stalled {t' : Trail Broker γ} : GoesOn r runId broker c t step (.error .stalled, t')

section GoesOn

variable {r : CalculationRunner} {runId : RunId} {broker : Broker} {c : Calculation γ ι κ κ' β}
  {t t' : Trail Broker γ} {step next : Step ι κ κ' β}
  {out : Except Stop CalculationReport × Trail Broker γ} {α : Type}

/-- A step that passes comes before those that are taken behind it. -/
theorem GoesOn.after (hpasses : r.Passes runId c t.state step t'.state next)
    (hcalled : t'.called = t.called ++ step.stage?.toList)
    (h : r.GoesOn runId broker c t' next out) : r.GoesOn runId broker c t step out := by
  cases h with
  | returned settled h hcalled' hname =>
    refine .returned settled (.passed hpasses h) ?_ hname
    rw [hcalled', hcalled, List.append_assoc, Step.filterMap_stage?_cons]
  | crashed => exact .crashed
  | stalled => exact .stalled

/-- A step that fails is the last one. -/
theorem GoesOn.of_fails {error : RunError} (h : r.Fails runId broker c t.state step error t'.state)
    (hcalled : t'.called = t.called ++ step.stage?.toList) :
    r.GoesOn runId broker c t step (.error (.failed error), t') := by
  refine .returned (.error error) (.failed h) ?_ (fun _ hok => by cases hok)
  rw [hcalled, Step.filterMap_stage?_cons, List.filterMap_nil, List.append_nil]

/-- A stage that is noted is called in the state of the trail, and what follows is only done where
it passes. -/
theorem GoesOn.callNoted {stage : Stage} {act : Monitor → γ → Effect γ α}
    {f : α → Course Broker γ CalculationReport} (hstage : step.stage? = some stage)
    (hfails : ∀ cause, (act r.monitor t.state).result = .error cause →
      r.Fails runId broker c t.state step (stageError stage cause) (act r.monitor t.state).state)
    (hpasses : ∀ value t', (act r.monitor t.state).result = .ok value →
      t'.state = (act r.monitor t.state).state → t'.transport = t.transport →
        ∃ next, r.Passes runId c t.state step t'.state next ∧
          r.GoesOn runId broker c t' next ((f value).run.run t')) :
    r.GoesOn runId broker c t step ((r.callNoted c.name stage act >>= f).run.run t) := by
  obtain ⟨t', hrun, hstate, htransport, hcalled⟩ := r.run_callNoted c.name stage act t
  have hcalled' : t'.called = t.called ++ step.stage?.toList := by rw [hcalled, hstage]; rfl
  rw [run_bind, hrun]
  cases hresult : (act r.monitor t.state).result with
  | ok value =>
    obtain ⟨next, hnext, hrest⟩ := hpasses value t' hresult hstate htransport
    exact hrest.after hnext hcalled'
  | error cause => exact .of_fails (hstate ▸ hfails cause hresult) hcalled'

/-- With a result at hand, the stages that are left are called. -/
theorem GoesOn.postExecute (result : Tally κ' β) (summary : Summary) :
    r.GoesOn runId broker c t (.postExecute result summary) ((do
      r.callNoted c.name .postExecute (c.postExecute result)
      r.callNoted c.name .postProcess c.postProcess
      let exported ← r.callNoted c.name .exportOutputs c.exportOutputs
      pure ⟨c.name, summary, exported, (← get).timings.report⟩ :
        Course Broker γ CalculationReport).run.run t) := by
  refine .callNoted rfl (fun _ => .postExecute) fun _ t₁ h₁ hstate₁ _ =>
    ⟨.postProcess summary, hstate₁ ▸ .postExecute h₁, ?_⟩
  refine .callNoted rfl (fun _ => .postProcess) fun _ t₂ h₂ hstate₂ _ =>
    ⟨.exportOutputs summary, hstate₂ ▸ .postProcess h₂, ?_⟩
  refine .callNoted rfl (fun _ => .exportOutputs) fun exported t₃ h₃ hstate₃ _ =>
    ⟨.done summary exported, hstate₃ ▸ .exportOutputs h₃, ?_⟩
  refine .returned (.ok _) .done (List.append_nil _).symm ?_
  rintro _ ⟨⟩
  rfl

/-- With the items divided, a task is run for every block. -/
theorem GoesOn.dispatch {player : Player Broker (Block ι κ Float) κ' β} (hplays : player.Plays)
    (hlimit : 0 < r.settings.limit) (htimeout : r.settings.signaling.timeout = none)
    {a : Assignment ι κ κ' β}
    (hlossless : (a.blocks.flatMap fun b => b.items.toList) = a.items)
    (hcount : a.items.length < UInt64.size) (hsafe : (r.plan runId a).MergesSafely)
    {f : Tally κ' β × Summary → Course Broker γ CalculationReport}
    (hrest : ∀ result summary t', r.GoesOn runId t.transport c t' (.postExecute result summary)
      ((f (result, summary)).run.run t')) :
    r.GoesOn runId t.transport c t (.dispatch a) ((r.execute player
      ⟨r.settings, a.work, runId, .named "dispatch", .empty, [], []⟩ (.lazy a.blocks)
        a.items.length >>= f).run.run t) := by
  obtain ⟨t', hrun, hstate, hcalled⟩ : ∃ t' : Trail Broker γ, (r.execute player
      ⟨r.settings, a.work, runId, .named "dispatch", .empty, [], []⟩ (.lazy a.blocks)
        a.items.length).run.run t =
          (ofEnding (player (r.dispatcher runId a t.timings) t.transport (.lazy a.blocks)
            a.items.length).ending, t') ∧ t'.state = t.state ∧ t'.called = t.called :=
    r.run_execute player _ _ _ t
  have hcalled' : t'.called = t.called ++ [] := hcalled.trans (List.append_nil _).symm
  rw [run_bind, hrun]
  rcases gives_or_denies hplays hlimit htimeout hlossless hcount hsafe t.transport t.timings
    rfl with ⟨result, summary, heq, hgives⟩ | ⟨error, heq, hdenies⟩ | ⟨fault, heq⟩ | heq <;>
      rw [heq]
  · exact .after (hstate ▸ .dispatch hgives) hcalled' (hrest result summary t')
  · exact .of_fails (hstate ▸ .dispatch hdenies) hcalled'
  · exact .crashed
  · exact .stalled

/-- With the items named, they are divided and the blocks are run. -/
theorem GoesOn.divide {player : Player Broker (Block ι κ Float) κ' β} (hplays : player.Plays)
    (hvalid : r.settings.validate = .ok ()) (hlimit : 0 < r.settings.limit)
    (htimeout : r.settings.signaling.timeout = none) {items : List ι}
    (hcount : items.length < UInt64.size)
    (hsafe : ∀ a, r.Passes runId c t.state (.divide items) t.state (.dispatch a) →
      (r.plan runId a).MergesSafely) {f : Tally κ' β × Summary → Course Broker γ CalculationReport}
    (hrest : ∀ result summary t', r.GoesOn runId t.transport c t' (.postExecute result summary)
      ((f (result, summary)).run.run t')) :
    r.GoesOn runId t.transport c t (.divide items) ((do
      let maxWeight ← orFail (r.settings.blockWeight (totalWeight c items))
      let splitter ← orFail (Splitter.of (items.map some) maxWeight c.weight c.groupKey)
      let work := c.work (← get).state
      let dispatcher ← orFail (Dispatcher.new r.settings work runId)
      let out ← r.execute player dispatcher (.lazy splitter.blocks) items.length
      f out : Course Broker γ CalculationReport).run.run t) := by
  rw [run_bind, run_orFail]
  cases hweight : r.settings.blockWeight (totalWeight c items) with
  | error error => exact .of_fails (.weight hweight) (List.append_nil _).symm
  | ok maxWeight =>
    simp only [Except.mapError]
    rw [run_bind, run_orFail]
    cases hsplit : Splitter.of (items.map some) maxWeight c.weight c.groupKey with
    | error error =>
      simp only [Splitter.of] at hsplit
      split at hsplit
      · cases hsplit
      · next hpositive =>
        obtain rfl := Except.error.inj hsplit
        exact .of_fails (.split hweight (Bool.eq_false_iff.2 hpositive)) (List.append_nil _).symm
    | ok splitter =>
      have hgreedy := Splitter.blocks_isGreedy hsplit
      have hpositive : Weight.isPositive maxWeight = true := by
        simp only [Splitter.of] at hsplit
        split at hsplit
        · assumption
        · cases hsplit
      let a : Assignment ι κ κ' β := ⟨items, splitter.blocks, c.work t.state⟩
      have hpasses : r.Passes runId c t.state (.divide items) t.state (.dispatch a) :=
        .divide hweight hpositive hgreedy
      refine .after hpasses (List.append_nil _).symm ?_
      have hnew : Dispatcher.new r.settings (c.work t.state) runId =
          .ok ⟨r.settings, c.work t.state, runId, .named "dispatch", .empty, [], []⟩ := by
        rw [Dispatcher.new, hvalid]
      simp only [Except.mapError]
      rw [run_bind, run_get]
      simp only
      rw [run_bind, run_orFail, hnew]
      exact .dispatch hplays hlimit htimeout hgreedy.lossless hcount (hsafe a hpasses) hrest

/-- From its first stage on a calculation takes the steps of its lifecycle. -/
theorem GoesOn.stages {player : Player Broker (Block ι κ Float) κ' β} (hplays : player.Plays)
    (hvalid : r.settings.validate = .ok ()) (hlimit : 0 < r.settings.limit)
    (htimeout : r.settings.signaling.timeout = none)
    (hcount : ∀ s items, (c.workItems s).result = .ok items → items.length < UInt64.size)
    (hsafe : ∀ s a, r.Comes runId c (t.state, .preExecute) (s, .dispatch a) →
      (r.plan runId a).MergesSafely) :
    r.GoesOn runId t.transport c t .preExecute ((r.stages player runId c).run.run t) := by
  refine .callNoted rfl (fun _ => .preExecute) fun _ t₁ h₁ hstate₁ htransport₁ => ?_
  have hpasses₁ : r.Passes runId c t.state .preExecute t₁.state .workItems :=
    hstate₁ ▸ .preExecute h₁
  refine ⟨.workItems, hpasses₁, ?_⟩
  rw [run_bind, run_call]
  cases h₂ : (c.workItems t₁.state).result with
  | error cause => exact .of_fails (.workItems h₂) rfl
  | ok items =>
    let t₂ := (t₁.call .workItems c.workItems).2
    have hpasses₂ : r.Passes runId c t₁.state .workItems t₂.state (.divide items) := .workItems h₂
    refine .after hpasses₂ rfl ?_
    rw [← htransport₁]
    have hcome : r.Comes runId c (t.state, .preExecute) (t₂.state, .divide items) :=
      Comes.next (.next .refl hpasses₁) hpasses₂
    exact .divide hplays hvalid hlimit htimeout (hcount _ _ h₂)
      (fun a hpasses₃ => hsafe _ a (hcome.next hpasses₃)) fun result summary t₃ =>
        .postExecute result summary

end GoesOn

/-- The lifecycle of a calculation that has returned: the steps that it took, the state and the
outcome behind them, and the outcome once it has cleaned up. -/
structure Lifecycle (r : CalculationRunner) (runId : RunId) (c : Calculation γ ι κ κ' β)
    (t : Trail Broker γ) (steps : List (Step ι κ κ' β)) (s : γ)
    (settled : Except RunError CalculationReport) (t' : Trail Broker γ)
    (outcome : Except RunError CalculationReport) : Prop where
  /-- Each step is given what those before it have led to. All but the last have passed, and an
  error is that of the last. -/
  taken : r.Takes runId t.transport c t.state .preExecute steps s (settled.map told)
  /-- Stages are called in their order, and then the calculation cleans up, once. -/
  called : t'.called = t.called ++ (steps.filterMap Step.stage? ++ [.cleanUp])
  ordered : steps.filterMap Step.stage? <+: Stage.inOrder
  cleaned : t'.state = (c.cleanUp s).state
  /-- The blocks are the greedy partition of the items, and their units add up to the items. -/
  divided : ∀ a, .dispatch a ∈ steps → .divide a.items ∈ steps ∧
    (∃ maxWeight, IsGreedy maxWeight c.weight c.groupKey a.items a.blocks) ∧
      (a.blocks.map Workload.units).sum = a.items.length
  /-- Only a result that all blocks have given is taken in. -/
  reduced : ∀ result summary, .postExecute result summary ∈ steps →
    ∃ a, .dispatch a ∈ steps ∧ r.Gives runId a result summary
  /-- Units are never missing, and signals never come as they should not. -/
  sound : ∀ error, outcome = .error error →
    (∀ computed total, error ≠ .incomplete computed total) ∧ ∀ id kind, error ≠ .anomaly id kind
  /-- All is well exactly if neither a step has failed nor the calculation to clean up. -/
  passed : ∀ report, outcome = .ok report ↔ settled = .ok report ∧ (c.cleanUp s).result = .ok ()
  /-- A failure to clean up is told exactly if no step has failed. -/
  failed : ∀ error, outcome = .error error ↔ settled = .error error ∨ ∃ report cause,
    settled = .ok report ∧ (c.cleanUp s).result = .error cause ∧ error = stageError .cleanUp cause
  reported : ∀ report, outcome = .ok report → report.name = c.name ∧ ∃ a, .dispatch a ∈ steps ∧
    report.run.unitsComputed = a.items.length ∧ report.run.tasksSubmitted = a.blocks.length

section Main

variable {r : CalculationRunner} {runId : RunId} {c : Calculation γ ι κ κ' β}
  {t t' : Trail Broker γ} {steps : List (Step ι κ κ' β)}
  {concluded : Except RunError (Summary × List String)}
  {outcome : Except RunError CalculationReport}
  {player : Player Broker (Block ι κ Float) κ' β}

/-- What is told of a calculation that has cleaned up. -/
def settle (settled : Except RunError CalculationReport) :
    Except Cause Unit → Except RunError CalculationReport
  | .ok () => settled
  | .error cause => settled.bind fun _ => .error (stageError .cleanUp cause)

theorem settle_eq_ok_iff {settled : Except RunError CalculationReport}
    {cleaned : Except Cause Unit} {report : CalculationReport} :
    settle settled cleaned = .ok report ↔ settled = .ok report ∧ cleaned = .ok () := by
  cases cleaned <;> cases settled <;> simp [settle, Except.bind]

theorem settle_eq_error_iff {settled : Except RunError CalculationReport}
    {cleaned : Except Cause Unit} {error : RunError} :
    settle settled cleaned = .error error ↔ settled = .error error ∨ ∃ report cause,
      settled = .ok report ∧ cleaned = .error cause ∧ error = stageError .cleanUp cause := by
  cases cleaned <;> cases settled <;> simp [settle, Except.bind, eq_comm]

omit [BEq κ] [Described κ] [TransOrd κ'] [Mergeable β] in
/-- A calculation cleans up in the state that it has come to, whatever has come of it. -/
theorem cleanUp_spec {σ : Type} (r : CalculationRunner) (c : Calculation γ ι κ κ' β)
    (settled : Except RunError CalculationReport) (t : Trail σ γ) :
    ∃ t' : Trail σ γ, r.cleanUp c settled t = (settle settled (c.cleanUp t.state).result, t') ∧
      t'.state = (c.cleanUp t.state).state ∧ t'.called = t.called ++ [.cleanUp] := by
  simp only [cleanUp, Trail.call]
  cases settled <;> cases (c.cleanUp t.state).result <;> exact ⟨_, rfl, rfl, rfl⟩

omit [Described κ] [TransOrd κ'] [Mergeable β] in
/-- Where the stages before have returned, the calculation cleans up. -/
theorem runBy_of_returned {σ : Type} {player : Player σ (Block ι κ Float) κ' β}
    {settled : Except RunError CalculationReport} {t t₁ : Trail σ γ}
    (h : (r.stages player runId c).run.run t = (settled.mapError .failed, t₁)) :
    r.runBy player runId c t = ((r.cleanUp c settled t₁).1.mapError .failed,
      (r.cleanUp c settled t₁).2) := by
  rw [runBy, h]
  generalize hclean : r.cleanUp c settled t₁ = out
  obtain ⟨outcome, t₂⟩ := out
  cases settled <;> simp only [Except.mapError, hclean] <;> cases outcome <;> rfl

/-- What is behind a calculation that has returned: its steps, and then it cleans up. -/
theorem exists_takes (hgoes : r.GoesOn runId t.transport c t .preExecute
      ((r.stages player runId c).run.run t))
    (hrun : r.runBy player runId c t = (outcome.mapError .failed, t')) :
    ∃ (steps : List (Step ι κ κ' β)) (s : γ) (settled : Except RunError CalculationReport),
      r.Takes runId t.transport c t.state .preExecute steps s (settled.map told) ∧
      t'.called = t.called ++ (steps.filterMap Step.stage? ++ [.cleanUp]) ∧
      t'.state = (c.cleanUp s).state ∧ (∀ report, settled = .ok report → report.name = c.name) ∧
      outcome = settle settled (c.cleanUp s).result := by
  generalize hstages : (r.stages player runId c).run.run t = out at hgoes
  cases hgoes with
  | @returned settled t₁ steps htakes hcalled hname =>
    obtain ⟨t₂, hclean, hstate, hcalled'⟩ := r.cleanUp_spec c settled t₁
    rw [runBy_of_returned hstages, hclean] at hrun
    obtain ⟨houtcome, rfl⟩ := Prod.mk.inj hrun
    refine ⟨steps, t₁.state, settled, htakes, ?_, hstate, hname, ?_⟩
    · rw [hcalled', hcalled, List.append_assoc]
    · exact (eq_of_mapError_eq houtcome).symm
  -- nothing returns after a fault
  | crashed =>
    rw [runBy, hstages] at hrun
    cases outcome <;> cases congrArg Prod.fst hrun
  | stalled =>
    rw [runBy, hstages] at hrun
    cases outcome <;> cases congrArg Prod.fst hrun

/-- A calculation that returns has a lifecycle, over a broker, with no end to waiting and with
merges that do not fault, however its run is played: it takes its steps up to the first that fails,
cleans up once, and tells of that failure. -/
theorem runBy_lifecycle (hplays : player.Plays) (hvalid : r.settings.validate = .ok ())
    (htimeout : r.settings.signaling.timeout = none)
    (hcount : ∀ s items, (c.workItems s).result = .ok items → items.length < UInt64.size)
    (hsafe : ∀ s a, r.Comes runId c (t.state, .preExecute) (s, .dispatch a) →
      (r.plan runId a).MergesSafely)
    (hrun : r.runBy player runId c t = (outcome.mapError .failed, t')) :
    ∃ steps s settled, r.Lifecycle runId c t steps s settled t' outcome := by
  have hlimit := Settings.limit_pos_of_validate hvalid
  have hgoes := GoesOn.stages hplays hvalid hlimit htimeout hcount hsafe
  obtain ⟨steps, s, settled, htakes, hcalled, hstate, hname, rfl⟩ := exists_takes hgoes hrun
  refine ⟨steps, s, settled, htakes, hcalled, htakes.prefix_ahead, hstate, fun a => htakes.divided,
    fun result summary => htakes.reduced, ?_, fun report => settle_eq_ok_iff,
    fun error => settle_eq_error_iff, ?_⟩
  · intro error herror
    rcases settle_eq_error_iff.1 herror with rfl | ⟨report, cause, -, -, rfl⟩
    · obtain ⟨before, last, s₀, -, hfails⟩ := htakes.exists_fails
      exact hfails.sound hvalid
    · simp [stageError]
  · intro report hreport
    obtain ⟨rfl, -⟩ := settle_eq_ok_iff.1 hreport
    refine ⟨hname report rfl, ?_⟩
    rcases htakes.exists_gives with hnone | ⟨a, result, ha, hgives⟩
    · cases hnone
    · exact ⟨a, ha, hgives.computed, hgives.submitted⟩

end Main

/-- Numbers with a fractional part are merged without a fault, and so are lists of them. -/
theorem mergesSafely_of_floats {α κ : Type} [Ord κ] [TransOrd κ] (plan : Plan α κ (List Float)) :
    plan.MergesSafely := fun entries _ =>
  Tally.exists_mergeEntries_of_total (fun _ _ => Mergeable.exists_mergeLists fun _ => ⟨_, rfl⟩)
    .empty entries

/-- A runner for two tasks at a time, with blocks of a weight of two at most. -/
def forTwo : CalculationRunner :=
  ⟨{ Settings.usual 2 with maxBlockWeight := some 2.0 }, .named "calculation"⟩

/-- Two items of two groups, whose calculation writes a report. -/
def twoGroups : CalculationScript where
  name := "two groups"
  items := [(2.0, .text "a"), (1.0, .text "b")]
  failures := []
  exported := ["report"]
  mishaps := []
  minimal := false

/-- A calculation before its first stage. -/
def atRest : Trail Broker ScriptedCalculation.State :=
  ⟨none, .new "rehearsal", .empty, [], []⟩

/-- Two items of two groups on two threads: the calculation returns, and has a lifecycle. -/
theorem lifecycle_twoGroups :
    (Player.Plays fun (d : Dispatcher (Block (Float × GroupKey) GroupKey Float) String (List Float))
        (broker : Broker) pending total => d.execute 40 broker pending total) ∧
      forTwo.settings.validate = .ok () ∧ forTwo.settings.signaling.timeout = none ∧
      (∀ s items, (twoGroups.calculation.workItems s).result = .ok items →
        items.length < UInt64.size) ∧
      (∀ s a, forTwo.Comes ⟨"rehearsal"⟩ twoGroups.calculation (atRest.state, .preExecute)
        (s, .dispatch a) → (forTwo.plan ⟨"rehearsal"⟩ a).MergesSafely) ∧
      ∃ report t' steps s settled,
        forTwo.run 40 ⟨"rehearsal"⟩ twoGroups.calculation atRest = (.ok report, t') ∧
        forTwo.Lifecycle ⟨"rehearsal"⟩ twoGroups.calculation atRest steps s settled t'
          (.ok report) := by
  have hcount : ∀ s items, (twoGroups.calculation.workItems s).result = .ok items →
      items.length < UInt64.size := by
    intro s items hitems
    obtain rfl : twoGroups.items = items := Except.ok.inj hitems
    decide
  refine ⟨Dispatcher.plays_execute 40, rfl, rfl, hcount, fun _ _ _ => mergesSafely_of_floats _, ?_⟩
  have hcheck : (forTwo.run 40 ⟨"rehearsal"⟩ twoGroups.calculation atRest).1.toBool = true := by
    decide +kernel
  generalize hrun : forTwo.run 40 ⟨"rehearsal"⟩ twoGroups.calculation atRest = out at hcheck
  obtain ⟨outcome, t'⟩ := out
  cases outcome with
  | error stop => cases hcheck
  | ok report =>
    have hreturns : forTwo.run 40 ⟨"rehearsal"⟩ twoGroups.calculation atRest =
        ((Except.ok report : Except RunError CalculationReport).mapError .failed, t') := hrun
    obtain ⟨steps, s, settled, hlifecycle⟩ := runBy_lifecycle (Dispatcher.plays_execute 40) rfl rfl
      hcount (fun _ _ _ => mergesSafely_of_floats _) hreturns
    exact ⟨report, t', steps, s, settled, rfl, hlifecycle⟩

end CalculationRunner

end BatchRun
