import BatchRun.Proofs.Calculation.Dispatch

/-!
# The steps of a calculation

A calculation takes one step after the other: its stages are called, its items are divided, its
blocks are run. Each step is given what the steps before it have led to, and the first that fails
is the last that is taken.

Steps are told apart from the stages, since two of them, the division of the items and the run of
the blocks, call no stage and can fail all the same.

## Main definitions

* `Calculation.Step`: the steps, with what each is given
* `CalculationRunner.Passes`, `CalculationRunner.Fails`: what comes of a step
* `CalculationRunner.Takes`: the steps that a calculation takes

## Main results

* `CalculationRunner.Takes.prefix_ahead`: stages are called in their order
* `CalculationRunner.Takes.divided`: what is run are the blocks of a greedy partition
* `CalculationRunner.Takes.reduced`: what is taken in is what the run has given
* `CalculationRunner.Fails.sound`: of which errors a step never fails
-/

namespace BatchRun

open Std

section Settings

variable {W : Type} [Weight W]

/-- No greatest weight is derived only because of a setting or of the weight of all items. -/
theorem maxBlockWeight_eq_error {total : W} {concurrentTasks : Nat} {cap : Option W}
    {error : RunError} (h : maxBlockWeight total concurrentTasks cap = .error error) :
    ∃ field problem, error = .invalidSetting field problem := by
  simp only [maxBlockWeight] at h
  split at h
  · exact ⟨_, _, (Except.error.inj h).symm⟩
  · split at h
    · exact ⟨_, _, (Except.error.inj h).symm⟩
    · split at h
      · cases h
      · split at h
        · cases h
        · exact ⟨_, _, (Except.error.inj h).symm⟩

variable {s : Settings W}

/-- Settings that are accepted have a limit above zero. -/
theorem Settings.limit_pos_of_validate (h : s.validate = .ok ()) : 0 < s.limit := by
  by_cases hzero : s.limit = 0
  · rw [validate, if_pos hzero] at h
    cases h
  · exact Nat.pos_of_ne_zero hzero

/-- With settings that are accepted, the weight of blocks is refused with an error about a
setting. -/
theorem Settings.blockWeight_eq_error {total : W} {error : RunError} (hvalid : s.validate = .ok ())
    (h : s.blockWeight total = .error error) :
    ∃ field problem, error = .invalidSetting field problem := by
  rw [blockWeight, hvalid] at h
  cases hweight : s.maxBlockWeight with
  | some weight =>
    rw [hweight] at h
    cases h
  | none =>
    rw [hweight] at h
    exact maxBlockWeight_eq_error h

end Settings

/-- The stages up to the last but one, in their order. -/
def Stage.inOrder : List Stage :=
  [.preExecute, .workItems, .postExecute, .postProcess, .exportOutputs]

namespace Calculation

/-- A step of a calculation, with what it is given. -/
inductive Step (ι κ κ' β : Type) [Ord κ'] where
  | preExecute
  | workItems
  /-- A greatest weight is derived, and the items are divided into blocks. -/
  | divide (items : List ι)
  /-- A task is run for every block. -/
  | dispatch (a : Assignment ι κ κ' β)
  | postExecute (result : Tally κ' β) (summary : Summary)
  | postProcess (summary : Summary)
  | exportOutputs (summary : Summary)
  /-- Nothing is left to do but to clean up. -/
  | done (summary : Summary) (exported : List String)

namespace Step

variable {ι κ κ' β : Type} [Ord κ']

/-- The stage that is called in a step, if there is one. -/
def stage? : Step ι κ κ' β → Option Stage
  | preExecute => some .preExecute
  | workItems => some .workItems
  | postExecute .. => some .postExecute
  | postProcess _ => some .postProcess
  | exportOutputs _ => some .exportOutputs
  | divide _ | dispatch _ | done .. => none

/-- The summary that a step is given, behind the run. -/
def summary? : Step ι κ κ' β → Option Summary
  | postExecute _ summary | postProcess summary | exportOutputs summary | done summary _ =>
    some summary
  | preExecute | workItems | divide _ | dispatch _ => none

/-- The stages that may be called from a step on. -/
def ahead : Step ι κ κ' β → List Stage
  | preExecute => Stage.inOrder
  | workItems => [.workItems, .postExecute, .postProcess, .exportOutputs]
  | divide _ | dispatch _ | postExecute .. => [.postExecute, .postProcess, .exportOutputs]
  | postProcess _ => [.postProcess, .exportOutputs]
  | exportOutputs _ => [.exportOutputs]
  | done .. => []

theorem filterMap_stage?_cons (step : Step ι κ κ' β) (steps : List (Step ι κ κ' β)) :
    (step :: steps).filterMap stage? = step.stage?.toList ++ steps.filterMap stage? := by
  rw [List.filterMap_cons]
  cases step.stage? <;> rfl

end Step

end Calculation

open Calculation (Step)

namespace CalculationRunner

variable {γ ι κ κ' β : Type} [Ord κ'] [BEq κ] [Described κ] [TransOrd κ'] [Mergeable β]

/-- The weight of all items. -/
def totalWeight (c : Calculation γ ι κ κ' β) (items : List ι) : Float :=
  (items.map c.weight).foldl (· + ·) 0.0

/-- A step that is taken in a state and passes, with the state behind it and the next step. -/
inductive Passes (r : CalculationRunner) (runId : RunId) (c : Calculation γ ι κ κ' β) :
    γ → Step ι κ κ' β → γ → Step ι κ κ' β → Prop
  | preExecute {s : γ} (h : (c.preExecute r.monitor s).result = .ok ()) :
      Passes r runId c s .preExecute (c.preExecute r.monitor s).state .workItems
  | workItems {s : γ} {items : List ι} (h : (c.workItems s).result = .ok items) :
      Passes r runId c s .workItems (c.workItems s).state (.divide items)
  /-- The blocks are the greedy partition of the items under the weight that is derived. -/
  | divide {s : γ} {items : List ι} {maxWeight : Float} {blocks : List (Block ι κ Float)}
      (hweight : r.settings.blockWeight (totalWeight c items) = .ok maxWeight)
      (hpositive : Weight.isPositive maxWeight = true)
      (hblocks : IsGreedy maxWeight c.weight c.groupKey items blocks) :
      Passes r runId c s (.divide items) s (.dispatch ⟨items, blocks, c.work s⟩)
  | dispatch {s : γ} {a : Assignment ι κ κ' β} {result : Tally κ' β} {summary : Summary}
      (h : r.Gives runId a result summary) :
      Passes r runId c s (.dispatch a) s (.postExecute result summary)
  | postExecute {s : γ} {result : Tally κ' β} {summary : Summary}
      (h : (c.postExecute result r.monitor s).result = .ok ()) :
      Passes r runId c s (.postExecute result summary) (c.postExecute result r.monitor s).state
        (.postProcess summary)
  | postProcess {s : γ} {summary : Summary} (h : (c.postProcess r.monitor s).result = .ok ()) :
      Passes r runId c s (.postProcess summary) (c.postProcess r.monitor s).state
        (.exportOutputs summary)
  | exportOutputs {s : γ} {summary : Summary} {exported : List String}
      (h : (c.exportOutputs r.monitor s).result = .ok exported) :
      Passes r runId c s (.exportOutputs summary) (c.exportOutputs r.monitor s).state
        (.done summary exported)

/-- A calculation comes from one step to another, each in its state, by steps that pass. -/
def Comes (r : CalculationRunner) (runId : RunId) (c : Calculation γ ι κ κ' β) :
    γ × Step ι κ κ' β → γ × Step ι κ κ' β → Prop :=
  Relation.ReflTransGen fun p q => r.Passes runId c p.1 p.2 q.1 q.2

omit [Described κ] in
theorem Comes.next {r : CalculationRunner} {runId : RunId} {c : Calculation γ ι κ κ' β} {s s' : γ}
    {first : γ × Step ι κ κ' β} {step next : Step ι κ κ' β} (h : r.Comes runId c first (s, step))
    (hpasses : r.Passes runId c s step s' next) : r.Comes runId c first (s', next) :=
  Relation.ReflTransGen.tail h hpasses

/-- A step that is taken in a state and fails, with its error and the state behind it. -/
inductive Fails (r : CalculationRunner) (runId : RunId) (broker : Broker)
    (c : Calculation γ ι κ κ' β) : γ → Step ι κ κ' β → RunError → γ → Prop
  | preExecute {s : γ} {cause : Cause} (h : (c.preExecute r.monitor s).result = .error cause) :
      Fails r runId broker c s .preExecute (stageError .preExecute cause)
        (c.preExecute r.monitor s).state
  | workItems {s : γ} {cause : Cause} (h : (c.workItems s).result = .error cause) :
      Fails r runId broker c s .workItems (stageError .workItems cause) (c.workItems s).state
  /-- No greatest weight can be derived. -/
  | weight {s : γ} {items : List ι} {error : RunError}
      (h : r.settings.blockWeight (totalWeight c items) = .error error) :
      Fails r runId broker c s (.divide items) error s
  /-- The greatest weight is not above zero. -/
  | split {s : γ} {items : List ι} {maxWeight : Float}
      (hweight : r.settings.blockWeight (totalWeight c items) = .ok maxWeight)
      (hpositive : Weight.isPositive maxWeight = false) :
      Fails r runId broker c s (.divide items)
        (.invalidSetting "max_weight" (.notPositive (Weight.text maxWeight))) s
  | dispatch {s : γ} {a : Assignment ι κ κ' β} {error : RunError}
      (h : r.Denies runId broker a error) : Fails r runId broker c s (.dispatch a) error s
  | postExecute {s : γ} {result : Tally κ' β} {summary : Summary} {cause : Cause}
      (h : (c.postExecute result r.monitor s).result = .error cause) :
      Fails r runId broker c s (.postExecute result summary) (stageError .postExecute cause)
        (c.postExecute result r.monitor s).state
  | postProcess {s : γ} {summary : Summary} {cause : Cause}
      (h : (c.postProcess r.monitor s).result = .error cause) :
      Fails r runId broker c s (.postProcess summary) (stageError .postProcess cause)
        (c.postProcess r.monitor s).state
  | exportOutputs {s : γ} {summary : Summary} {cause : Cause}
      (h : (c.exportOutputs r.monitor s).result = .error cause) :
      Fails r runId broker c s (.exportOutputs summary) (stageError .exportOutputs cause)
        (c.exportOutputs r.monitor s).state

/-- The steps that are taken from a state and a step on, with the state and the outcome behind
them. All steps but the last have passed. -/
inductive Takes (r : CalculationRunner) (runId : RunId) (broker : Broker)
    (c : Calculation γ ι κ κ' β) : γ → Step ι κ κ' β → List (Step ι κ κ' β) → γ →
      Except RunError (Summary × List String) → Prop
  | done {s : γ} {summary : Summary} {exported : List String} :
      Takes r runId broker c s (.done summary exported) [] s (.ok (summary, exported))
  | failed {s s' : γ} {step : Step ι κ κ' β} {error : RunError}
      (h : r.Fails runId broker c s step error s') :
      Takes r runId broker c s step [step] s' (.error error)
  | passed {s s' s'' : γ} {step next : Step ι κ κ' β} {steps : List (Step ι κ κ' β)}
      {outcome : Except RunError (Summary × List String)} (h : r.Passes runId c s step s' next)
      (hrest : Takes r runId broker c s' next steps s'' outcome) :
      Takes r runId broker c s step (step :: steps) s'' outcome

section Takes

variable {r : CalculationRunner} {runId : RunId} {broker : Broker} {c : Calculation γ ι κ κ' β}
  {s s' : γ} {step next : Step ι κ κ' β} {steps : List (Step ι κ κ' β)} {error : RunError}
  {outcome : Except RunError (Summary × List String)} {summary : Summary} {exported : List String}

omit [Described κ] in
/-- What may be called from a step on is its own stage, and what may be called behind it. -/
theorem Passes.ahead_eq (h : r.Passes runId c s step s' next) :
    step.ahead = step.stage?.toList ++ next.ahead := by
  cases h <;> rfl

/-- Stages are called in their order. -/
theorem Takes.prefix_ahead (h : r.Takes runId broker c s step steps s' outcome) :
    steps.filterMap Step.stage? <+: step.ahead := by
  induction h with
  | done => exact List.prefix_rfl
  | @failed _ _ step =>
    rw [Step.filterMap_stage?_cons, List.filterMap_nil, List.append_nil]
    cases step <;> exact List.prefix_append _ _
  | passed h _ ih =>
    rw [Step.filterMap_stage?_cons, h.ahead_eq, List.prefix_append_right_inj]
    exact ih

/-- Each step but the first is what another one has led to. -/
theorem Takes.exists_passes (h : r.Takes runId broker c s step steps s' outcome)
    {later : Step ι κ κ' β} (hlater : later ∈ steps) :
    later = step ∨ ∃ before ∈ steps, ∃ s s', r.Passes runId c s before s' later := by
  induction h with
  | done => cases hlater
  | failed _ => exact .inl (List.mem_singleton.1 hlater)
  | @passed s₀ s₁ _ step next steps _ hpasses _ ih =>
    rcases List.mem_cons.1 hlater with rfl | hlater
    · exact .inl rfl
    · rcases ih hlater with rfl | ⟨before, hbefore, hleads⟩
      · exact .inr ⟨step, List.mem_cons_self, s₀, s₁, hpasses⟩
      · exact .inr ⟨before, List.mem_cons_of_mem _ hbefore, hleads⟩

/-- An error is that of the last step. -/
theorem Takes.exists_fails (h : r.Takes runId broker c s step steps s' (.error error)) :
    ∃ before last s₀, steps = before ++ [last] ∧ r.Fails runId broker c s₀ last error s' := by
  generalize heq : (.error error : Except RunError (Summary × List String)) = outcome at h
  induction h with
  | done => cases heq
  | @failed s₀ _ step _ hfails =>
    obtain rfl := Except.error.inj heq
    exact ⟨[], step, s₀, rfl, hfails⟩
  | @passed _ _ _ step _ _ _ _ _ ih =>
    obtain ⟨before, last, s₀, rfl, hfails⟩ := ih heq
    exact ⟨step :: before, last, s₀, rfl, hfails⟩

/-- The summary that a calculation ends with is one that a step was given, or that its run has
given. -/
theorem Takes.exists_gives (h : r.Takes runId broker c s step steps s' (.ok (summary, exported))) :
    step.summary? = some summary ∨
      ∃ a result, .dispatch a ∈ steps ∧ r.Gives runId a result summary := by
  generalize heq : (.ok (summary, exported) : Except RunError (Summary × List String)) = outcome
    at h
  induction h with
  | done =>
    obtain ⟨rfl, rfl⟩ := Prod.mk.inj (Except.ok.inj heq)
    exact .inl rfl
  | failed _ => cases heq
  | passed hpasses _ ih =>
    rcases ih heq with hsummary | ⟨a, result, ha, hgives⟩
    · cases hpasses with
      | preExecute _ => cases hsummary
      | workItems _ => cases hsummary
      | divide _ _ _ => cases hsummary
      | dispatch hgives =>
        obtain rfl := Option.some.inj hsummary
        exact .inr ⟨_, _, List.mem_cons_self, hgives⟩
      | postExecute _ => exact .inl hsummary
      | postProcess _ => exact .inl hsummary
      | exportOutputs _ => exact .inl hsummary
    · exact .inr ⟨a, result, List.mem_cons_of_mem _ ha, hgives⟩

/-- What is dispatched are the blocks of a greedy partition. -/
theorem Takes.divided {a : Assignment ι κ κ' β}
    (h : r.Takes runId broker c s .preExecute steps s' outcome) (ha : .dispatch a ∈ steps) :
    .divide a.items ∈ steps ∧
      (∃ maxWeight, IsGreedy maxWeight c.weight c.groupKey a.items a.blocks) ∧
        (a.blocks.map Workload.units).sum = a.items.length := by
  rcases h.exists_passes ha with hfirst | ⟨before, hbefore, s₀, s₁, hpasses⟩
  · cases hfirst
  · cases hpasses with
    | divide _ _ hgreedy => exact ⟨hbefore, ⟨_, hgreedy⟩, sum_size_eq hgreedy.lossless⟩

/-- What is taken in is what the run has given. -/
theorem Takes.reduced {result : Tally κ' β}
    (h : r.Takes runId broker c s .preExecute steps s' outcome)
    (hresult : .postExecute result summary ∈ steps) :
    ∃ a, .dispatch a ∈ steps ∧ r.Gives runId a result summary := by
  rcases h.exists_passes hresult with hfirst | ⟨before, hbefore, s₀, s₁, hpasses⟩
  · cases hfirst
  · cases hpasses with
    | dispatch hgives => exact ⟨_, hbefore, hgives⟩

omit [BEq κ] [TransOrd κ'] [Mergeable β] in
/-- Errors of a step are neither of units that are missing nor of signals. -/
theorem Fails.sound (hvalid : r.settings.validate = .ok ())
    (h : r.Fails runId broker c s step error s') :
    (∀ computed total, error ≠ .incomplete computed total) ∧
      ∀ id kind, error ≠ .anomaly id kind := by
  cases h with
  | weight hweight =>
    obtain ⟨field, problem, rfl⟩ := Settings.blockWeight_eq_error hvalid hweight
    simp
  | dispatch hdenies => cases hdenies <;> simp
  | split _ _ => simp
  | preExecute _ => simp [stageError]
  | workItems _ => simp [stageError]
  | postExecute _ => simp [stageError]
  | postProcess _ => simp [stageError]
  | exportOutputs _ => simp [stageError]

end Takes

end CalculationRunner

end BatchRun
