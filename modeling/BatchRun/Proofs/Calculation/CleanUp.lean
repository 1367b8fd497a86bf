import BatchRun.Proofs.Calculation.Lifecycle
import BatchRun.Proofs.Run.Strategies

/-!
# Which calculations clean up

A calculation cleans up once, behind the last stage that it called, whatever its stages have
returned: a failure is carried to the end as an error. The run of the blocks is the one part that
this does not cover. If it comes to a sudden end, nothing cleans up, and if it comes to no end,
nothing follows. So a calculation cleans up exactly if its run returns, however that run is played.

A run that is to return must not merge what does not fit: one overflow on the control node and the
calculation leaves without having given back its resources. Where no merge faults, and as many
tasks may be in flight as can be counted, no run crashes.

## Main definitions

* `CalculationRunner.Calls`: part of a calculation that calls stages in their order
* `CalculationRunner.undertaken?`: the run that a calculation comes to
* `CalculationRunner.CleansUp`: a calculation that has cleaned up

## Main results

* `CalculationRunner.cleansUp_iff`: a calculation cleans up exactly if its run returns
* `CalculationRunner.cleansUp_of_mergesSafely`: no calculation crashes whose merges do not fault
-/

namespace BatchRun

open Std

/-- Whether the caller of a run gets to hear how it turned out. -/
def Ending.returns {κ β : Type} [Ord κ] : Ending κ β → Bool
  | .finished .. | .failed _ => true
  | .crashed _ | .stalled => false

/-- The run of a calculation before it is started. -/
structure Undertaking (σ α κ β : Type) [Ord κ] where
  dispatcher : Dispatcher α κ β
  transport : σ
  blocks : List α
  units : Nat

namespace Undertaking

variable {σ α κ β : Type} [Ord κ]

/-- How it turns out, played in some way. -/
def played (u : Undertaking σ α κ β) (player : Player σ α κ β) : Played σ κ β :=
  player u.dispatcher u.transport (.lazy u.blocks) u.units

/-- The plan of the run. -/
def plan (u : Undertaking σ α κ β) : Plan α κ β := u.dispatcher.plan (.lazy u.blocks) u.units

/-- Nothing about the run is too large: neither the sums that its merges give, in whatever order,
nor the number of tasks that may be in flight. -/
structure IsBearable [TransOrd κ] [Mergeable β] [Workload α] (u : Undertaking σ α κ β) : Prop where
  safe : u.plan.MergesSafely
  fits : u.plan.Fits
  countable : u.dispatcher.settings.limit * Pool.placeBytes ≤ addressableBytes

end Undertaking

section Returns

variable {σ α κ β : Type} [Ord κ] [TransOrd κ] [Mergeable β] [Transport σ] [Workload α]
  {u : Undertaking σ α κ β}

omit [TransOrd κ] [Mergeable β] [Workload α] in
/-- A number of workers that fits into memory is refused only if it is zero. -/
theorem Executor.exists_refused_of_ofMode {mode : ExecutionMode} {limit : Nat} {why : Failure}
    (hlimit : limit * Pool.placeBytes ≤ addressableBytes)
    (h : (ofMode mode limit : Except Failure (Executor α κ β)) = .error why) :
    ∃ error, why = .refused error := by
  cases mode with
  | auto => cases h
  | sequential => cases h
  | threads =>
    -- what fits into memory can also be counted
    have hplaces : ¬Pool.mostPlaces < limit := by
      have : addressableBytes ≤ Pool.mostPlaces * Pool.placeBytes := by decide
      simp only [Pool.placeBytes] at *
      omega
    simp only [ofMode, Pool.new, if_neg hplaces, if_neg (Nat.not_lt.2 hlimit)] at h
    split at h
    · exact ⟨_, (Except.error.inj h).symm⟩
    · cases h

/-- A run that is bearable and does not start is refused with an error. -/
theorem Undertaking.IsBearable.exists_refused (h : u.IsBearable) {why : Failure}
    (hstart : u.dispatcher.start u.transport (.lazy u.blocks) u.units = .error why) :
    ∃ error, why = .refused error := by
  have hexpected : u.dispatcher.expectedTasks (.lazy u.blocks) = .ok none := rfl
  simp only [Dispatcher.start, hexpected] at hstart
  split at hstart
  · exact ⟨_, (Except.error.inj hstart).symm⟩
  · split at hstart
    · next hexecutor =>
      obtain rfl := Except.error.inj hstart
      exact Executor.exists_refused_of_ofMode h.countable hexecutor
    · cases hstart

variable {B : Type} [LawfulEqOrd κ] [AddCommMonoid B] [hexact : Mergeable.Exact β B]

include hexact in
/-- A run that is bearable returns over a courier, however it is played, if it comes to an end. -/
theorem Undertaking.IsBearable.returns {player : Player σ α κ β} (hplays : player.Plays)
    (courier : Courier σ) (h : u.IsBearable) (hends : (u.played player).ending ≠ .stalled) :
    (u.played player).ending.returns = true := by
  cases hstart : u.dispatcher.start u.transport (.lazy u.blocks) u.units with
  | error why =>
    obtain ⟨error, rfl⟩ := h.exists_refused hstart
    rw [played, hplays.unstarted hstart]
    rfl
  | ok run =>
    obtain ⟨s, hreaches, hover⟩ := hplays.played hstart hends
    -- of the ways to end, a limit that is too large and a fault of a merge are ruled out
    have hmost : ¬mostPermits < u.plan.limit := by
      have : addressableBytes ≤ mostPermits * Pool.placeBytes := by decide
      have hcountable : u.plan.limit * Pool.placeBytes ≤ addressableBytes := h.countable
      simp only [Pool.placeBytes] at *
      omega
    change Ending.returns (player u.dispatcher u.transport (.lazy u.blocks) u.units).ending = true
    generalize (player u.dispatcher u.transport (.lazy u.blocks) u.units).ending = ending at hover ⊢
    cases (hreaches.stands_safe courier h.fits h.safe hstart).ends hover with
    | overloaded hlimit => exact absurd hlimit hmost
    | crashed fault r told begun hlive _ hfaults =>
      exact absurd hfaults (hlive.not_faults h.safe fault)
    | unmerged completion fault hlive hresult hphase hfault =>
      exact absurd hfault (hlive.absorb_ne_error h.safe hphase hresult)
    | concluded _ hlive _ hresult hphase hconclude =>
      obtain ⟨result, heq⟩ := hlive.exists_conclude_eq (B := B) hphase hresult
      rw [heq] at hconclude
      obtain rfl := hconclude
      rfl
    | failed error r told begun _ _ _ _ => rfl

end Returns

namespace CalculationRunner

section Calls

variable {σ γ α δ : Type} {stages stages' : List Stage}

/-- Part of a calculation that returns, and calls the given stages in their order, up to the first
failure. -/
def Calls (x : Course σ γ α) (stages : List Stage) : Prop :=
  ∀ t : Trail σ γ, ∃ (out : Except RunError α) (called : List Stage) (t' : Trail σ γ),
    x.run.run t = (out.mapError .failed, t') ∧ t'.called = t.called ++ called ∧
      called <+: stages ∧ ∀ value, out = .ok value → called = stages

theorem calls_pure (value : α) : Calls (pure value : Course σ γ α) [] :=
  fun t => ⟨.ok value, [], t, rfl, (List.append_nil _).symm, List.prefix_rfl, fun _ _ => rfl⟩

theorem calls_get : Calls (get : Course σ γ (Trail σ γ)) [] :=
  fun t => ⟨.ok t, [], t, rfl, (List.append_nil _).symm, List.prefix_rfl, fun _ _ => rfl⟩

theorem calls_orFail (value : Except RunError α) : Calls (orFail value : Course σ γ α) [] :=
  fun t => ⟨value, [], t, run_orFail value t, (List.append_nil _).symm, List.prefix_rfl,
    fun _ _ => rfl⟩

theorem ofStage_eq (stage : Stage) (result : Except Cause α) :
    ofStage stage result = (result.mapError (stageError stage)).mapError .failed := by
  cases result <;> rfl

theorem calls_call (stage : Stage) (act : γ → Effect γ α) :
    Calls (call stage act : Course σ γ α) [stage] :=
  fun t => ⟨_, [stage], _, (run_call stage act t).trans (by rw [ofStage_eq]), rfl, List.prefix_rfl,
    fun _ _ => rfl⟩

theorem calls_callNoted (r : CalculationRunner) (calculation : String) (stage : Stage)
    (act : Monitor → γ → Effect γ α) :
    Calls (r.callNoted calculation stage act : Course σ γ α) [stage] := by
  intro t
  obtain ⟨t', hrun, -, -, hcalled⟩ := run_callNoted r calculation stage act t
  rw [ofStage_eq] at hrun
  exact ⟨_, [stage], t', hrun, hcalled, List.prefix_rfl, fun _ _ => rfl⟩

/-- One part after the other calls the stages of both. -/
theorem Calls.bind {x : Course σ γ δ} {f : δ → Course σ γ α} (hx : Calls x stages)
    (hf : ∀ value, Calls (f value) stages') : Calls (x >>= f) (stages ++ stages') := by
  intro t
  obtain ⟨out, called, t₁, hrun, hcalled, hfront, hall⟩ := hx t
  rw [run_bind, hrun]
  cases out with
  | error error =>
    -- the second part is not reached
    refine ⟨.error error, called, t₁, rfl, hcalled, hfront.trans (List.prefix_append _ _), ?_⟩
    intro value hvalue
    cases hvalue
  | ok value =>
    obtain rfl := hall value rfl
    obtain ⟨out', called', t₂, hrun', hcalled', hfront', hall'⟩ := hf value t₁
    refine ⟨out', called ++ called', t₂, hrun', ?_, ?_, fun value' hvalue => ?_⟩
    · rw [hcalled', hcalled, List.append_assoc]
    · exact List.prefix_append_right_inj _ |>.2 hfront'
    · rw [hall' value' hvalue]

end Calls

variable {σ γ ι κ κ' β : Type} [Ord κ'] [BEq κ]

/-- All that comes before the run of the blocks: the dispatcher, the blocks, and the number of
items. -/
def opening (r : CalculationRunner) (runId : RunId) (c : Calculation γ ι κ κ' β) :
    Course σ γ (Dispatcher (Block ι κ Float) κ' β × List (Block ι κ Float) × Nat) := do
  r.callNoted c.name .preExecute c.preExecute
  let items ← call .workItems c.workItems
  let maxWeight ← orFail (r.settings.blockWeight ((items.map c.weight).foldl (· + ·) 0.0))
  let splitter ← orFail (Splitter.of (items.map some) maxWeight c.weight c.groupKey)
  let t ← get
  let dispatcher ← orFail (Dispatcher.new r.settings (c.work t.state) runId)
  pure (dispatcher, splitter.blocks, items.length)

/-- All that comes after the run of the blocks, except that the calculation cleans up. -/
def closing (r : CalculationRunner) (c : Calculation γ ι κ κ' β) (result : Tally κ' β)
    (summary : Summary) : Course σ γ CalculationReport := do
  r.callNoted c.name .postExecute (c.postExecute result)
  r.callNoted c.name .postProcess c.postProcess
  let exported ← r.callNoted c.name .exportOutputs c.exportOutputs
  let t ← get
  pure ⟨c.name, summary, exported, t.timings.report⟩

/-- The run that a calculation comes to, if no stage and no division of the items fails before. -/
def undertaken? (r : CalculationRunner) (runId : RunId) (c : Calculation γ ι κ κ' β)
    (t : Trail σ γ) : Option (Undertaking σ (Block ι κ Float) κ' β) :=
  match (r.opening runId c).run.run t with
  | (.ok (d, blocks, units), t) =>
    some ⟨{ d with monitor := r.monitor.child "execute", timings := t.timings, journal := [] },
      t.transport, blocks, units⟩
  | (.error _, _) => none

/-- A calculation that has cleaned up. -/
structure CleansUp (r : CalculationRunner) (player : Player σ (Block ι κ Float) κ' β)
    (runId : RunId) (c : Calculation γ ι κ κ' β) (t : Trail σ γ) : Prop where
  /-- Stages are called in their order, and then the calculation cleans up, once. -/
  once : ∃ called, called <+: Stage.inOrder ∧
    (r.runBy player runId c t).2.called = t.called ++ (called ++ [.cleanUp])
  /-- It returns. The first failure of its stages or of the run is told, and so is the failure to
  clean up where nothing has failed before. -/
  told : ∃ settled s, ((r.stages player runId c).run.run t).1 = settled.mapError .failed ∧
    (r.runBy player runId c t).1 = (settle settled (c.cleanUp s).result).mapError .failed ∧
    (r.runBy player runId c t).2.state = (c.cleanUp s).state

section Main

variable {r : CalculationRunner} {player : Player σ (Block ι κ Float) κ' β} {runId : RunId}
  {c : Calculation γ ι κ κ' β} {t t₁ : Trail σ γ}

theorem stages_eq (r : CalculationRunner) (player : Player σ (Block ι κ Float) κ' β)
    (runId : RunId) (c : Calculation γ ι κ κ' β) : r.stages player runId c = (do
      let (dispatcher, blocks, units) ← r.opening runId c
      let (result, summary) ← r.execute player dispatcher (.lazy blocks) units
      r.closing c result summary : Course σ γ CalculationReport) := by
  simp only [stages, opening, closing, bind_assoc, pure_bind]

theorem calls_opening (r : CalculationRunner) (runId : RunId) (c : Calculation γ ι κ κ' β) :
    Calls (r.opening runId c : Course σ γ _) [.preExecute, .workItems] :=
  (calls_callNoted r c.name .preExecute c.preExecute).bind fun _ =>
    (calls_call .workItems c.workItems).bind fun _ =>
      (calls_orFail _).bind fun _ => (calls_orFail _).bind fun _ =>
        calls_get.bind fun _ => (calls_orFail _).bind fun _ => calls_pure _

omit [BEq κ] in
theorem calls_closing (r : CalculationRunner) (c : Calculation γ ι κ κ' β) (result : Tally κ' β)
    (summary : Summary) :
    Calls (r.closing c result summary : Course σ γ _)
      [.postExecute, .postProcess, .exportOutputs] :=
  (calls_callNoted r c.name .postExecute (c.postExecute result)).bind fun _ =>
    (calls_callNoted r c.name .postProcess c.postProcess).bind fun _ =>
      (calls_callNoted r c.name .exportOutputs c.exportOutputs).bind fun _ =>
        calls_get.bind fun _ => calls_pure _

/-- What comes of the stages: what comes of those before the run, or else of the run, or else of
those after it. -/
theorem run_stages (r : CalculationRunner) (player : Player σ (Block ι κ Float) κ' β)
    (runId : RunId) (c : Calculation γ ι κ κ' β) (t : Trail σ γ) :
    (∃ error called t', r.undertaken? runId c t = none ∧ called <+: Stage.inOrder ∧
        (r.stages player runId c).run.run t = (.error (.failed error), t') ∧
          t'.called = t.called ++ called) ∨
      ∃ u t', r.undertaken? runId c t = some u ∧ t'.called = t.called ++ [.preExecute, .workItems] ∧
        (r.stages player runId c).run.run t = match (u.played player).ending with
          | .finished result summary => (r.closing c result summary).run.run t'
          | .failed error => (.error (.failed error), t')
          | .crashed fault => (.error (.crashed fault), t')
          | .stalled => (.error .stalled, t') := by
  obtain ⟨out, called, t₁, hopening, hcalled, hfront, hall⟩ := calls_opening r runId c t
  rw [stages_eq, run_bind, undertaken?, hopening]
  cases out with
  | error error =>
    exact .inl ⟨error, called, t₁, rfl, hfront.trans (List.prefix_append _ _), rfl, hcalled⟩
  | ok opened =>
    obtain ⟨d, blocks, units⟩ := opened
    obtain rfl := hall _ rfl
    obtain ⟨t₂, hexecute, -, hcalled'⟩ := r.run_execute player d (.lazy blocks) units t₁
    -- no stage is called by the run itself
    refine .inr ⟨_, t₂, rfl, hcalled'.trans hcalled, ?_⟩
    simp only [Except.mapError, run_bind, hexecute, Undertaking.played]
    generalize (player _ t₁.transport (.lazy blocks) units).ending = ending
    cases ending <;> rfl

/-- Where the stages return, the calculation cleans up. -/
theorem CleansUp.of_returned {settled : Except RunError CalculationReport} {called : List Stage}
    (h : (r.stages player runId c).run.run t = (settled.mapError .failed, t₁))
    (hcalled : t₁.called = t.called ++ called) (hfront : called <+: Stage.inOrder) :
    r.CleansUp player runId c t := by
  obtain ⟨t₂, hclean, hstate, hlast⟩ := r.cleanUp_spec c settled t₁
  have hrun := runBy_of_returned h
  rw [hclean] at hrun
  refine ⟨⟨called, hfront, ?_⟩, settled, t₁.state, congrArg Prod.fst h, congrArg Prod.fst hrun, ?_⟩
  · rw [hrun, ← List.append_assoc, ← hcalled]
    exact hlast
  · rw [hrun]
    exact hstate

/-- Where a stage or the run fails, the calculation cleans up. -/
theorem CleansUp.of_failed {error : RunError} {called : List Stage}
    (h : (r.stages player runId c).run.run t = (.error (.failed error), t₁))
    (hcalled : t₁.called = t.called ++ called) (hfront : called <+: Stage.inOrder) :
    r.CleansUp player runId c t := by
  have hreturned : (r.stages player runId c).run.run t =
      ((Except.error error : Except RunError CalculationReport).mapError .failed, t₁) := h
  exact .of_returned hreturned hcalled hfront

/-- Where the stages do not return, nothing cleans up. -/
theorem not_cleansUp_of_stop {stop : Stop} (hstop : ∀ error, stop ≠ .failed error)
    (h : (r.stages player runId c).run.run t = (.error stop, t₁)) :
    r.runBy player runId c t = (.error stop, t₁) ∧ ¬r.CleansUp player runId c t := by
  constructor
  · rw [runBy, h]
    cases stop with
    | failed error => exact absurd rfl (hstop error)
    | crashed fault => rfl
    | stalled => rfl
  · rintro ⟨-, settled, s, hsettled, -⟩
    rw [h] at hsettled
    cases settled with
    | ok report => cases hsettled
    | error error => exact hstop error (Except.error.inj hsettled)

/-- A calculation cleans up exactly if its run returns. -/
theorem cleansUp_iff_returns : r.CleansUp player runId c t ↔
    ∀ u, r.undertaken? runId c t = some u → (u.played player).ending.returns = true := by
  rcases r.run_stages player runId c t with
    ⟨error, called, t', hnone, hfront, hstages, hcalled⟩ | ⟨u, t', hsome, hcalled, hstages⟩
  · exact iff_of_true (.of_failed hstages hcalled hfront) (by simp [hnone])
  · simp only [hsome, Option.some.injEq, forall_eq']
    cases hending : (u.played player).ending with
    | finished result summary =>
      simp only [hending] at hstages
      -- the stages after the run return, whether one of them fails or not
      obtain ⟨out, called, t₂, hclosing, hcalled', hfront, -⟩ :=
        calls_closing r c result summary t'
      rw [hclosing] at hstages
      rw [hcalled, List.append_assoc] at hcalled'
      exact iff_of_true (.of_returned hstages hcalled'
        ((List.prefix_append_right_inj [.preExecute, .workItems]).2 hfront)) rfl
    | failed error =>
      simp only [hending] at hstages
      exact iff_of_true (.of_failed hstages hcalled (List.prefix_append _ _)) rfl
    | crashed fault =>
      simp only [hending] at hstages
      exact iff_of_false (not_cleansUp_of_stop (by simp) hstages).2 Bool.false_ne_true
    | stalled =>
      simp only [hending] at hstages
      exact iff_of_false (not_cleansUp_of_stop (by simp) hstages).2 Bool.false_ne_true

/-- A run that crashes takes the calculation along: the last stage that is called is the one that
names the items. -/
theorem runBy_of_crashed {u : Undertaking σ (Block ι κ Float) κ' β} {fault : Fault}
    (hu : r.undertaken? runId c t = some u) (hcrashed : (u.played player).ending = .crashed fault) :
    (r.runBy player runId c t).1 = .error (.crashed fault) ∧
      (r.runBy player runId c t).2.called = t.called ++ [.preExecute, .workItems] := by
  rcases r.run_stages player runId c t with
    ⟨error, called, t', hnone, -, -, -⟩ | ⟨u', t', hsome, hcalled, hstages⟩
  · rw [hnone] at hu
    cases hu
  · obtain rfl := Option.some.inj (hsome.symm.trans hu)
    simp only [hcrashed] at hstages
    rw [(not_cleansUp_of_stop (by simp) hstages).1]
    exact ⟨rfl, hcalled⟩

/-- However its run is played, a calculation cleans up exactly if it comes to no run or to one that
returns. A run that crashes takes the calculation along. -/
theorem cleansUp_iff (r : CalculationRunner) (player : Player σ (Block ι κ Float) κ' β)
    (runId : RunId) (c : Calculation γ ι κ κ' β) (t : Trail σ γ) :
    (r.CleansUp player runId c t ↔
        ∀ u, r.undertaken? runId c t = some u → (u.played player).ending.returns = true) ∧
      ∀ u fault, r.undertaken? runId c t = some u → (u.played player).ending = .crashed fault →
        (r.runBy player runId c t).1 = .error (.crashed fault) ∧
          (r.runBy player runId c t).2.called = t.called ++ [.preExecute, .workItems] :=
  ⟨cleansUp_iff_returns, fun _ _ => runBy_of_crashed⟩

section Bearable

variable [Described κ] [TransOrd κ'] [Mergeable β] [Transport σ] {B : Type} [LawfulEqOrd κ']
  [AddCommMonoid B] [hexact : Mergeable.Exact β B]

include hexact in
/-- Over a courier, a calculation whose merges do not fault and whose limits are not too large
cleans up, unless its run comes to no end. -/
theorem cleansUp_of_mergesSafely (hplays : player.Plays) (courier : Courier σ)
    (h : ∀ u, r.undertaken? runId c t = some u →
      u.IsBearable ∧ (u.played player).ending ≠ .stalled) :
    r.CleansUp player runId c t :=
  cleansUp_iff_returns.2 fun u hu => (h u hu).1.returns (B := B) hplays courier (h u hu).2

end Bearable

end Main

/-- Two counts that cannot be added in 64 bits. -/
def tooMuch : Calculation Unit GroupKey GroupKey String Count where
  name := "too much"
  workItems _ := .pass () [.text "a", .text "b"]
  weight _ := 1.0
  groupKey item := item
  work _ task :=
    { verdict := .ofCollected (Tally.collect
        [("count", if task.args.index = 0 then .ofInt 18446744073709551615 else .ofInt 1)])
      scopes := []
      took := 0 }
  postExecute _ _ _ := .pass () ()

/-- Before the first stage of a calculation without a state. -/
def stateless : Trail Broker Unit := ⟨(), .new "rehearsal", .empty, [], []⟩

/-- What a calculation crashed with, if it did. -/
def crash? : Except Stop CalculationReport → Option Fault
  | .error (.crashed fault) => some fault
  | _ => none

theorem eq_of_crash?_eq {answer : Except Stop CalculationReport} {fault : Fault}
    (h : crash? answer = some fault) : answer = .error (.crashed fault) := by
  cases answer with
  | ok report => cases h
  | error stop =>
    cases stop with
    | failed error => cases h
    | crashed fault' => rw [Option.some.inj h]
    | stalled => cases h

/-- Every block has given a count and no stage has failed, but the control node cannot add them:
the calculation crashes and does not clean up. -/
theorem not_cleansUp_of_overflow :
    ¬forTwo.CleansUp (fun d broker pending total => d.execute 40 broker pending total)
        ⟨"rehearsal"⟩ tooMuch stateless ∧
      ∃ t', forTwo.run 40 ⟨"rehearsal"⟩ tooMuch stateless = (.error (.crashed .sum), t') ∧
        t'.called = [.preExecute, .workItems] := by
  have hcheck : crash? (forTwo.run 40 ⟨"rehearsal"⟩ tooMuch stateless).1 = some .sum ∧
      (forTwo.run 40 ⟨"rehearsal"⟩ tooMuch stateless).2.called = [.preExecute, .workItems] := by
    decide +kernel
  have hcrash := eq_of_crash?_eq hcheck.1
  refine ⟨?_, _, Prod.ext hcrash rfl, hcheck.2⟩
  -- a calculation that cleans up returns, and this one crashes
  rintro ⟨-, settled, s, -, htold, -⟩
  have hcrashed := hcrash.symm.trans htold
  cases hsettle : settle settled (tooMuch.cleanUp s).result <;> rw [hsettle] at hcrashed <;>
    cases hcrashed

/-- The run that these counts come to crashes, and so does their calculation. -/
theorem crashed_of_tooMuch : ∃ u, forTwo.undertaken? ⟨"rehearsal"⟩ tooMuch stateless = some u ∧
    (u.played fun d broker pending total => d.execute 40 broker pending total).ending =
      .crashed .sum ∧
    (forTwo.run 40 ⟨"rehearsal"⟩ tooMuch stateless).1 = .error (.crashed .sum) ∧
      (forTwo.run 40 ⟨"rehearsal"⟩ tooMuch stateless).2.called = [.preExecute, .workItems] := by
  have hcheck : (match forTwo.undertaken? ⟨"rehearsal"⟩ tooMuch stateless with
      | some u =>
        match (u.played fun d broker pending total => d.execute 40 broker pending total).ending with
        | .crashed .sum => true
        | _ => false
      | none => false) = true := by decide +kernel
  split at hcheck
  · next u hu =>
    split at hcheck
    · next hcrashed =>
      exact ⟨u, hu, hcrashed, (cleansUp_iff forTwo _ _ tooMuch stateless).2 u .sum hu hcrashed⟩
    · cases hcheck
  · cases hcheck

end CalculationRunner

end BatchRun
