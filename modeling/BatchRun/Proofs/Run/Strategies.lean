import Mathlib.Data.List.Permutation
import BatchRun.Proofs.Run.Safe
import BatchRun.Proofs.Run.Verdict
import BatchRun.Proofs.Tally.Exact

/-!
# Strategies can be exchanged

The mode, the accumulation, the limit and the order of moves decide where tasks are run, how many
of them at once, and who merges what they have computed. They do not decide what comes of it. If
all tasks succeed with the units that are expected, and no merge faults in whatever order the
values are merged, every run has the same result and counts the same.

Only a limit on waiting takes part in the outcome: a run that is told to wait no longer than some
time fails if a task takes longer than that.

## Main definitions

* `Plan.Flawless`: nothing goes wrong with the tasks of a plan
* `Plan.Alike`: plans of the same work
* `Plan.Tolerates`: how a run of a flawless plan may end

## Main results

* `Session.IsIntact.exists_perm`: a result is the merge of all values in some order
* `Session.Reaches.tolerates`: a run of a flawless plan ends well, if it is not told to stop waiting
* `Session.Reaches.agree`: two runs of the same work have equal results
-/

namespace BatchRun

open Std

variable {σ α κ β : Type} [Ord κ]

namespace Plan

/-- Plans of the same work: the same arguments, of which the same is made, and the same total.
How the work is done may differ. -/
structure Alike (plan plan' : Plan α κ β) : Prop where
  args : plan.args = plan'.args
  total : plan.total = plan'.total
  verdict : ∀ no args, plan.args[no]? = some args →
    (plan.work (plan.taskOf no args)).verdict = (plan'.work (plan'.taskOf no args)).verdict

/-- Nothing goes wrong with the tasks of a plan: all of them succeed, they have the units that are
expected, and no merge of their values faults. -/
structure Flawless [TransOrd κ] [Mergeable β] [Workload α] (plan : Plan α κ β) : Prop where
  succeeds : ∀ t ∈ plan.tasks, plan.succeeds t = true
  units : plan.units = plan.total
  merges : plan.MergesSafely

/-- How a run of a flawless plan may end: well, or because it waits no longer, or at once because
more tasks may be in flight than can be counted. -/
inductive Tolerates (plan : Plan α κ β) : Ending κ β → Prop
  | finished (result : Tally κ β) (summary : Summary) : Tolerates plan (.finished result summary)
  | timeout (milliseconds : Nat) (htimeout : plan.channel.timeout = some milliseconds) :
      Tolerates plan (.failed (.signalTimeout plan.channel.runId milliseconds))
  | overloaded (hlimit : mostPermits < plan.limit) :
      Tolerates plan (.crashed (.permits mostPermits))

namespace Alike

variable {plan plan' : Plan α κ β}

/-- Plans of the same work have the same values to merge. -/
theorem entries_eq (h : plan.Alike plan') : plan.entries = plan'.entries := by
  have hmap : plan.tasks.map plan.entriesOf = plan'.tasks.map plan'.entriesOf := by
    refine List.ext_getElem? fun no => ?_
    simp only [tasks, List.getElem?_map, List.getElem?_mapIdx, ← h.args]
    cases hargs : plan.args[no]? with
    | none => rfl
    | some args => simp only [Option.map_some, entriesOf, h.verdict no args hargs]
  rw [entries, entries, List.flatMap_def, List.flatMap_def, hmap]

/-- The work of a flawless plan is flawless in every plan of it. -/
theorem flawless [TransOrd κ] [Mergeable β] [Workload α] (h : plan.Alike plan')
    (hplan : plan.Flawless) : plan'.Flawless where
  succeeds := by
    intro t ht
    obtain ⟨args, hargs, heq⟩ := mem_tasks_iff.1 ht
    rw [← h.args] at hargs
    have hsucceeds := hplan.succeeds _ (taskOf_mem hargs)
    rw [succeeds, h.verdict t.no args hargs] at hsucceeds
    rw [succeeds, heq]
    exact hsucceeds
  units := by
    have hunits := hplan.units
    rw [units, h.args, h.total] at hunits
    exact hunits
  merges := by
    have hmerges := hplan.merges
    rw [MergesSafely, h.entries_eq] at hmerges
    exact hmerges

theorem fits [Workload α] (h : plan.Alike plan') (hplan : plan.Fits) : plan'.Fits :=
  ⟨h.args ▸ hplan.units_lt, h.args ▸ hplan.length_le⟩

end Alike

end Plan

section Merged

variable [TransOrd κ] [Mergeable β] {plan : Plan α κ β} {order : List (Task α)}
  {result : Tally κ β}

omit [TransOrd κ] [Mergeable β] in
/-- The values of partial results are those of their tasks. -/
theorem Plan.flatMap_entries {parts : List (Tally κ β)}
    (h : List.Forall₂ (fun t part => (plan.work t).verdict = .finished part) order parts) :
    parts.flatMap Tally.entries = order.flatMap plan.entriesOf := by
  induction h with
  | nil => rfl
  | cons hpart _ ih =>
    rw [List.flatMap_cons, List.flatMap_cons, ih,
      entriesOf_ok (Verdict.result_eq_ok_iff.2 hpart)]

/-- What the caller has merged is the merge of all values in some order. -/
theorem Plan.MergedInOrder.exists_perm (horder : order.Perm plan.tasks)
    (h : plan.MergedInOrder order result) :
    ∃ entries : List (κ × β), entries.Perm plan.entries ∧
      Tally.empty.mergeEntries entries = .ok result := by
  obtain ⟨parts, hparts, hfold, -⟩ := h
  rw [Tally.foldlM_mergeTally, flatMap_entries hparts] at hfold
  exact ⟨_, horder.flatMap_right _, hfold⟩

variable {B : Type} [AddCommMonoid B] [hexact : Mergeable.Exact β B]

include hexact in
/-- What workers have merged is the merge of all values in some order. -/
theorem Plan.MergedByWorkers.exists_perm (h : plan.MergedByWorkers result) :
    ∃ entries : List (κ × β), entries.Perm plan.entries ∧
      Tally.empty.mergeEntries entries = .ok result := by
  obtain ⟨merges, shared, hmem, hparts, hmerges, -, -, hself⟩ := h
  have hnodup : (plan.tasks.map (·.no)).Nodup := by
    rw [plan.map_no_tasks]
    exact List.nodup_range
  have hperm := mergesOf_perm hnodup fun m hm => List.mem_map.2 (hmem m hm)
  have hvalues : ∀ t ∈ plan.tasks, mergesOf t.no merges = plan.entriesOf t := by
    intro t ht
    obtain ⟨part, hpart, hentries⟩ := hparts t ht
    rw [hentries, entriesOf_ok (Verdict.result_eq_ok_iff.2 hpart)]
  rw [List.flatMap_map, List.flatMap_congr hvalues] at hperm
  obtain rfl := hself fun v _ => Mergeable.Exact.merge_neutral v
  exact ⟨_, hperm, hmerges⟩

include hexact in
/-- The result of a session that has done all of its work once is the merge of all values in some
order. -/
theorem Session.IsIntact.exists_perm {s : Session σ α κ β} {summary : Summary}
    (h : s.IsIntact plan result summary) :
    ∃ entries : List (κ × β), entries.Perm plan.entries ∧
      Tally.empty.mergeEntries entries = .ok result := by
  obtain ⟨order, horder, -, hmerged⟩ := h.merged
  split at hmerged
  · exact hmerged.exists_perm (B := B)
  · exact hmerged.exists_perm horder

end Merged

section Absorbed

variable [TransOrd κ] [Mergeable β] [Workload α] {plan : Plan α κ β}
  {acked : List (Completion κ β)} {begun : List (Task α)} {r : Run σ α κ β}

/-- What the caller was told is merged without a fault. -/
theorem Run.Ledger.exists_absorbed (hsafe : plan.MergesSafely) (h : r.Ledger plan acked begun) :
    ∃ result, (acked.map (·.part)).foldlM Tally.absorb .empty = .ok result := by
  obtain ⟨order, hnos, hmem, hall⟩ := h.exists_order
  cases hshares : plan.shares with
  | true => exact ⟨.empty, Plan.foldlM_absorb_eq hshares hall .empty⟩
  | false =>
    obtain ⟨parts, hparts, hfold⟩ := Plan.exists_parts hshares hall
    have hnodup : order.Nodup := List.Nodup.of_map (·.no) (hnos ▸ h.nodup_acked)
    -- the tasks acknowledged are some of all tasks, and so are their values
    obtain ⟨order', hperm, hsublist⟩ := List.subperm_of_subset hnodup hmem
    have hsub : (parts.flatMap Tally.entries).Subperm plan.entries := by
      rw [Plan.flatMap_entries hparts]
      exact ⟨_, hperm.flatMap_right _, hsublist.flatMap _⟩
    obtain ⟨result, hresult⟩ := hsafe.exists_of_subperm hsub
    refine ⟨result, ?_⟩
    rw [hfold, Tally.foldlM_mergeTally, hresult]

/-- The caller merges the next completion without a fault. -/
theorem Run.Live.absorb_ne_error {told : List (Completion κ β)} {completion : Completion κ β}
    {result : Tally κ β} {fault : Fault} (hsafe : plan.MergesSafely)
    (h : r.Live plan told begun) (hphase : r.phase = .replied (.ok (some completion)))
    (hresult : (told.map (·.part)).foldlM Tally.absorb .empty = .ok result) :
    result.absorb completion.part ≠ .error fault := by
  intro hfault
  have hledger := h.ledger
  have hcurrent : r.current = [completion] := by rw [current, hphase]; rfl
  rw [hcurrent] at hledger
  obtain ⟨merged, hmerged⟩ := hledger.exists_absorbed hsafe
  -- a fault would also be one in the merge of all completions, this one being the last
  have hlast : [completion.part].foldlM Tally.absorb result = .error fault := by
    simp [hfault]
  rw [List.map_append, List.foldlM_append, hresult] at hmerged
  cases hlast.symm.trans hmerged

variable {B : Type} [LawfulEqOrd κ] [AddCommMonoid B] [hexact : Mergeable.Exact β B]

include hexact in
/-- A run that has told everything has a result. -/
theorem Run.Live.exists_conclude_eq {told : List (Completion κ β)} {result : Tally κ β}
    (h : r.Live plan told begun) (hphase : r.phase = .replied (.ok none))
    (hresult : (told.map (·.part)).foldlM Tally.absorb .empty = .ok result) :
    ∃ result', r.conclude result = .finished result' r.summary := by
  obtain ⟨hledger, -⟩ := h.of_told hphase
  rw [conclude, accumulator, if_pos hledger.shows]
  cases hshared : r.commons.shared with
  | none => exact ⟨result, rfl⟩
  | some shared =>
    have hshares : plan.shares = true := by
      have hsome := hledger.sound.shares
      simp only [Executor.floor, hshared] at hsome
      exact hsome.symm
    obtain ⟨order, -, -, hall⟩ := hledger.exists_order
    have hempty : result = .empty :=
      Except.ok.inj (hresult.symm.trans (Plan.foldlM_absorb_eq hshares hall .empty))
    simp only [hempty, Tally.snapshot_eq (B := B), Tally.mergeTally_empty (B := B)]
    exact ⟨_, rfl⟩

end Absorbed

section Main

variable [TransOrd κ] [Mergeable β] [Workload α]

/-- The tasks of a flawless plan give no reason for an error. -/
theorem Plan.Flawless.not_exact {plan : Plan α κ β} {error : RunError} (h : plan.Flawless) :
    ¬plan.Exact error := by
  intro hexact
  cases hexact with
  | incomplete _ hunits => exact absurd h.units (Nat.ne_of_lt hunits)
  | tooManyUnits t refused _ hunits =>
    rw [succeedingUnits_eq h.succeeds] at hunits
    exact absurd h.units.symm (Nat.ne_of_lt hunits)
  | taskFailed t cause ht hcause =>
    have hsucceeds := h.succeeds t ht
    rw [Plan.succeeds, hcause.succeeds_eq] at hsucceeds
    cases hsucceeds

/-- Where no merge faults, a session over a courier is trusted and loses no worker. -/
theorem Session.Reaches.stands_safe [Transport σ] {d : Dispatcher α κ β} {transport : σ}
    {pending : Pending α} {total : Nat} {run : Run σ α κ β} {s : Session σ α κ β}
    (courier : Courier σ) (hfits : (d.plan pending total).Fits)
    (hsafe : (d.plan pending total).MergesSafely)
    (hstart : d.start transport pending total = .ok run) (hreaches : Session.Reaches run s) :
    s.Stands (d.plan pending total) fun r =>
      r.Trusted (d.plan pending total) courier ∧ r.executor.hasLost = false := by
  refine hreaches.stands _ ?_ ?_ ?_
  · refine (Dispatcher.live_of_start hstart).imp_right fun hlive =>
      ⟨hlive, (Dispatcher.trusted_of_start courier hstart).ask, ?_⟩
    obtain ⟨mode, executor, opened, hexecutor, -, rfl⟩ := Dispatcher.exists_of_start hstart
    obtain ⟨phase, hask⟩ := (d.fresh pending total mode executor opened).ask_eq
    rw [hask]
    exact Executor.hasLost_of_ofMode hexecutor
  · exact fun r r' told begun hlive h hturn =>
      ⟨h.1.turn hfits hlive hturn, hlive.hasLost_turn hsafe h.2 hturn⟩
  · intro r told begun completion _ h _
    obtain ⟨phase, hask⟩ := r.ask_eq
    refine ⟨h.1.ask, ?_⟩
    rw [hask]
    exact h.2

variable {B : Type} [LawfulEqOrd κ] [AddCommMonoid B] [hexact : Mergeable.Exact β B]

include hexact in
/-- Over a courier, a run of a flawless plan ends well, unless it is told to wait no longer than
some time or to have more tasks in flight than can be counted. -/
theorem Session.Reaches.tolerates [Transport σ] {d : Dispatcher α κ β} {transport : σ}
    {pending : Pending α} {total : Nat} {run : Run σ α κ β} {s : Session σ α κ β}
    {ending : Ending κ β} (courier : Courier σ) (hlimit : 0 < d.settings.limit)
    (hfits : (d.plan pending total).Fits) (hflawless : (d.plan pending total).Flawless)
    (hstart : d.start transport pending total = .ok run) (hreaches : Session.Reaches run s)
    (hending : s.ending? = some ending) :
    (d.plan pending total).Tolerates ending ∧ ∀ result summary, ending = .finished result summary →
      s.IsIntact (d.plan pending total) result summary := by
  cases (hreaches.stands_safe courier hfits hflawless.merges hstart).ends hending with
  | overloaded hmost => exact ⟨.overloaded hmost, by simp⟩
  | crashed fault r told begun hlive _ hfaults =>
    exact absurd hfaults (hlive.not_faults hflawless.merges fault)
  | unmerged completion fault hlive hresult hphase hfault =>
    exact absurd hfault (hlive.absorb_ne_error hflawless.merges hphase hresult)
  | concluded _ hlive _ hresult hphase hconclude =>
    obtain ⟨result, heq⟩ := hlive.exists_conclude_eq (B := B) hphase hresult
    rw [heq] at hconclude
    obtain rfl := hconclude
    refine ⟨.finished result s.run.summary, ?_⟩
    intro result' summary hsame
    obtain ⟨rfl, rfl⟩ := Ending.finished.inj hsame
    exact hlive.intact hlimit hresult hphase heq
  | failed error r told begun hlive h hrefuses _ =>
    rcases h.1.exact_of_refuses hlimit hfits hlive h.2 hrefuses with
      hexact | ⟨milliseconds, htimeout, rfl⟩
    · exact absurd hexact hflawless.not_exact
    · exact ⟨.timeout milliseconds htimeout, by simp⟩

include hexact in
/-- Two runs of the same work over brokers, in whatever mode, with whatever accumulation, under
whatever limits, and in whatever order everything happens: both end well, unless they are told to
wait no longer than some time, and then their results are equal, and so is what they count. -/
theorem Session.Reaches.agree {d₁ d₂ : Dispatcher α κ β} {broker₁ broker₂ : Broker}
    {pending₁ pending₂ : Pending α} {total₁ total₂ : Nat} {run₁ run₂ : Run Broker α κ β}
    {s₁ s₂ : Session Broker α κ β} {ending₁ ending₂ : Ending κ β}
    (hlimit₁ : 0 < d₁.settings.limit) (hlimit₂ : 0 < d₂.settings.limit)
    (hfits : (d₁.plan pending₁ total₁).Fits) (hflawless : (d₁.plan pending₁ total₁).Flawless)
    (halike : (d₁.plan pending₁ total₁).Alike (d₂.plan pending₂ total₂))
    (hstart₁ : d₁.start broker₁ pending₁ total₁ = .ok run₁)
    (hstart₂ : d₂.start broker₂ pending₂ total₂ = .ok run₂)
    (hreaches₁ : Session.Reaches run₁ s₁) (hreaches₂ : Session.Reaches run₂ s₂)
    (hending₁ : s₁.ending? = some ending₁) (hending₂ : s₂.ending? = some ending₂) :
    (d₁.plan pending₁ total₁).Tolerates ending₁ ∧ (d₂.plan pending₂ total₂).Tolerates ending₂ ∧
      ∀ result₁ summary₁ result₂ summary₂, ending₁ = .finished result₁ summary₁ →
        ending₂ = .finished result₂ summary₂ →
          result₁ = result₂ ∧ summary₁.tasksSubmitted = summary₂.tasksSubmitted ∧
            summary₁.unitsComputed = summary₂.unitsComputed ∧
            summary₁.unitsTotal = summary₂.unitsTotal := by
  obtain ⟨htolerates₁, hintact₁⟩ := hreaches₁.tolerates (B := B) Broker.courier hlimit₁ hfits
    hflawless hstart₁ hending₁
  obtain ⟨htolerates₂, hintact₂⟩ := hreaches₂.tolerates (B := B) Broker.courier hlimit₂
    (halike.fits hfits) (halike.flawless hflawless) hstart₂ hending₂
  refine ⟨htolerates₁, htolerates₂, ?_⟩
  intro result₁ summary₁ result₂ summary₂ heq₁ heq₂
  have h₁ := hintact₁ result₁ summary₁ heq₁
  have h₂ := hintact₂ result₂ summary₂ heq₂
  -- both results are merges of the same values
  obtain ⟨entries₁, hperm₁, hmerged₁⟩ := h₁.exists_perm (B := B)
  obtain ⟨entries₂, hperm₂, hmerged₂⟩ := h₂.exists_perm (B := B)
  rw [halike.entries_eq] at hperm₁
  refine ⟨Tally.eq_of_perm (B := B) (hperm₁.trans hperm₂.symm) hmerged₁ hmerged₂, ?_, ?_, ?_⟩
  · rw [h₁.submitted, h₂.submitted, halike.args]
  · rw [h₁.computed, h₂.computed, halike.total]
  · rw [h₁.total, h₂.total, halike.total]

end Main

/-- A number as a count, which is zero in place of one that is too large. -/
def ScriptedTask.count (n : Nat) : Count := (Ranged.ofInt? n).getD Mergeable.neutral

/-- A scripted task of one unit that takes some time for its result. -/
def ScriptedTask.slow (took : Nat) (result : List (String × Count)) : ScriptedTask :=
  { plain "slow" (count 1) with took, result := some result }

/-- Scripted tasks that are run under given settings. -/
def Dispatcher.scripted (settings : Settings Float) (queued : List ScriptedTask) :
    Dispatcher ScriptedTask String Count :=
  { twoTasks .controlNode with settings, queued }

/-- To find out whether a plan merges safely it is enough to try all orders. -/
theorem Plan.mergesSafely_of_permutations [TransOrd κ] [Mergeable β] {plan : Plan α κ β}
    (h : ∀ entries ∈ plan.entries.permutations',
      (Tally.empty.mergeEntries entries).toBool = true) : plan.MergesSafely := by
  intro entries hperm
  have hok := h entries (List.mem_permutations'.2 hperm)
  cases hmerged : Tally.empty.mergeEntries entries with
  | ok t => exact ⟨t, rfl⟩
  | error fault =>
    rw [hmerged] at hok
    cases hok

open ScriptedTask in
/-- Two tasks that count with a common key, one after the other on the control node. -/
def Dispatcher.inTurn : Dispatcher ScriptedTask String Count :=
  scripted (.usual 1)
    [slow 20 [("a", count 1)], slow 10 [("a", count 2), ("b", count 1)]]

/-- The same tasks at once, on threads that merge what they have computed. -/
def Dispatcher.atOnce : Dispatcher ScriptedTask String Count :=
  { inTurn with settings := { Settings.usual 2 with mode := .threads, accumulation := .inWorker } }

/-- Two tasks in turn and at once: the results are equal. -/
theorem Session.agree_of_inTurn :
    ∃ (run₁ run₂ : Run Broker ScriptedTask String Count)
      (s₁ s₂ : Session Broker ScriptedTask String Count)
      (result₁ result₂ : Tally String Count) (summary₁ summary₂ : Summary),
      0 < Dispatcher.inTurn.settings.limit ∧ 0 < Dispatcher.atOnce.settings.limit ∧
        (Dispatcher.inTurn.plan .none 2).Fits ∧ (Dispatcher.inTurn.plan .none 2).Flawless ∧
        (Dispatcher.inTurn.plan .none 2).Alike (Dispatcher.atOnce.plan .none 2) ∧
        Dispatcher.inTurn.start (Broker.new "rehearsal") .none 2 = .ok run₁ ∧
        Dispatcher.atOnce.start (Broker.new "rehearsal") .none 2 = .ok run₂ ∧
        Session.Reaches run₁ s₁ ∧ Session.Reaches run₂ s₂ ∧
        s₁.ending? = some (.finished result₁ summary₁) ∧
        s₂.ending? = some (.finished result₂ summary₂) ∧ result₁ = result₂ := by
  have hfits : (Dispatcher.inTurn.plan .none 2).Fits := ⟨by decide, by decide⟩
  have hflawless : (Dispatcher.inTurn.plan .none 2).Flawless :=
    ⟨by decide +kernel, by decide, Plan.mergesSafely_of_permutations (by decide +kernel)⟩
  have halike : (Dispatcher.inTurn.plan .none 2).Alike (Dispatcher.atOnce.plan .none 2) :=
    ⟨rfl, rfl, fun _ _ _ => rfl⟩
  obtain ⟨run₁, s₁, ending₁, hstart₁, hreaches₁, hending₁, hfinished₁⟩ :=
    Dispatcher.inTurn.exists_session (Broker.new "rehearsal") .none 2 60 4
      (fun | (.finished .., _) => true | _ => false) (by decide +kernel) fun _ => rfl
  obtain ⟨run₂, s₂, ending₂, hstart₂, hreaches₂, hending₂, hfinished₂⟩ :=
    Dispatcher.atOnce.exists_session (Broker.new "rehearsal") .none 2 60 4
      (fun | (.finished .., _) => true | _ => false) (by decide +kernel) fun _ => rfl
  have hagree := hreaches₁.agree (by decide) (by decide) hfits hflawless halike hstart₁ hstart₂
    hreaches₂ hending₁ hending₂
  split at hfinished₁
  · next result₁ summary₁ _ heq₁ =>
    split at hfinished₂
    · next result₂ summary₂ _ heq₂ =>
      obtain ⟨rfl, rfl⟩ := Prod.mk.inj heq₁
      obtain ⟨rfl, rfl⟩ := Prod.mk.inj heq₂
      exact ⟨run₁, run₂, s₁, s₂, result₁, result₂, summary₁, summary₂, by decide, by decide, hfits,
        hflawless, halike, hstart₁, hstart₂, hreaches₁, hreaches₂, hending₁, hending₂,
        (hagree.2.2 _ _ _ _ rfl rfl).1⟩
    · cases hfinished₂
  · cases hfinished₁

open ScriptedTask in
/-- A task that takes longer than a signal is waited for, which does not matter on the control
node. -/
def Dispatcher.late : Dispatcher ScriptedTask String Count :=
  scripted
    { Settings.usual 1 with
      mode := .sequential
      signaling := { Signaling.usual with timeout := some 10 } }
    [slow 1000 [("a", count 1)]]

/-- The same task on a thread. -/
def Dispatcher.tooLate : Dispatcher ScriptedTask String Count :=
  { late with settings := { late.settings with mode := .threads } }

/-- Where a signal is not waited for without end, strategies cannot be exchanged: one and the same
task ends well on the control node, and makes the run fail on a thread. -/
theorem Session.not_agree_of_late :
    0 < Dispatcher.late.settings.limit ∧ 0 < Dispatcher.tooLate.settings.limit ∧
      (Dispatcher.late.plan .none 1).Fits ∧ (Dispatcher.late.plan .none 1).Flawless ∧
      (Dispatcher.late.plan .none 1).Alike (Dispatcher.tooLate.plan .none 1) ∧
      ∃ (run₁ run₂ : Run Broker ScriptedTask String Count)
        (s₁ s₂ : Session Broker ScriptedTask String Count)
        (result : Tally String Count) (summary : Summary),
        Dispatcher.late.start (Broker.new "rehearsal") .none 1 = .ok run₁ ∧
        Dispatcher.tooLate.start (Broker.new "rehearsal") .none 1 = .ok run₂ ∧
        Session.Reaches run₁ s₁ ∧ Session.Reaches run₂ s₂ ∧
        s₁.ending? = some (.finished result summary) ∧
        s₂.ending? = some (.failed (.signalTimeout ⟨"rehearsal"⟩ 10)) := by
  refine ⟨by decide, by decide, ⟨by decide, by decide⟩,
    ⟨by decide +kernel, by decide, Plan.mergesSafely_of_permutations (by decide +kernel)⟩,
    ⟨rfl, rfl, fun _ _ _ => rfl⟩, ?_⟩
  obtain ⟨run₁, s₁, ending₁, hstart₁, hreaches₁, hending₁, hfinished⟩ :=
    Dispatcher.late.exists_session (Broker.new "rehearsal") .none 1 40 3
      (fun | (.finished .., _) => true | _ => false) (by decide +kernel) fun _ => rfl
  obtain ⟨run₂, s₂, ending₂, hstart₂, hreaches₂, hending₂, hfailed⟩ :=
    Dispatcher.tooLate.exists_session (Broker.new "rehearsal") .none 1 40 3
      (fun | (.failed (.signalTimeout ⟨"rehearsal"⟩ 10), _) => true | _ => false)
      (by decide +kernel) fun _ => rfl
  split at hfinished
  · next result summary _ heq₁ =>
    split at hfailed
    · next _ heq₂ =>
      obtain ⟨rfl, rfl⟩ := Prod.mk.inj heq₁
      obtain ⟨rfl, rfl⟩ := Prod.mk.inj heq₂
      exact ⟨run₁, run₂, s₁, s₂, result, summary, hstart₁, hstart₂, hreaches₁, hreaches₂,
        hending₁, hending₂⟩
    · cases hfailed
  · cases hfinished

end BatchRun
