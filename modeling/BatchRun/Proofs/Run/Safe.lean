import Mathlib.Data.List.Flatten
import BatchRun.Proofs.Run.Course

/-!
# Runs without faults

Workers merge the values of their own tasks, each in its order, and what one of them merges next
is always one of the values of the plan that were not merged yet. So if no merge faults in
whatever order the values of the plan are merged, no worker is ever lost and the control node
never crashes.

## Main definitions

* `Plan.entries`, `Plan.MergesSafely`: the values of all tasks, and that no merge of them faults

## Main results

* `mergesOf_perm`: merges are those of the single tasks
* `Sound.hasLost_steps`: no worker is lost
* `Run.Live.not_faults`: the control node does not crash
-/

namespace BatchRun

open Std

variable {σ α κ β : Type} [Ord κ]

/-- The values that all tasks give to merge. -/
def Plan.entries (plan : Plan α κ β) : List (κ × β) := plan.tasks.flatMap plan.entriesOf

/-- No merge faults, in whatever order the values of all tasks are merged. -/
def Plan.MergesSafely [TransOrd κ] [Mergeable β] (plan : Plan α κ β) : Prop :=
  ∀ entries : List (κ × β), entries.Perm plan.entries →
    ∃ t, Tally.empty.mergeEntries entries = .ok t

omit [Ord κ] in
/-- Without the merges of another task those of a task are still there. -/
theorem mergesOf_filter_of_ne (merges : List (Nat × κ × β)) {no no' : Nat} (h : no' ≠ no) :
    mergesOf no' (merges.filter fun m => !decide (m.1 = no)) = mergesOf no' merges := by
  rw [mergesOf, mergesOf, List.filter_filter]
  congr 1
  apply List.filter_congr
  intro m _
  by_cases hm : m.1 = no'
  · simp [hm, h]
  · simp [hm]

omit [Ord κ] in
/-- Merges are those of the single tasks, if each belongs to one of them. -/
theorem mergesOf_perm {nos : List Nat} (hnodup : nos.Nodup) {merges : List (Nat × κ × β)}
    (h : ∀ m ∈ merges, m.1 ∈ nos) :
    (merges.map Prod.snd).Perm (nos.flatMap fun no => mergesOf no merges) := by
  -- one task after the other, with the merges of the others
  induction nos generalizing merges with
  | nil =>
    have hnil : merges = [] := List.eq_nil_iff_forall_not_mem.2 fun m hm => by simpa using h m hm
    rw [hnil]
    rfl
  | cons no rest ih =>
    obtain ⟨hnot, hrest⟩ := List.nodup_cons.1 hnodup
    have hother : ∀ no' ∈ rest,
        mergesOf no' (merges.filter fun m => !decide (m.1 = no)) = mergesOf no' merges :=
      fun no' hno' => mergesOf_filter_of_ne merges fun heq => hnot (heq ▸ hno')
    have hmem : ∀ m ∈ merges.filter fun m => !decide (m.1 = no), m.1 ∈ rest := by
      intro m hm
      obtain ⟨hm, hne⟩ := List.mem_filter.1 hm
      exact (List.mem_cons.1 (h m hm)).resolve_left (by simpa using hne)
    have hsplit := (List.filter_append_perm (fun m => decide (m.1 = no)) merges).symm.map Prod.snd
    rw [List.map_append] at hsplit
    apply hsplit.trans
    rw [List.flatMap_cons]
    refine List.Perm.append (.refl _) ((ih hrest hmem).trans ?_)
    rw [List.flatMap_congr hother]

section Safe

variable [TransOrd κ] [Mergeable β] {plan : Plan α κ β}

/-- Some of the values of a plan are merged without a fault. -/
theorem Plan.MergesSafely.exists_of_subperm (h : plan.MergesSafely) {entries : List (κ × β)}
    (hsub : entries.Subperm plan.entries) : ∃ t, Tally.empty.mergeEntries entries = .ok t := by
  obtain ⟨entries', hperm, hsublist⟩ := hsub
  -- with the rest behind them they are all values, and a fault among them would stay one
  obtain ⟨rest, hrest⟩ := hsublist.exists_perm_append
  obtain ⟨t, ht⟩ := h (entries ++ rest) ((hperm.symm.append_right rest).trans hrest.symm)
  obtain ⟨s, hs, -⟩ := Tally.exists_of_mergeEntries_append ht
  exact ⟨s, hs⟩

omit [TransOrd κ] [Mergeable β] in
/-- Merges are some of the values of a plan, if those of each task are the first of its own. -/
theorem Plan.subperm_entries {merges : List (Nat × κ × β)}
    (hmem : ∀ m ∈ merges, m.1 < plan.args.length)
    (hfirst : ∀ t ∈ plan.tasks, ∃ rest, mergesOf t.no merges ++ rest = plan.entriesOf t) :
    (merges.map Prod.snd).Subperm plan.entries := by
  have hnodup : (plan.tasks.map (·.no)).Nodup := by
    rw [plan.map_no_tasks]
    exact List.nodup_range
  have hnos : ∀ m ∈ merges, m.1 ∈ plan.tasks.map (·.no) := by
    intro m hm
    rw [plan.map_no_tasks]
    exact List.mem_range.2 (hmem m hm)
  have hperm := mergesOf_perm hnodup hnos
  rw [List.flatMap_map] at hperm
  refine ⟨_, hperm.symm, List.Sublist.flatMap_right plan.tasks ?_⟩
  intro t ht
  obtain ⟨rest, hrest⟩ := hfirst t ht
  rw [← hrest]
  exact List.sublist_append_left _ _

/-- The next value of a task is merged without a fault. -/
theorem Books.exists_mergeInto {submitted : Nat} {begun : List (Task α)}
    {places : List (Place κ β)} {shared : Tally κ β} {no : Nat} {b : Bool} {k : κ} {delta : β}
    {rest : List (κ × β)} (hsafe : plan.MergesSafely) (hle : submitted ≤ plan.args.length)
    (h : Books plan submitted true (some shared) begun (⟨no, b, (k, delta) :: rest⟩ :: places)) :
    ∃ shared', shared.mergeInto k delta = .ok shared' := by
  obtain ⟨merges, hmerges, hlt, hrest⟩ := h.merged rfl shared rfl
  -- the merges so far and the next one are some of the values of the plan
  have hno : no < submitted := h.lt _ List.mem_cons_self
  have hmem : ∀ m ∈ merges ++ [(no, k, delta)], m.1 < plan.args.length := by
    intro m hm
    rcases List.mem_append.1 hm with hm | hm
    · exact Nat.lt_of_lt_of_le (hlt m hm) hle
    · rw [List.mem_singleton.1 hm]
      exact Nat.lt_of_lt_of_le hno hle
  have hfirst : ∀ t ∈ plan.tasks, ∃ rest,
      mergesOf t.no (merges ++ [(no, k, delta)]) ++ rest = plan.entriesOf t := by
    intro t ht
    by_cases hsubmitted : t.no < submitted
    · obtain ⟨p, hp, hpno⟩ := h.exists_place rfl hsubmitted
      have htask := hrest p hp t ht hpno.symm
      rcases List.mem_cons.1 hp with rfl | hp'
      · refine ⟨rest, ?_⟩
        rw [← hpno, mergesOf_concat_self, List.append_assoc]
        exact htask
      · have hne : no ≠ t.no := hpno ▸ h.no_ne hp'
        refine ⟨p.rest, ?_⟩
        rw [mergesOf_concat_of_ne _ hne, ← hpno]
        exact htask
    · -- nothing is merged for a task before it is submitted
      refine ⟨plan.entriesOf t, ?_⟩
      rw [mergesOf_concat_of_ne _ (by omega), mergesOf_eq_nil fun m hm => ?_, List.nil_append]
      have := hlt m hm
      omega
  obtain ⟨t, ht⟩ := hsafe.exists_of_subperm (Plan.subperm_entries hmem hfirst)
  rw [List.map_append, List.map_singleton, Tally.mergeEntries_append hmerges] at ht
  obtain ⟨shared', hmerge, -⟩ := Tally.exists_of_mergeEntries_cons ht
  exact ⟨shared', hmerge⟩

end Safe

namespace Sound

variable [TransOrd κ] [Mergeable β] [Workload α] [Transport σ] {plan : Plan α κ β}
  {submitted : Nat} {aside : List (Outcome κ β)} {taken : List Nat} {begun new : List (Task α)}

/-- A worker whose task has begun is not lost at its next station. -/
theorem isLost_work {queue : List (Task α)} {w : Worker α κ β} {workers : List (Worker α κ β)}
    {commons : Commons σ κ β} (hsafe : plan.MergesSafely) (hle : submitted ≤ plan.args.length)
    (hbusy : w.isBusy = true)
    (hstays : (⟨queue, w :: workers, commons⟩ : Floor σ α κ β).hasLost = false)
    (h : Sound plan submitted aside taken begun ⟨queue, w :: workers, commons⟩) :
    (w.step plan.shop commons).1.isLost = false := by
  cases w, hbusy using Worker.busyCases with
  | reporting outcome => rfl
  | signalling taskNo said => rfl
  | running task ends =>
    have hshares : (commons.passUntil ends).shared.isSome = plan.shares := h.shares
    rcases Worker.conclude_fst plan task hshares with ⟨part, -, -, hw⟩ | ⟨-, hw⟩
    · rw [Worker.step, hw]
      rfl
    · rw [Worker.step, hw]
      rfl
  | merged task => rfl
  | merging task k delta rest =>
    obtain ⟨-, hshares, -⟩ := (List.forall_mem_cons.1 h.honest).1
    obtain ⟨shared, hshared⟩ := Option.isSome_iff_exists.1 (h.shares.trans hshares)
    simp only at hshared
    have hbooks := h.books.perm (Floor.places_cons_perm plan queue _ workers commons _)
    simp only [hstays, hshared] at hbooks
    obtain ⟨tally, hmerge⟩ := Books.exists_mergeInto hsafe hle hbooks
    simp only [Worker.step, hshared, SharedTally.mergeInto, hmerge]
    rfl

/-- No worker is lost in a step of the floor. -/
theorem hasLost_step {f g : Floor σ α κ β} (hsafe : plan.MergesSafely)
    (hle : submitted ≤ plan.args.length) (hstep : Floor.Step plan.shop f new g)
    (hstays : f.hasLost = false) (h : Sound plan submitted aside taken begun f) :
    g.hasLost = false := by
  cases hstep with
  | take task queue before after commons => simpa [Floor.hasLost, Worker.isLost] using hstays
  | leave before after commons => simpa [Floor.hasLost, Worker.isLost] using hstays
  | begin task queue before after commons =>
    simpa [Floor.hasLost, Worker.isLost, Worker.begin] using hstays
  | work w queue before after commons hbusy =>
    -- which worker is which does not matter, so that this one is looked at first
    have hfront : (⟨queue, w :: (before ++ after), commons⟩ : Floor σ α κ β).hasLost = false := by
      simp only [Floor.hasLost] at hstays ⊢
      rw [← hstays]
      exact List.perm_middle.symm.any_eq
    have hnext := (h.perm List.perm_middle).isLost_work hsafe hle hbusy hfront
    simp only [Floor.hasLost, List.any_append, List.any_cons] at hstays ⊢
    simp only [Bool.or_eq_false_iff] at hstays ⊢
    exact ⟨hstays.1, hnext, hstays.2.2⟩
  | desert _ hlost =>
    rw [hstays] at hlost
    cases hlost

/-- No worker is lost in a row of steps. -/
theorem hasLost_steps {f g : Floor σ α κ β} (hsafe : plan.MergesSafely)
    (hle : submitted ≤ plan.args.length) (hrow : Floor.Steps plan.shop f new g)
    (hstays : f.hasLost = false) (h : Sound plan submitted aside taken begun f) :
    g.hasLost = false := by
  apply h.invariant (motive := fun f => f.hasLost = false) hrow hstays
  intro begun f new g hstep hsound hhere
  exact hsound.hasLost_step hsafe hle hstep hhere

end Sound

namespace Run.Live

variable [TransOrd κ] [Mergeable β] [Workload α] [Transport σ] {plan : Plan α κ β}
  {told : List (Completion κ β)} {begun : List (Task α)} {r r' : Run σ α κ β}

/-- The control node does not crash when queued tasks are given a chance to run. -/
theorem not_faults (hsafe : plan.MergesSafely) (h : r.Live plan told begun) (fault : Fault) :
    ¬r.Faults fault := by
  rintro ⟨executor, commons, hdrive⟩
  have hsound := h.ledger.sound
  rw [h.ledger.shop] at hdrive
  cases hexecutor : r.executor with
  | pool p =>
    rw [hexecutor] at hdrive
    cases hdrive
  | sequential queue closed =>
    rw [hexecutor] at hdrive hsound
    cases queue with
    | nil => cases hdrive
    | cons task rest =>
      -- the task would leave its worker lost, at the end of a row of steps
      have hfault : (Worker.runTask plan.shop task r.commons).1 = some fault :=
        congrArg Prod.fst hdrive
      obtain ⟨w, hrow, -, hlost⟩ := Worker.steps_runTask plan.shop task rest r.commons
      have hhere := hsound.hasLost_steps hsafe h.ledger.le_length hrow rfl
      have hgone := hlost (by rw [hfault]; simp)
      simp [Floor.hasLost, hgone] at hhere

/-- No worker is lost in a turn of a live run. -/
theorem hasLost_turn (hsafe : plan.MergesSafely) (h : r.Live plan told begun)
    (hstays : r.executor.hasLost = false) (hturn : r.Turn r') : r'.executor.hasLost = false := by
  cases hturn with
  | steps new hrow _ _ _ =>
    rw [h.ledger.shop] at hrow
    exact h.ledger.sound.hasLost_steps hsafe h.ledger.le_length hrow hstays
  | idle _ _ _ _ hlost => exact hlost.trans hstays
  | received payload _ _ _ hlost => exact hlost.trans hstays

end Run.Live

end BatchRun
