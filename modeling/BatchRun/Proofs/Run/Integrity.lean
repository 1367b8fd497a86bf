import BatchRun.Proofs.Run.Course
import BatchRun.Proofs.Tally.Gathered
import BatchRun.Rehearsal.FaultyBroker
import BatchRun.Rehearsal.ScriptedTask

/-!
# A run that ends well has done all of its work once

Whatever a transport delivers, a run only ends well when every task of its plan was run once, and
succeeded, and was merged once. Forged, repeated, lost and garbled signals can make a run fail or
wait for ever. They cannot make it end well too early, and they cannot add anything to its
result, because a task is only acknowledged with its own outcome in hand.

## Main definitions

* `Plan.MergedInOrder`, `Plan.MergedByWorkers`: tallies of partial results, each merged once
* `Session.IsIntact`: a session that has done all of its work once

## Main results

* `Session.Reaches.isIntact`: a session that ends well is intact
-/

namespace BatchRun

open Std

variable {σ α κ β : Type} [Ord κ]

/-- The result of an attempt is a partial result only if it finished with that. -/
theorem Verdict.result_eq_ok_iff {verdict : Verdict κ β} {part : Tally κ β} :
    verdict.result = .ok part ↔ verdict = .finished part := by
  cases verdict <;> simp [result]

section Merged

variable [TransOrd κ] [Mergeable β]

/-- The tally of the partial results of tasks, merged whole and in the order of the tasks: it has
the keys of all parts, and with each key the values that the parts have for it, merged into the
neutral value in this order. -/
def Plan.MergedInOrder (plan : Plan α κ β) (order : List (Task α)) (result : Tally κ β) : Prop :=
  ∃ parts, List.Forall₂ (fun t part => (plan.work t).verdict = .finished part) order parts ∧
    parts.foldlM Tally.mergeTally .empty = .ok result ∧
    result.HasMerged (parts.flatMap Tally.entries)

/-- The tally of partial results that were merged value by value: the merges of each task are
those of its partial result in their order, and merges of other tasks may come in between. The
result is what these merges make, key by key. It is read out of the shared tally and merged into
that of the caller, who has merged nothing, so that each value is merged into the neutral one
twice more. Where values settle, as all do that keep the law of the neutral value, this changes
nothing. -/
def Plan.MergedByWorkers (plan : Plan α κ β) (result : Tally κ β) : Prop :=
  ∃ (merges : List (Nat × κ × β)) (shared : Tally κ β),
    (∀ m ∈ merges, ∃ t ∈ plan.tasks, t.no = m.1) ∧
    (∀ t ∈ plan.tasks, ∃ part, (plan.work t).verdict = .finished part ∧
      mergesOf t.no merges = part.entries) ∧
    Tally.empty.mergeEntries (merges.map Prod.snd) = .ok shared ∧
    shared.HasMerged (merges.map Prod.snd) ∧
    (∃ read, shared.MergedAgain read ∧ read.MergedAgain result) ∧
    (Mergeable.Settles β → result = shared)

end Merged

/-- A session that has done all work of its plan once. -/
structure Session.IsIntact [TransOrd κ] [Mergeable β] (plan : Plan α κ β) (s : Session σ α κ β)
    (result : Tally κ β) (summary : Summary) : Prop where
  /-- Every task was handed to the work function exactly once, and nothing else was. -/
  begun : s.begun.Perm plan.tasks
  /-- Every task has succeeded. -/
  finished : ∀ t ∈ plan.tasks, ∃ part, (plan.work t).verdict = .finished part
  /-- Every task was acknowledged exactly once, and its partial result was merged once. -/
  merged : ∃ order : List (Task α), order.Perm plan.tasks ∧
    s.acknowledged.map (·.taskNo) = order.map (·.no) ∧
    if plan.shares then plan.MergedByWorkers result else plan.MergedInOrder order result
  submitted : summary.tasksSubmitted = plan.args.length
  computed : summary.unitsComputed = plan.total
  total : summary.unitsTotal = plan.total
  state : summary.state = .done

namespace Plan

variable {plan : Plan α κ β}

theorem nodup_tasks (plan : Plan α κ β) : plan.tasks.Nodup :=
  List.Nodup.of_map (·.no) (by rw [map_no_tasks]; exact List.nodup_range)

/-- Tasks with the numbers of all tasks are all tasks. -/
theorem perm_tasks {tasks : List (Task α)} (hmem : ∀ t ∈ tasks, t ∈ plan.tasks)
    (hnos : (tasks.map (·.no)).Perm (List.range plan.args.length)) : tasks.Perm plan.tasks := by
  have hnodup : tasks.Nodup := List.Nodup.of_map (·.no) (hnos.nodup_iff.2 List.nodup_range)
  refine (List.perm_ext_iff_of_nodup hnodup plan.nodup_tasks).2 fun t => ⟨hmem t, fun ht => ?_⟩
  have hno : t.no ∈ tasks.map (·.no) := by
    rw [hnos.mem_iff, ← plan.map_no_tasks]
    exact List.mem_map_of_mem ht
  obtain ⟨t', ht', heq⟩ := List.mem_map.1 hno
  exact eq_of_no_eq (hmem t' ht') ht heq ▸ ht'

end Plan

namespace Run.Ledger

variable [Workload α] [TransOrd κ] [Mergeable β] {plan : Plan α κ β}
  {acked : List (Completion κ β)} {begun : List (Task α)} {r : Run σ α κ β}

/-- With nothing in flight and nothing left to submit, every task was submitted. -/
theorem nextTaskNo_eq (h : r.Ledger plan acked begun) (hpending : r.pending = []) :
    r.nextTaskNo = plan.args.length := by
  have hdrop := h.pending.symm.trans hpending
  exact Nat.le_antisymm h.le_length (List.drop_eq_nil_iff.1 hdrop)

/-- With nothing in flight and nothing left to submit, every task was acknowledged once. -/
theorem acked_perm (h : r.Ledger plan acked begun) (hpending : r.pending = [])
    (hnone : r.inFlight.isEmpty = true) :
    (acked.map (·.taskNo)).Perm (List.range plan.args.length) := by
  have hsub : (acked.map (·.taskNo)).Subperm (List.range plan.args.length) := by
    apply List.subperm_of_subset h.nodup_acked
    intro no hno
    rw [List.mem_range, ← h.nextTaskNo_eq hpending]
    exact h.lt_of_acked hno
  have hsize := h.size
  rw [SortedMap.isEmpty_iff_size.1 hnone, h.nextTaskNo_eq hpending] at hsize
  exact hsub.perm_of_length_le (by simp; omega)

/-- With nothing in flight, all places are those of tasks that are acknowledged, and no worker was
lost. -/
theorem places_perm (h : r.Ledger plan acked begun) (hnone : r.inFlight.isEmpty = true) :
    r.executor.hasLost = false ∧
      ((r.executor.floor r.commons).places plan
        ((r.executor.floor r.commons).reported r.buffered.values (acked.map (·.taskNo)))).Perm
          ((acked.map (·.taskNo)).map .settled) := by
  have hsize := h.size
  rw [SortedMap.isEmpty_iff_size.1 hnone, Nat.zero_add] at hsize
  -- these are as many places as tasks were submitted, and there are no more
  have hsub : ((acked.map (·.taskNo)).map Place.settled).Sublist
      ((r.executor.floor r.commons).places plan
        ((r.executor.floor r.commons).reported r.buffered.values (acked.map (·.taskNo)))) := by
    simp only [Floor.places, Floor.reported, List.map_append, ← List.append_assoc]
    exact List.sublist_append_right _ _
  have hlength := h.sound.books.length_le
  have hle := hsub.length_le
  simp only [List.length_map, hsize] at hle
  refine ⟨?_, (hsub.eq_of_length_le ?_).symm ▸ .refl _⟩
  · have hcomplete := h.sound.books.complete.2 (Nat.le_antisymm hlength hle)
    rwa [Bool.not_eq_true'] at hcomplete
  · simpa [hsize] using hlength

/-- With all tasks acknowledged, every work function was called once. -/
theorem begun_perm (h : r.Ledger plan acked begun) (hpending : r.pending = [])
    (hnone : r.inFlight.isEmpty = true) : begun.Perm plan.tasks := by
  apply Plan.perm_tasks (fun t ht => (h.sound.books.begun_mem t ht).1)
  apply (List.perm_ext_iff_of_nodup h.sound.books.begun_nodup List.nodup_range).2
  intro no
  rw [List.mem_range, ← h.nextTaskNo_eq hpending]
  constructor
  · intro hno
    obtain ⟨t, ht, rfl⟩ := List.mem_map.1 hno
    exact (h.sound.books.begun_mem t ht).2
  · intro hno
    have hacked : no ∈ acked.map (·.taskNo) := by
      rw [(h.acked_perm hpending hnone).mem_iff, List.mem_range, ← h.nextTaskNo_eq hpending]
      exact hno
    -- only a work function that was called leads to an outcome
    have hplace := (h.places_perm hnone).2.mem_iff.2 (List.mem_map_of_mem hacked)
    exact (h.sound.books.begun_iff (.settled no) hplace).1 rfl

/-- The tasks of the completions, in their order. -/
theorem exists_order (h : r.Ledger plan acked begun) :
    ∃ order : List (Task α), acked.map (·.taskNo) = order.map (·.no) ∧
      (∀ t ∈ order, t ∈ plan.tasks) ∧
      List.Forall₂ (fun t c => plan.resultOf t = .ok c.part) order acked := by
  have hhonest := h.honest
  clear h
  -- one task for each completion, in the order in which they were told
  induction acked with
  | nil => exact ⟨[], rfl, by simp, .nil⟩
  | cons c rest ih =>
    obtain ⟨⟨t, ht, hno, -, hresult⟩, hrest⟩ := List.forall_mem_cons.1 hhonest
    obtain ⟨order, hnos, hmem, hall⟩ := ih hrest
    refine ⟨t :: order, ?_, ?_, .cons hresult hall⟩
    · rw [List.map_cons, List.map_cons, hno, hnos]
    · exact List.forall_mem_cons.2 ⟨ht, hmem⟩

/-- What workers have merged, once all tasks are acknowledged. -/
theorem mergedByWorkers (h : r.Ledger plan acked begun) (hpending : r.pending = [])
    (hnone : r.inFlight.isEmpty = true)
    (hfinished : ∀ t ∈ plan.tasks, ∃ part, (plan.work t).verdict = .finished part)
    {shared : SharedTally κ β} (hshared : r.commons.shared = some shared)
    {snapshot result : Tally κ β} (hsnapshot : shared.tally.snapshot = .ok snapshot)
    (hresult : Tally.empty.mergeTally snapshot = .ok result) : plan.MergedByWorkers result := by
  obtain ⟨hstays, hplaces⟩ := h.places_perm hnone
  obtain ⟨merges, hmerges, hlt, hrest⟩ := h.sound.books.merged
    (by rwa [Bool.not_eq_true']) shared.tally (by simp [Executor.floor, hshared])
  have hread : shared.tally.MergedAgain snapshot := Tally.mergeTally_empty_eq_ok_iff.1 hsnapshot
  refine ⟨merges, shared.tally, ?_, ?_, hmerges, Tally.hasMerged_of_mergeEntries hmerges,
    ⟨snapshot, hread, Tally.mergeTally_empty_eq_ok_iff.1 hresult⟩, fun hsettles => ?_⟩
  · intro m hm
    have hno : m.1 ∈ plan.tasks.map (·.no) := by
      rw [plan.map_no_tasks, List.mem_range, ← h.nextTaskNo_eq hpending]
      exact hlt m hm
    exact List.mem_map.1 hno
  · intro t ht
    obtain ⟨part, hpart⟩ := hfinished t ht
    have hacked : t.no ∈ acked.map (·.taskNo) := by
      rw [(h.acked_perm hpending hnone).mem_iff, ← plan.map_no_tasks]
      exact List.mem_map_of_mem ht
    -- nothing of a settled task is left to merge, so that its merges are all of its values
    have hplace := hrest (.settled t.no) (hplaces.mem_iff.2 (List.mem_map_of_mem hacked)) t ht rfl
    rw [Plan.entriesOf_ok (Verdict.result_eq_ok_iff.2 hpart)] at hplace
    exact ⟨part, hpart, by simpa [Place.settled] using hplace⟩
  · have hself := Tally.snapshot_of_settles hsettles hmerges
    obtain rfl := Except.ok.inj (hself.symm.trans hsnapshot)
    exact Except.ok.inj (hresult.symm.trans hself)

end Run.Ledger

section Absorbed

variable [TransOrd κ] [Mergeable β] {plan : Plan α κ β}

omit [TransOrd κ] [Mergeable β] in
/-- A task that gives a result has succeeded. -/
theorem Plan.exists_finished {t : Task α} {part : Option (Tally κ β)}
    (h : plan.resultOf t = .ok part) : ∃ part, (plan.work t).verdict = .finished part := by
  cases hverdict : (plan.work t).verdict.result with
  | error cause => rw [resultOf_error hverdict] at h; cases h
  | ok part => exact ⟨part, Verdict.result_eq_ok_iff.1 hverdict⟩

omit [TransOrd κ] [Mergeable β] in
/-- Tasks that were acknowledged have succeeded. -/
theorem Plan.finished_of_forall₂ {order : List (Task α)} {acked : List (Completion κ β)}
    (hall : List.Forall₂ (fun t c => plan.resultOf t = .ok c.part) order acked) :
    ∀ t ∈ order, ∃ part, (plan.work t).verdict = .finished part := by
  induction hall with
  | nil => simp
  | cons hpart _ ih => exact List.forall_mem_cons.2 ⟨exists_finished hpart, ih⟩

/-- Where results are shared, the caller has nothing to merge. -/
theorem Plan.foldlM_absorb_eq {order : List (Task α)} {acked : List (Completion κ β)}
    (hshares : plan.shares = true)
    (hall : List.Forall₂ (fun t c => plan.resultOf t = .ok c.part) order acked)
    (start : Tally κ β) : (acked.map (·.part)).foldlM Tally.absorb start = .ok start := by
  induction hall with
  | nil => rfl
  | @cons t c _ _ hpart _ ih =>
    have hnone : c.part = none := by
      cases hverdict : (plan.work t).verdict.result with
      | error cause => rw [resultOf_error hverdict] at hpart; cases hpart
      | ok part =>
        rw [resultOf_ok hverdict, if_pos hshares] at hpart
        exact (Except.ok.inj hpart).symm
    rw [List.map_cons, hnone, List.foldlM_cons]
    exact ih

/-- Where results travel back, the caller merges them in the order of the completions. -/
theorem Plan.exists_parts {order : List (Task α)} {acked : List (Completion κ β)}
    (hshares : plan.shares = false)
    (hall : List.Forall₂ (fun t c => plan.resultOf t = .ok c.part) order acked) :
    ∃ parts, List.Forall₂ (fun t part => (plan.work t).verdict = .finished part) order parts ∧
      ∀ start : Tally κ β,
        (acked.map (·.part)).foldlM Tally.absorb start = parts.foldlM Tally.mergeTally start := by
  induction hall with
  | nil => exact ⟨[], .nil, fun _ => rfl⟩
  | @cons t c _ _ hpart _ ih =>
    obtain ⟨parts, hparts, hfold⟩ := ih
    cases hverdict : (plan.work t).verdict.result with
    | error cause => rw [resultOf_error hverdict] at hpart; cases hpart
    | ok part =>
      rw [resultOf_ok hverdict, hshares] at hpart
      have hsome : c.part = some part := (Except.ok.inj hpart).symm
      refine ⟨part :: parts, .cons (Verdict.result_eq_ok_iff.1 hverdict) hparts, ?_⟩
      intro start
      rw [List.map_cons, hsome, List.foldlM_cons, List.foldlM_cons]
      simp only [hfold]
      rfl

end Absorbed

namespace Run.Ledger

variable [Workload α] [TransOrd κ] [Mergeable β] {plan : Plan α κ β}
  {acked : List (Completion κ β)} {begun : List (Task α)} {r : Run σ α κ β}

/-- If nothing is in flight and no task can be submitted, none is left. -/
theorem pending_eq_nil (h : r.Ledger plan acked begun) (hlimit : 0 < plan.limit)
    (hfull : r.IsFull) (hnone : r.inFlight.isEmpty = true) : r.pending = [] := by
  apply hfull.resolve_right
  intro hspent
  have hpermits := h.permits
  rw [hspent, SortedMap.isEmpty_iff_size.1 hnone] at hpermits
  exact Nat.ne_of_lt hlimit hpermits

/-- With nothing in flight and nothing left to submit, the completions are those of all tasks. -/
theorem exists_order_perm (h : r.Ledger plan acked begun) (hpending : r.pending = [])
    (hnone : r.inFlight.isEmpty = true) :
    ∃ order : List (Task α), order.Perm plan.tasks ∧
      acked.map (·.taskNo) = order.map (·.no) ∧
      List.Forall₂ (fun t c => plan.resultOf t = .ok c.part) order acked := by
  obtain ⟨order, hnos, hmem, hall⟩ := h.exists_order
  exact ⟨order, Plan.perm_tasks hmem (hnos ▸ h.acked_perm hpending hnone), hnos, hall⟩

/-- With nothing in flight and nothing left to submit, all tasks have succeeded. -/
theorem finished (h : r.Ledger plan acked begun) (hpending : r.pending = [])
    (hnone : r.inFlight.isEmpty = true) :
    ∀ t ∈ plan.tasks, ∃ part, (plan.work t).verdict = .finished part := by
  obtain ⟨order, horder, -, hall⟩ := h.exists_order_perm hpending hnone
  exact fun t ht => Plan.finished_of_forall₂ hall t (horder.mem_iff.2 ht)

end Run.Ledger

section Main

variable [TransOrd κ] [Mergeable β] [Workload α] {s : Session σ α κ β} {result : Tally κ β}
  {summary : Summary}

/-- A live run with nothing left to tell has done all work of its plan once. -/
theorem Run.Live.intact {plan : Plan α κ β} (hlimit : 0 < plan.limit)
    (h : s.run.Live plan s.acknowledged s.begun)
    (hmerged : (s.acknowledged.map (·.part)).foldlM Tally.absorb .empty = .ok s.result)
    (hphase : s.run.phase = .replied (.ok none))
    (hconclude : s.run.conclude s.result = .finished result summary) :
    s.IsIntact plan result summary := by
  obtain ⟨hledger, hstate, hfull, hnone, hcomputed⟩ := h.of_told hphase
  have hpending := hledger.pending_eq_nil hlimit hfull hnone
  have hsuccess := hledger.finished hpending hnone
  obtain ⟨order, horder, hnos, hall⟩ := hledger.exists_order_perm hpending hnone
  have hshares := hledger.sound.shares
  simp only [Executor.floor] at hshares
  -- the summary is that of the run, and only the result depends on who has merged
  suffices hresult : summary = s.run.summary ∧
      if plan.shares then plan.MergedByWorkers result else plan.MergedInOrder order result by
    obtain ⟨rfl, hresult⟩ := hresult
    exact ⟨hledger.begun_perm hpending hnone, hsuccess, ⟨order, horder, hnos, hresult⟩,
      hledger.nextTaskNo_eq hpending, hcomputed, hledger.total, hstate⟩
  rw [conclude, accumulator, if_pos hledger.shows] at hconclude
  cases hshared : s.run.commons.shared with
  | none =>
    rw [hshared] at hshares
    simp only [hshared] at hconclude
    obtain ⟨rfl, rfl⟩ := Ending.finished.inj hconclude
    -- the caller has merged what came with the completions
    obtain ⟨parts, hparts, hfold⟩ := Plan.exists_parts hshares.symm hall
    have hresult := (hfold .empty).symm.trans hmerged
    have hrow : Tally.empty.mergeEntries (parts.flatMap Tally.entries) = .ok s.result :=
      (Tally.foldlM_mergeTally _ _).symm.trans hresult
    rw [← hshares]
    exact ⟨rfl, parts, hparts, hresult, Tally.hasMerged_of_mergeEntries hrow⟩
  | some shared =>
    rw [hshared] at hshares
    -- the caller has merged nothing, and gets what the workers have merged
    have hempty : s.result = .empty :=
      (Except.ok.inj ((Plan.foldlM_absorb_eq hshares.symm hall .empty).symm.trans hmerged)).symm
    simp only [hshared, hempty] at hconclude
    split at hconclude
    · cases hconclude
    · next snapshot hsnapshot =>
      split at hconclude
      · cases hconclude
      · next merged hmerge =>
        obtain ⟨rfl, rfl⟩ := Ending.finished.inj hconclude
        rw [← hshares]
        exact ⟨rfl, hledger.mergedByWorkers hpending hnone hsuccess hshared hsnapshot hmerge⟩

/-- A session that ends well has done all of its work once, whatever the transport delivers and
in whatever order everything happens. -/
theorem Session.Reaches.isIntact [Transport σ] {d : Dispatcher α κ β} {transport : σ}
    {pending : Pending α} {total : Nat} {run : Run σ α κ β} (hlimit : 0 < d.settings.limit)
    (hstart : d.start transport pending total = .ok run) (hreaches : Session.Reaches run s)
    (hending : s.ending? = some (.finished result summary)) :
    s.IsIntact (d.plan pending total) result summary := by
  have hstands := Session.Reaches.stands (fun _ => True) hreaches
    ((Dispatcher.live_of_start hstart).imp_right fun hlive => ⟨hlive, trivial⟩)
    (fun _ _ _ _ _ _ _ => trivial) fun _ _ _ _ _ _ _ => trivial
  cases hstands.ends hending with
  | concluded _ hlive _ hresult hphase hconclude =>
    exact hlive.intact hlimit hresult hphase hconclude

end Main

/-- Two scripted tasks of two units each, under a limit of two. -/
def Dispatcher.twoTasks (accumulation : Accumulation) :
    Dispatcher ScriptedTask String Count where
  settings := { Settings.usual 2 with accumulation }
  work := ScriptedTask.perform
  runId := ⟨"rehearsal"⟩
  monitor := .named "dispatch"
  timings := .empty
  queued := [.plain "first" ⟨2, by decide, by decide⟩, .plain "second" ⟨2, by decide, by decide⟩]
  journal := []

/-- A broker that delivers every signal twice. -/
def FaultyBroker.doubling : FaultyBroker :=
  .of { FaultPlan.faithful with otherwise := .copies [.faithful, .faithful] } (.new "rehearsal")

/-- Two tasks whose signals come twice end well, and the session is intact. -/
theorem Session.isIntact_of_twoTasks :
    ∃ (run : Run FaultyBroker ScriptedTask String Count)
      (s : Session FaultyBroker ScriptedTask String Count) (result : Tally String Count)
      (summary : Summary),
      0 < (Dispatcher.twoTasks .inWorker).settings.limit ∧
        (Dispatcher.twoTasks .inWorker).start FaultyBroker.doubling .none 4 = .ok run ∧
        Session.Reaches run s ∧ s.ending? = some (.finished result summary) ∧
        s.IsIntact ((Dispatcher.twoTasks .inWorker).plan .none 4) result summary := by
  obtain ⟨run, s, ending, hstart, hreaches, hending, hfinished⟩ :=
    (Dispatcher.twoTasks .inWorker).exists_session FaultyBroker.doubling .none 4 40 3
      (fun | (.finished .., _) => true | _ => false) (by decide +kernel) fun _ => rfl
  cases ending with
  | finished result summary =>
    exact ⟨run, s, result, summary, by decide, hstart, hreaches, hending,
      hreaches.isIntact (by decide) hstart hending⟩
  | _ => cases hfinished

end BatchRun
