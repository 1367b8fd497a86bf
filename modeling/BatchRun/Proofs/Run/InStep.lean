import BatchRun.Proofs.Run.Sequential
import BatchRun.Proofs.Run.Strategies
import BatchRun.Proofs.Tally.Placewise

/-!
# Sessions that keep step with a plain loop

The loop over all tasks of a plan, and a session whose tasks are run on the control node: whatever
the session has come to, the loop comes to it as well. What is merged lies with the caller, or with
the shared tally, and is in both cases what the loop has merged after the same tasks.

## Main definitions

* `Session.TakesTurns`: how a session stands whose tasks come in turn
* `Session.InStep`: what the loop says about a session

## Main results

* `TakesTurns.step`: every step keeps a session in turn
* `TakesTurns.inStep`: such a session keeps step with the loop
-/

namespace BatchRun

open Std

variable {σ α κ β : Type} [Ord κ] [TransOrd κ] [Mergeable β] [Workload α]

omit [TransOrd κ] [Mergeable β] [Workload α] in
/-- Tasks of a plan with the same numbers are the same tasks. -/
theorem Plan.eq_of_map_no_eq {plan : Plan α κ β} {tasks tasks' : List (Task α)}
    (h : ∀ t ∈ tasks, t ∈ plan.tasks) (h' : ∀ t ∈ tasks', t ∈ plan.tasks)
    (hnos : tasks.map (·.no) = tasks'.map (·.no)) : tasks = tasks' := by
  have hlength : tasks.length = tasks'.length := by simpa using congrArg List.length hnos
  refine List.ext_getElem hlength fun i hi hi' => ?_
  have hno := List.getElem_of_eq hnos (by rwa [List.length_map])
  rw [List.getElem_map, List.getElem_map] at hno
  exact eq_of_no_eq (h _ (List.getElem_mem hi)) (h' _ (List.getElem_mem hi')) hno

omit [TransOrd κ] [Mergeable β] [Workload α] in
/-- A caller is told of one completion at most. -/
theorem Run.current_cases (r : Run σ α κ β) :
    r.current = [] ∨ ∃ completion, r.current = [completion] := by
  rw [current]
  split
  · next acknowledged _ => cases acknowledged <;> simp
  · next last _ => cases last <;> simp
  · next last _ => cases last <;> simp
  · exact .inl rfl

namespace Run.InTurn

variable {plan : Plan α κ β} {told : List (Completion κ β)} {begun done queue first : List (Task α)}
  {hand : Option (Task α)} {task : Task α} {r r' : Run Broker α κ β} {result merged : Tally κ β}

/-- The tasks that are done are the first ones of the plan. -/
theorem done_prefix (h : r.InTurn plan done hand queue) : done <+: plan.tasks :=
  (List.prefix_append done _).trans (h.submitted ▸ List.take_prefix _ _)

/-- The tasks that are done have given the results that were told. -/
theorem forall₂_done (hlive : r.Live plan told begun) (h : r.InTurn plan done hand queue) :
    List.Forall₂ (fun t c => plan.resultOf t = .ok c.part) done (told ++ r.current) := by
  obtain ⟨order, hnos, hmem, hall⟩ := hlive.ledger.exists_order
  rwa [Plan.eq_of_map_no_eq hmem (fun t ht => h.done_prefix.subset ht)
    (hnos.symm.trans (h.map_no_done hlive))] at hall

/-- The tasks that are done have succeeded, with units for which there is room. -/
theorem succeed_done (hlive : r.Live plan told begun) (h : r.InTurn plan done hand queue) :
    (∀ t ∈ done, plan.succeeds t = true) ∧ Plan.unitsOfAll done ≤ plan.total := by
  constructor
  · intro t ht
    obtain ⟨part, hpart⟩ := Plan.finished_of_forall₂ (h.forall₂_done hlive) t ht
    rw [Plan.succeeds, hpart]
    rfl
  · rw [← h.computed, ← hlive.ledger.total]
    exact r.progress.computed_le

/-- The loop gets through the first tasks that are done, if their values can be merged. -/
theorem looped_eq (hlive : r.Live plan told begun) (h : r.InTurn plan done hand queue)
    {rest : List (Task α)} (hfirst : first <+: done) (hrest : plan.tasks = first ++ rest)
    (hmerged : Tally.empty.mergeEntries (first.flatMap plan.entriesOf) = .ok merged) :
    plan.looped = (plan.loop (Plan.unitsOfAll first) merged rest).after first := by
  obtain ⟨hsucceed, hunits⟩ := h.succeed_done hlive
  have hfew : Plan.unitsOfAll first ≤ Plan.unitsOfAll done :=
    (hfirst.sublist.map _).sum_le_sum fun _ _ => Nat.zero_le _
  rw [Plan.looped, hrest, Plan.loop_append (fun t ht => hsucceed t (hfirst.subset ht)) (by omega)
    hmerged, Nat.zero_add]

/-- What the caller has merged, or what is shared, is what the loop has merged after the tasks that
the caller was told. -/
theorem exists_merged (hlive : r.Live plan told begun) (h : r.InTurn plan done hand queue)
    (hresult : (told.map (·.part)).foldlM Tally.absorb .empty = .ok result) :
    ∃ merged, Tally.empty.mergeEntries ((done.take told.length).flatMap plan.entriesOf) =
      .ok merged ∧ (plan.shares = false → merged = result) := by
  cases hshares : plan.shares with
  | true =>
    obtain ⟨shared, hshared⟩ := Option.isSome_iff_exists.1 (hlive.ledger.sound.shares.trans hshares)
    have hmerged := h.shared shared hshared
    rw [← List.take_append_drop told.length done, List.append_assoc, List.flatMap_append] at hmerged
    obtain ⟨merged, hfirst, -⟩ := Tally.exists_of_mergeEntries_append hmerged
    exact ⟨merged, hfirst, by simp⟩
  | false =>
    have htold := List.forall₂_take_append _ told _ (h.forall₂_done hlive)
    obtain ⟨parts, hparts, hfold⟩ := Plan.exists_parts hshares htold
    refine ⟨result, ?_, fun _ => rfl⟩
    rw [← Plan.flatMap_entries hparts, ← Tally.foldlM_mergeTally, ← hfold, hresult]

/-- Where there is nothing to tell, the loop has come as far as the run. -/
theorem exists_looped_eq (hlive : r.Live plan told begun) (h : r.InTurn plan done hand queue)
    (hresult : (told.map (·.part)).foldlM Tally.absorb .empty = .ok result)
    (hcurrent : r.current = []) {rest : List (Task α)} (hrest : plan.tasks = done ++ rest) :
    ∃ merged, Tally.empty.mergeEntries (done.flatMap plan.entriesOf) = .ok merged ∧
      (plan.shares = false → merged = result) ∧
      plan.looped = (plan.loop r.progress.computed merged rest).after done := by
  have hlength := congrArg List.length (h.map_no_done hlive)
  rw [hcurrent, List.append_nil, List.length_map, List.length_map] at hlength
  obtain ⟨merged, hmerged, hsame⟩ := h.exists_merged hlive hresult
  rw [hlength, List.take_length] at hmerged
  refine ⟨merged, hmerged, hsame, ?_⟩
  rw [h.computed]
  exact h.looped_eq hlive List.prefix_rfl hrest hmerged

/-- What is in hand or queued comes next in the plan. -/
theorem exists_tasks_eq (h : r.InTurn plan done hand queue) :
    ∃ rest, plan.tasks = done ++ (hand.toList ++ queue ++ rest) := by
  refine ⟨plan.tasks.drop r.nextTaskNo, ?_⟩
  rw [← List.append_assoc, ← h.submitted, List.take_append_drop]

/-- Tasks were told in their order. -/
theorem map_no_told (hlive : r.Live plan told begun) (h : r.InTurn plan done hand queue) :
    told.map (·.taskNo) = List.range told.length := by
  have hdone : told.map (·.taskNo) <+: done.map (·.no) := by
    rw [← h.map_no_done hlive, List.map_append]
    exact List.prefix_append _ _
  have hall := hdone.trans (h.done_prefix.map _)
  rw [plan.map_no_tasks] at hall
  have hle := hall.length_le
  rw [List.length_map, List.length_range] at hle
  rw [List.prefix_iff_eq_take.1 hall, List.length_map, List.take_range, Nat.min_eq_left hle]

/-- The values of the next task are merged, if those of all tasks that the loop runs are. -/
theorem exists_merge_next (hlive : r.Live plan told begun) (h : r.InTurn plan done none queue)
    (hmerges : plan.MergesInTurn)
    (task : Task α) (rest : List (Task α)) (shared : SharedTally κ β)
    (hqueue : queue = task :: rest) (hshared : r.commons.shared = some shared) :
    ∃ tally, shared.tally.mergeEntries (plan.entriesOf task) = .ok tally := by
  have hshares : plan.shares = true := by
    rw [← hlive.ledger.sound.shares, Executor.floor, hshared]
    rfl
  obtain ⟨later, htasks⟩ := h.exists_tasks_eq
  rw [hqueue, Option.toList_none, List.nil_append, List.cons_append] at htasks
  have hdone := h.shared shared hshared
  rw [Option.toList_none, List.append_nil] at hdone
  -- the loop runs the next task after those that are done
  obtain ⟨more, hran⟩ :=
    plan.exists_ran_loop (Plan.unitsOfAll done) shared.tally task (rest ++ later)
  obtain ⟨merged, hmerged⟩ := hmerges hshares
  rw [h.looped_eq hlive List.prefix_rfl htasks hdone, Looped.ran_after, hran, List.flatMap_append,
    Tally.mergeEntries_append hdone, List.flatMap_cons] at hmerged
  obtain ⟨tally, htally, -⟩ := Tally.exists_of_mergeEntries_append hmerged
  exact ⟨tally, htally⟩

end Run.InTurn

namespace Session

variable {plan : Plan α κ β} {s t : Session Broker α κ β}

/-- How a session on the control node stands: the tasks of its run come in turn, or it has failed
as the loop does. -/
inductive TakesTurns (plan : Plan α κ β) (s : Session Broker α κ β) : Prop
  | live (done : List (Task α)) (hand : Option (Task α)) (queue : List (Task α))
      (hlive : s.run.Live plan s.acknowledged s.begun) (hturn : s.run.InTurn plan done hand queue)
      (hbegun : s.begun = done ++ hand.toList)
      (hresult : (s.acknowledged.map (·.part)).foldlM Tally.absorb .empty = .ok s.result)
  | failed (error : RunError) (hphase : s.run.phase = .replied (.error error))
      (hexecutor : s.run.executor = .sequential [] true)
      (hacknowledged : s.acknowledged.map (·.taskNo) = List.range s.acknowledged.length)
      (hlooped : plan.looped = ⟨s.begun, .ok (.error error)⟩)

/-- What the control node does with the task in hand keeps a session in turn. -/
theorem TakesTurns.control_of_hand (hfits : plan.Fits) {run : Run Broker α κ β}
    {done queue : List (Task α)} {task : Task α}
    (hlive : s.run.Live plan s.acknowledged s.begun)
    (hturn : s.run.InTurn plan done (some task) queue) (hbegun : s.begun = done ++ [task])
    (hresult : (s.acknowledged.map (·.part)).foldlM Tally.absorb .empty = .ok s.result)
    (hmove : s.run.control? = some run) :
    ({ s with run, begun := s.begun ++ s.run.begins .control } : Session Broker α κ β).TakesTurns
      plan := by
  obtain ⟨since, hphase⟩ := hturn.awaits.1 rfl
  have hbegins : s.run.begins .control = [] := by simp [Run.begins, Run.drives, hphase]
  have hcurrent : s.run.current = [] := by rw [Run.current, hphase]
  obtain ⟨rest, htasks⟩ := hturn.exists_tasks_eq
  rw [Option.toList_some, List.append_assoc, List.singleton_append] at htasks
  obtain ⟨merged, -, -, hlooped⟩ := hturn.exists_looped_eq hlive hresult hcurrent htasks
  obtain ⟨run', hrun, hcases⟩ := hturn.control?_cases hfits hlive
  obtain rfl := Option.some.inj (hmove.symm.trans hrun)
  obtain ⟨closed, hexecutor⟩ := hturn.executor
  rw [hbegins, List.append_nil]
  rcases hcases with ⟨cause, hcause, hfailed⟩ | ⟨part, hpart, hmore, hfailed⟩ |
    ⟨⟨completion, hfilling⟩, hnext⟩
  · rw [Plan.loop_failed hcause] at hlooped
    refine .failed _ hfailed.phase (by rw [hfailed.executor, hexecutor]; rfl)
      (hturn.map_no_told hlive) ?_
    rw [hlooped, hbegun]
    rfl
  · rw [Plan.loop_refused hpart hmore] at hlooped
    refine .failed _ hfailed.phase (by rw [hfailed.executor, hexecutor]; rfl)
      (hturn.map_no_told hlive) ?_
    rw [hlooped, hbegun]
    rfl
  · have hlive' := (hlive.control? hmove).live (by simp [hfilling]) (by simp [hfilling])
    rw [hbegins, List.append_nil] at hlive'
    exact .live (done ++ [task]) none queue hlive' hnext (by simpa using hbegun) hresult

/-- What the control node does with no task in hand keeps a session in turn. -/
theorem TakesTurns.control_of_none (hlimit : 0 < plan.limit)
    (hmerges : plan.MergesInTurn)
    {run : Run Broker α κ β} {done queue : List (Task α)}
    (hlive : s.run.Live plan s.acknowledged s.begun) (hturn : s.run.InTurn plan done none queue)
    (hbegun : s.begun = done)
    (hresult : (s.acknowledged.map (·.part)).foldlM Tally.absorb .empty = .ok s.result)
    (hmove : s.run.control? = some run) :
    ({ s with run, begun := s.begun ++ s.run.begins .control } : Session Broker α κ β).TakesTurns
      plan := by
  rcases hturn.control?_of_none hlimit hlive (hturn.exists_merge_next hlive hmerges) hmove with
    ⟨hand, queue', hlive', hbegins, hnext⟩ | ⟨hphase, hbegins, rfl, hmissing, hfailed⟩
  · refine .live done hand queue' hlive' hnext ?_ hresult
    simp only [hbegins, hbegun]
  · have hcurrent : s.run.current = [] := by rw [Run.current, hphase]
    obtain ⟨merged, -, -, hlooped⟩ := hturn.exists_looped_eq hlive hresult hcurrent
      (List.append_nil plan.tasks).symm
    obtain ⟨closed, hexecutor⟩ := hturn.executor
    rw [Plan.loop, if_pos hmissing] at hlooped
    refine .failed _ hfailed.phase (by rw [hfailed.executor, hexecutor]; rfl)
      (hturn.map_no_told hlive) ?_
    rw [hlooped, hbegins, hbegun]
    simp [Looped.after]

/-- Every step of a session on the control node keeps it in turn. -/
theorem TakesTurns.step (hlimit : 0 < plan.limit) (hfits : plan.Fits)
    (hmerges : plan.MergesInTurn)
    (hstep : Step s t) (h : s.TakesTurns plan) : t.TakesTurns plan := by
  cases h with
  | live done hand queue hlive hturn hbegun hresult =>
    obtain ⟨closed, hexecutor⟩ := hturn.executor
    cases hstep with
    | @move m run hrun =>
      cases m with
      | worker index =>
        simp [Run.move?, Run.worker?, hexecutor, Executor.step] at hrun
      | expire =>
        rw [Run.move?, hturn.expire?_eq_none hfits hlive] at hrun
        cases hrun
      | control =>
        cases hand with
        | some task => exact control_of_hand hfits hlive hturn hbegun hresult hrun
        | none =>
          exact control_of_none hlimit hmerges hlive hturn (by simpa using hbegun) hresult hrun
    | @absorb completion result hphase hresult' =>
      obtain ⟨rfl, hasked⟩ := hturn.ask hphase
      refine .live done none queue (hlive.ask hphase) hasked hbegun ?_
      have hlast : [completion.part].foldlM Tally.absorb s.result = .ok result := by
        simpa using hresult'
      rw [List.map_append, List.foldlM_append, hresult]
      exact hlast
  | failed error hphase hexecutor =>
    cases hstep with
    | @move m run hrun =>
      cases m <;> simp [Run.move?, Run.worker?, Run.control?, Run.expire?, hphase, hexecutor,
        Executor.step] at hrun
    | absorb hphase' =>
      rw [hphase] at hphase'
      cases hphase'

/-- A session that keeps step with the loop over all tasks of a plan. -/
structure InStep (plan : Plan α κ β) (s : Session Broker α κ β) : Prop where
  /-- Tasks are acknowledged in their order. -/
  acknowledged : s.acknowledged.map (·.taskNo) = List.range s.acknowledged.length
  /-- The work functions that were called are those that the loop calls, in its order. -/
  begun : s.begun <+: plan.looped.ran
  /-- A signal that is awaited is there, and none of its task has come before. -/
  arrived : ∀ since, s.run.phase = .awaiting since → ∃ signal, s.run.incoming? = some signal
  /-- A session that is over has ended as the loop does, with the same calls. -/
  ending : ∀ ending, s.ending? = some ending →
    ending.upshot = some plan.looped.upshot ∧ s.begun = plan.looped.ran

/-- The completion that is told is that of the last task that is done. -/
theorem TakesTurns.exists_last {done queue : List (Task α)} {hand : Option (Task α)}
    {completion : Completion κ β} (hlive : s.run.Live plan s.acknowledged s.begun)
    (hturn : s.run.InTurn plan done hand queue)
    (hresult : (s.acknowledged.map (·.part)).foldlM Tally.absorb .empty = .ok s.result)
    (hcurrent : s.run.current = [completion]) :
    ∃ first task rest merged, done = first ++ [task] ∧
      plan.resultOf task = .ok completion.part ∧
      Plan.unitsOfAll first + Workload.units task.args ≤ plan.total ∧
      (plan.shares = false → merged = s.result) ∧
      plan.looped = (plan.loop (Plan.unitsOfAll first) merged (task :: rest)).after first := by
  obtain ⟨merged, hmerged, hsame⟩ := hturn.exists_merged hlive hresult
  have hlast := List.forall₂_drop_append _ s.acknowledged _ (hturn.forall₂_done hlive)
  have hsplit := List.take_append_drop s.acknowledged.length done
  generalize done.take s.acknowledged.length = first at hmerged hsplit
  generalize done.drop s.acknowledged.length = last at hlast hsplit
  rw [hcurrent] at hlast
  obtain ⟨task, hpart, rfl⟩ : ∃ task, plan.resultOf task = .ok completion.part ∧ last = [task] := by
    cases hlast with
    | cons hpart hnil =>
      cases hnil
      exact ⟨_, hpart, rfl⟩
  obtain ⟨-, hunits⟩ := hturn.succeed_done hlive
  obtain ⟨rest, htasks⟩ := hturn.exists_tasks_eq
  rw [← hsplit] at hunits htasks
  refine ⟨first, task, _, merged, hsplit.symm, hpart, ?_, hsame, hturn.looped_eq hlive
    (hsplit ▸ List.prefix_append first [task]) (htasks.trans (List.append_assoc ..)) hmerged⟩
  simpa [Plan.unitsOfAll] using hunits

/-- The work functions that were called are those that the loop calls first. -/
theorem TakesTurns.begun_prefix {done queue : List (Task α)} {hand : Option (Task α)}
    (hlive : s.run.Live plan s.acknowledged s.begun) (hturn : s.run.InTurn plan done hand queue)
    (hresult : (s.acknowledged.map (·.part)).foldlM Tally.absorb .empty = .ok s.result) :
    done ++ hand.toList <+: plan.looped.ran := by
  rcases s.run.current_cases with hcurrent | ⟨completion, hcurrent⟩
  · obtain ⟨rest, htasks⟩ := hturn.exists_tasks_eq
    obtain ⟨merged, -, -, hlooped⟩ := hturn.exists_looped_eq hlive hresult hcurrent htasks
    rw [hlooped, Looped.ran_after, List.prefix_append_right_inj]
    cases hand with
    | none => exact List.nil_prefix
    | some task =>
      obtain ⟨more, hran⟩ :=
        plan.exists_ran_loop s.run.progress.computed merged task (queue ++ rest)
      exact ⟨more, hran.symm⟩
  · obtain ⟨first, task, rest, merged, rfl, -, -, -, hlooped⟩ :=
      exists_last hlive hturn hresult hcurrent
    obtain ⟨more, hran⟩ := plan.exists_ran_loop (Plan.unitsOfAll first) merged task rest
    have hhand : hand = none := by
      rw [← Option.not_isSome_iff_eq_none, hturn.awaits]
      rintro ⟨since, hphase⟩
      rw [Run.current, hphase] at hcurrent
      cases hcurrent
    rw [hlooped, Looped.ran_after, hran, hhand]
    exact ⟨more, by simp⟩

/-- What the loop has merged after all tasks is the result of the run. -/
theorem TakesTurns.conclude_eq [LawfulEqOrd κ] (hsettles : plan.shares = true → Mergeable.Settles β)
    {merged : Tally κ β} (hlive : s.run.Live plan s.acknowledged s.begun)
    (hturn : s.run.InTurn plan plan.tasks none [])
    (hresult : (s.acknowledged.map (·.part)).foldlM Tally.absorb .empty = .ok s.result)
    (hmerged : Tally.empty.mergeEntries (plan.tasks.flatMap plan.entriesOf) = .ok merged)
    (hsame : plan.shares = false → merged = s.result) :
    s.run.conclude s.result = .finished merged s.run.summary := by
  rw [Run.conclude, Run.accumulator, if_pos hlive.ledger.shows]
  have hshares := hlive.ledger.sound.shares
  rw [Executor.floor] at hshares
  cases hshared : s.run.commons.shared with
  | none =>
    rw [hshared] at hshares
    rw [hsame hshares.symm]
  | some shared =>
    rw [hshared] at hshares
    have hall := hturn.shared shared hshared
    rw [Option.toList_none, List.append_nil, hmerged] at hall
    obtain rfl := Except.ok.inj hall
    have hsnapshot := Tally.snapshot_of_settles (hsettles hshares.symm) hmerged
    -- the caller had nothing to merge
    have htold := List.forall₂_take_append _ s.acknowledged _ (hturn.forall₂_done hlive)
    have hempty : s.result = .empty := Except.ok.inj
      (hresult.symm.trans (Plan.foldlM_absorb_eq hshares.symm htold .empty))
    have hagain : Tally.empty.mergeTally shared.tally = .ok shared.tally := hsnapshot
    simp only [hempty, hsnapshot, hagain]

/-- Where a merge of the caller faults, the same merge of the loop does. -/
theorem TakesTurns.faulted {done queue : List (Task α)} {hand : Option (Task α)}
    {completion : Completion κ β} {fault : Fault}
    (hlive : s.run.Live plan s.acknowledged s.begun) (hturn : s.run.InTurn plan done hand queue)
    (hresult : (s.acknowledged.map (·.part)).foldlM Tally.absorb .empty = .ok s.result)
    (hphase : s.run.phase = .replied (.ok (some completion)))
    (hfault : s.result.absorb completion.part = .error fault) :
    (Ending.crashed fault).upshot = some plan.looped.upshot ∧
      done ++ hand.toList = plan.looped.ran := by
  have hcurrent : s.run.current = [completion] := by rw [Run.current, hphase]; rfl
  obtain ⟨rfl, -⟩ := hturn.ask hphase
  obtain ⟨first, task, rest, merged, rfl, hpart, hunits, hsame, hlooped⟩ :=
    exists_last hlive hturn hresult hcurrent
  -- only a partial result that has travelled back can make the merge fault
  cases hverdict : (plan.work task).verdict.result with
  | error cause =>
    rw [Plan.resultOf_error hverdict] at hpart
    cases hpart
  | ok part =>
    rw [Plan.resultOf_ok hverdict] at hpart
    rw [← Except.ok.inj hpart] at hfault
    cases hshares : plan.shares with
    | true =>
      rw [hshares] at hfault
      cases hfault
    | false =>
      rw [hshares] at hfault
      rw [hsame hshares, Plan.loop_faulted hverdict hunits hfault] at hlooped
      rw [hlooped]
      exact ⟨rfl, by simp⟩

/-- Where everything is told, the loop has come to its end as well. -/
theorem TakesTurns.concluded [LawfulEqOrd κ] (hlimit : 0 < plan.limit)
    (hsettles : plan.shares = true → Mergeable.Settles β) {done queue : List (Task α)}
    {hand : Option (Task α)} (hlive : s.run.Live plan s.acknowledged s.begun)
    (hturn : s.run.InTurn plan done hand queue)
    (hresult : (s.acknowledged.map (·.part)).foldlM Tally.absorb .empty = .ok s.result)
    (hphase : s.run.phase = .replied (.ok none)) :
    (s.run.conclude s.result).upshot = some plan.looped.upshot ∧
      done ++ hand.toList = plan.looped.ran := by
  have hcurrent : s.run.current = [] := by rw [Run.current, hphase]; rfl
  obtain ⟨-, -, hfull, hnone, hcomputed⟩ := hlive.of_told hphase
  obtain ⟨rfl, rfl, rfl⟩ := hturn.done_eq hlimit hlive hfull hnone
  obtain ⟨merged, hmerged, hsame, hlooped⟩ := hturn.exists_looped_eq hlive hresult hcurrent
    (List.append_nil plan.tasks).symm
  rw [conclude_eq hsettles hlive hturn hresult hmerged hsame, hlooped, Plan.loop, hcomputed,
    if_neg (Nat.lt_irrefl _)]
  exact ⟨rfl, rfl⟩

/-- A session that takes turns keeps step with the loop. -/
theorem TakesTurns.inStep [LawfulEqOrd κ] (hlimit : 0 < plan.limit) (hfits : plan.Fits)
    (hsettles : plan.shares = true → Mergeable.Settles β) (h : s.TakesTurns plan) :
    s.InStep plan := by
  cases h with
  | failed error hphase hexecutor hacknowledged hlooped =>
    have hran : plan.looped.ran = s.begun := by rw [hlooped]
    refine ⟨hacknowledged, hran ▸ List.prefix_rfl, by simp [hphase], ?_⟩
    intro ending hending
    rw [ending?, hphase] at hending
    obtain rfl := Option.some.inj hending
    exact ⟨by rw [hlooped]; rfl, hran.symm⟩
  | live done hand queue hlive hturn hbegun hresult =>
    refine ⟨hturn.map_no_told hlive, ?_, ?_, ?_⟩
    · rw [hbegun]
      exact begun_prefix hlive hturn hresult
    · intro since hphase
      obtain ⟨task, rfl⟩ := Option.isSome_iff_exists.1 (hturn.awaits.2 ⟨since, hphase⟩)
      obtain ⟨now, payload, transport, -, hreceive, -, hexamine⟩ :=
        hturn.exists_receive hfits hlive
      exact ⟨plan.signalOf task now, by
        simp only [Run.incoming?, hphase, hreceive, hexamine, Admission.signal?]⟩
    · intro ending hending
      have hstaged := hlive.staged
      rw [Run.Staged] at hstaged
      rw [ending?] at hending
      split at hending
      · next completion hphase =>
        split at hending
        · cases hending
        · next fault hfault =>
          obtain rfl := Option.some.inj hending
          rw [hbegun]
          exact faulted hlive hturn hresult hphase hfault
      · next hphase =>
        obtain rfl := Option.some.inj hending
        rw [hbegun]
        exact concluded hlimit hsettles hlive hturn hresult hphase
      · next error hphase =>
        rw [hphase] at hstaged
        exact hstaged.elim
      · next fault hphase =>
        rw [hphase] at hstaged
        exact hstaged.elim
      · cases hending

end Session

end BatchRun
