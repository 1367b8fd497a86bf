import BatchRun.Proofs.Run.Integrity
import BatchRun.Proofs.Run.Trusted

/-!
# The verdict of a run

Over a transport that hands out nothing but what was published, and that may repeat and reorder
it, the tasks alone decide how a run turns out. Signals that are repeated are dropped, an outcome
is always found where its signal is, and units are counted as the tasks report them. What the
order of moves decides is only which of several failures is told.

## Main definitions

* `Plan.Exact`: the endings that the tasks of a plan allow
* `Plan.Decides`: what an ending says, for each way in which the tasks may turn out

## Main results

* `Run.Trusted.exact_of_refuses`: a trusted run fails for a reason that its tasks have given
* `Session.Reaches.decides`: the tasks decide how a session ends
-/

namespace BatchRun

open Std

variable {σ α κ β : Type} [Ord κ]

/-- The errors that the tasks of a plan allow. -/
inductive Plan.Exact [Workload α] (plan : Plan α κ β) : RunError → Prop
  /-- All tasks have succeeded, and units are missing. -/
  | incomplete (hall : ∀ t ∈ plan.tasks, plan.succeeds t = true)
      (hunits : plan.units < plan.total) : Exact plan (.incomplete plan.units plan.total)
  /-- The tasks that succeed have more units than there should be. -/
  | tooManyUnits (t : Task α) (refused : ProgressOverflow) (ht : t ∈ plan.tasks)
      (hunits : plan.total < plan.succeedingUnits) :
      Exact plan (.anomaly plan.channel.runId (.tooManyUnits t.no refused))
  | taskFailed (t : Task α) (cause : Cause) (ht : t ∈ plan.tasks)
      (hcause : (plan.work t).verdict.FailsWith cause) :
      Exact plan (.taskFailed t.no (Workload.label t.args) cause)

namespace Run.Live

variable [Workload α] [TransOrd κ] [Mergeable β] {plan : Plan α κ β}
  {told : List (Completion κ β)} {begun : List (Task α)} {r : Run σ α κ β} {error : RunError}

/-- With a permit for a task, and with nobody lost, a task is accepted. -/
theorem submit_ne_error (hlimit : 0 < plan.limit) (h : r.Live plan told begun)
    (hstays : r.executor.hasLost = false) {acknowledged : Option (Completion κ β)}
    (hphase : r.phase = .filling acknowledged) (hpermit : r.semaphore.permits ≠ 0)
    (task : Task α) : r.executor.submit task ≠ .error error := by
  have haccepts : r.executor.accepts = true := h.accepts.trans (h.acceptsTasks hphase)
  -- what waits is in flight, and has not taken all permits
  have hwaiting : r.executor.waiting.length < plan.limit := by
    have := h.ledger.length_waiting_le
    have := h.ledger.permits
    omega
  obtain ⟨e, he⟩ := Executor.exists_submit_eq_ok hlimit haccepts h.ledger.staffed hstays
    hwaiting task
  rw [he]
  exact fun hsubmit => by cases hsubmit

/-- Tasks whose signals have passed have succeeded. -/
theorem exists_of_seen (h : r.Live plan told begun) {no : Nat} (hno : no ∈ r.channel.seen) :
    ∃ t ∈ plan.tasks, t.no = no ∧ plan.succeeds t = true := by
  obtain ⟨c, hc, rfl⟩ := List.mem_map.1 (h.ledger.mem_seen_iff.1 hno)
  obtain ⟨t, ht, htaskNo, -, hresult⟩ := h.ledger.honest c hc
  obtain ⟨part, hpart⟩ := Plan.exists_finished hresult
  exact ⟨t, ht, htaskNo.symm, by rw [Plan.succeeds, hpart]; rfl⟩

/-- The outcome of a task is found, if it was sent and the signal of the task has not passed. -/
theorem takeOutcome_eq (h : r.Live plan told begun) {t : Task α} (ht : t ∈ plan.tasks)
    (hreported : t.no ∈ r.reported) (hnew : t.no ∉ r.channel.seen) :
    (r.takeOutcome t.no).1 = some (plan.outcomeOf t) := by
  obtain ⟨found, buffered, outcomes, htake, -, hperm, hno, hnone⟩ :=
    r.takeOutcome_spec t.no h.ledger.filed h.ledger.nodup_outcomes
  obtain ⟨o, ho, hono⟩ := List.mem_map.1 ((List.mem_append.1 hreported).resolve_right hnew)
  rw [htake r rfl rfl]
  cases found with
  | none => exact absurd hono (hnone rfl o ho)
  | some outcome =>
    have hmem : outcome ∈ r.commons.outcomes ++ r.buffered.values :=
      hperm.mem_iff.2 (List.mem_append_left _ (by simp))
    obtain ⟨t', ht', rfl⟩ := h.ledger.sound.sent_mem outcome hmem
    have hsame : t' = t := Plan.eq_of_no_eq ht' ht (hno _ rfl)
    rw [hsame]

/-- The label of a task in flight is its own. -/
theorem label_eq (h : r.Live plan told begun) {t : Task α} (ht : t ∈ plan.tasks)
    {slot : Slot} (hslot : r.inFlight.get? t.no = some slot) :
    slot.label = Workload.label t.args := by
  have hargs := ((h.ledger.inFlight t.no slot).1 hslot).2.2
  rw [Plan.args_mem ht, Option.map_some] at hargs
  exact (Option.some.inj hargs).symm

end Run.Live

namespace Run.Trusted

variable [Transport σ] [Workload α] [TransOrd κ] [Mergeable β] {plan : Plan α κ β}
  {courier : Courier σ} {told : List (Completion κ β)} {begun : List (Task α)}
  {r : Run σ α κ β} {error : RunError}

/-- With nothing in flight although there is room, all tasks have succeeded, and their units are
counted. -/
theorem computed_eq_units (hlimit : 0 < plan.limit) (hlive : r.Live plan told begun)
    (hfull : r.IsFull) (hnone : r.inFlight.isEmpty = true) (h : r.Trusted plan courier) :
    (∀ t ∈ plan.tasks, plan.succeeds t = true) ∧ r.progress.computed = plan.units := by
  have hpending := hlive.ledger.pending_eq_nil hlimit hfull hnone
  constructor
  · intro t ht
    obtain ⟨part, hpart⟩ := hlive.ledger.finished hpending hnone t ht
    rw [Plan.succeeds, hpart]
    rfl
  · have hperm : r.channel.seen.Perm (List.range plan.args.length) := by
      rw [hlive.ledger.seen_eq]
      exact (List.reverse_perm _).trans (hlive.ledger.acked_perm hpending hnone)
    rw [h.computed, (hperm.map plan.unitsOf).sum_eq, Plan.sum_unitsOf]

/-- Where everything was told, all tasks have succeeded, with the units that are expected. -/
theorem all_succeed (hlimit : 0 < plan.limit) (hlive : r.Live plan told begun)
    (hphase : r.phase = .replied (.ok none)) (h : r.Trusted plan courier) :
    (∀ t ∈ plan.tasks, plan.succeeds t = true) ∧ plan.units = plan.total := by
  obtain ⟨-, -, hfull, hnone, hcomputed⟩ := hlive.of_told hphase
  obtain ⟨hall, hunits⟩ := h.computed_eq_units hlimit hlive hfull hnone
  exact ⟨hall, hunits.symm.trans hcomputed⟩

/-- The signal of a task whose outcome can be found is only rejected for a reason that the tasks
have given. -/
theorem exact_of_rejects (hlive : r.Live plan told begun) (h : r.Trusted plan courier)
    {t : Task α} {now : Instant} (ht : t ∈ plan.tasks) (hreported : t.no ∈ r.reported)
    (hnew : t.no ∉ r.channel.seen) (hrejects : r.Rejects (plan.signalOf t now) error) :
    plan.Exact error := by
  obtain ⟨-, hno, -, hfailed, hamount⟩ := plan.signalOf_spec t now
  have hfound := hlive.takeOutcome_eq ht hreported hnew
  have hrun : r.runId = plan.channel.runId := hlive.ledger.runId_eq
  cases hrejects with
  | notInFlight hnone =>
    -- the task was submitted, and its signal has not passed
    rw [hno] at hnone
    rcases hlive.ledger.get?_inFlight_eq_none_iff.1 hnone with hle | hacked
    · have hlt := hlive.ledger.sound.lt_of_reported
        ((hlive.ledger.mem_reported_iff (r.executor.floor r.commons)).2 hreported)
      omega
    · exact absurd (hlive.ledger.mem_seen_iff.2 hacked) hnew
  | failed slot hslot hfails =>
    rw [hno] at hslot ⊢
    rw [hfailed, Bool.not_eq_true'] at hfails
    rw [hfound, hlive.label_eq ht hslot]
    cases hresult : (plan.work t).verdict.result with
    | ok part =>
      rw [Plan.succeeds, Verdict.succeeds_iff.2 ⟨part, hresult⟩] at hfails
      cases hfails
    | error cause =>
      have hcause : (plan.outcomeOf t).result = .error cause := Plan.resultOf_error hresult
      simp only [causeOf, Option.map_some, hcause]
      exact .taskFailed t cause ht (Verdict.failsWith_of_result hresult)
  | tooManyUnits slot refused hslot hpassed hadvance =>
    rw [hfailed, Bool.not_eq_false'] at hpassed
    rw [hamount, if_pos hpassed] at hadvance
    -- the units counted are those of tasks that succeed, and so are the units of this one
    have hmore := Progress.lt_of_advance hadvance
    have hnodup : (t.no :: r.channel.seen).Nodup := by
      refine List.nodup_cons.2 ⟨hnew, ?_⟩
      rw [hlive.ledger.seen_eq]
      exact List.nodup_reverse.2 hlive.ledger.nodup_acked
    have hunits := Plan.sum_unitsOf_le hnodup (List.forall_mem_cons.2
      ⟨⟨t, ht, rfl, hpassed⟩, fun no hseen => hlive.exists_of_seen hseen⟩)
    rw [List.map_cons, List.sum_cons, Plan.unitsOf_no ht, ← h.computed] at hunits
    rw [hno, hrun]
    apply Plan.Exact.tooManyUnits t refused ht
    rw [← hlive.ledger.total]
    omega
  | withoutResult slot hslot hpassed hnothing =>
    -- the outcome was sent before the signal
    rw [hno, hfound] at hnothing
    cases hnothing
  | failedOutcome slot outcome cause hslot hpassed houtcome hcause =>
    rw [hno, hfound] at houtcome
    -- outcome and signal are of one call of the work function
    obtain rfl := Option.some.inj houtcome
    rw [hfailed, Bool.not_eq_false'] at hpassed
    obtain ⟨part, hresult⟩ := Verdict.succeeds_iff.1 hpassed
    have hok : (plan.outcomeOf t).result = .ok _ := Plan.resultOf_ok hresult
    rw [hok] at hcause
    cases hcause

/-- A trusted run that has lost nobody fails for a reason that its tasks have given, or because
it waits no longer. -/
theorem exact_of_refuses (hlimit : 0 < plan.limit) (hfits : plan.Fits)
    (hlive : r.Live plan told begun) (hstays : r.executor.hasLost = false)
    (hrefuses : r.Refuses error) (h : r.Trusted plan courier) :
    plan.Exact error ∨ ∃ milliseconds, plan.channel.timeout = some milliseconds ∧
      error = plan.channel.timeoutError milliseconds := by
  cases hrefuses with
  | submission acknowledged args rest error hphase hpending hpermit hsubmit =>
    exact absurd hsubmit (hlive.submit_ne_error hlimit hstays hphase hpermit _)
  | incomplete hphase hnone hmissing =>
    obtain ⟨hledger, -, hfull⟩ := hlive.of_deciding hphase
    obtain ⟨hall, hunits⟩ := h.computed_eq_units hlimit hlive hfull hnone
    rw [hunits, hledger.total]
    refine .inl (.incomplete hall ?_)
    -- not all units are counted, and never more than all
    have hle := r.progress.computed_le
    have hne : r.progress.computed ≠ r.progress.total := by
      simpa [Progress.isComplete] using hmissing
    rw [← hunits, ← hledger.total]
    omega
  | closed since transport hphase hreceive =>
    rw [hlive.ledger.queue_eq] at hreceive
    -- a courier does not close a queue that is in use
    exact absurd rfl (h.posted.receive hreceive).2.1
  | payload since payload transport error hphase hreceive hrefused =>
    obtain ⟨t, -, -, hrepeated | ⟨-, now, hpassed⟩⟩ :=
      h.examine_of_receive hfits hlive hreceive
    · rw [hrepeated] at hrefused; cases hrefused
    · rw [hpassed] at hrefused; cases hrefused
  | signal since payload transport signal error hphase hreceive hpassed hrejects =>
    obtain ⟨t, ht, hreported, hrepeated | ⟨hnew, now, hpassed'⟩⟩ :=
      h.examine_of_receive hfits hlive hreceive
    · rw [hrepeated] at hpassed; cases hpassed
    · rw [hpassed'] at hpassed
      obtain rfl := Admission.passed.inj hpassed
      exact .inl (exact_of_rejects hlive h ht hreported hnew hrejects)
  | timeout since milliseconds hphase hmilliseconds =>
    obtain ⟨discarded, hchannel⟩ := hlive.ledger.channel
    rw [hchannel] at hmilliseconds ⊢
    exact .inr ⟨milliseconds, hmilliseconds, rfl⟩

end Run.Trusted

/-- What the tasks of a plan decide about an ending. -/
structure Plan.Decides [Workload α] (plan : Plan α κ β) (ending : Ending κ β) : Prop where
  /-- All tasks succeed, with just the units that are expected. -/
  finished : (∀ t ∈ plan.tasks, plan.succeeds t = true) → plan.units = plan.total →
    ∃ result summary, ending = .finished result summary
  /-- All tasks succeed, and units are missing. -/
  incomplete : (∀ t ∈ plan.tasks, plan.succeeds t = true) → plan.units < plan.total →
    ending = .failed (.incomplete plan.units plan.total)
  /-- All tasks succeed, and there are too many units. -/
  tooManyUnits : (∀ t ∈ plan.tasks, plan.succeeds t = true) → plan.total < plan.units →
    ∃ t ∈ plan.tasks, ∃ refused,
      ending = .failed (.anomaly plan.channel.runId (.tooManyUnits t.no refused))
  /-- A task fails. -/
  failure : (∃ t ∈ plan.tasks, plan.succeeds t = false) →
    (∀ result summary, ending ≠ .finished result summary) ∧
      (∀ computed total, ending ≠ .failed (.incomplete computed total)) ∧
      (plan.succeedingUnits ≤ plan.total →
        ∃ no label cause, ending = .failed (.taskFailed no label cause))
  /-- The task that is told of has failed, with its own label and its own error. -/
  named : ∀ no label cause, ending = .failed (.taskFailed no label cause) →
    ∃ t ∈ plan.tasks, t.no = no ∧ Workload.label t.args = label ∧
      (plan.work t).verdict.FailsWith cause
  /-- No signal comes from another run, without its result, or without its task in flight. -/
  anomaly : ∀ run kind, ending = .failed (.anomaly run kind) →
    run = plan.channel.runId ∧ plan.total < plan.succeedingUnits ∧
      ∃ t ∈ plan.tasks, ∃ refused, kind = .tooManyUnits t.no refused
  /-- There are no other errors. -/
  others : ∀ error, ending = .failed error → error.isTaskFailure = true ∨
    (∃ computed total, error = .incomplete computed total) ∨
      ∃ run kind, error = .anomaly run kind

section Decides

variable [Workload α] {plan : Plan α κ β}

/-- A run that ends well has the ending that its tasks decide. -/
theorem Plan.decides_of_finished (hall : ∀ t ∈ plan.tasks, plan.succeeds t = true)
    (hunits : plan.units = plan.total) (result : Tally κ β) (summary : Summary) :
    plan.Decides (.finished result summary) where
  finished _ _ := ⟨result, summary, rfl⟩
  incomplete _ hlt := absurd hunits (Nat.ne_of_lt hlt)
  tooManyUnits _ hlt := absurd hunits.symm (Nat.ne_of_lt hlt)
  failure := by
    rintro ⟨t, ht, hfails⟩
    rw [hall t ht] at hfails
    cases hfails
  named := by simp
  anomaly := by simp
  others := by simp

/-- A run that fails for a reason that its tasks allow has the ending that they decide. -/
theorem Plan.decides_of_exact {error : RunError} (h : plan.Exact error) :
    plan.Decides (.failed error : Ending κ β) := by
  cases h with
  | incomplete hall hunits =>
    refine ⟨fun _ heq => absurd heq (Nat.ne_of_lt hunits), fun _ _ => rfl,
      fun _ hlt => absurd hunits (Nat.lt_asymm hlt), ?_, by simp, by simp, by simp⟩
    rintro ⟨t, ht, hfails⟩
    rw [hall t ht] at hfails
    cases hfails
  | tooManyUnits t refused ht hunits =>
    have hmore : (∀ t ∈ plan.tasks, plan.succeeds t = true) → plan.total < plan.units :=
      fun hall => Plan.succeedingUnits_eq hall ▸ hunits
    refine ⟨fun hall heq => absurd heq.symm (Nat.ne_of_lt (hmore hall)),
      fun hall hlt => absurd hlt (Nat.lt_asymm (hmore hall)), fun _ _ => ⟨t, ht, refused, rfl⟩,
      fun _ => ⟨by simp, by simp, fun hle => absurd hunits (Nat.not_lt.2 hle)⟩, by simp, ?_,
      by simp⟩
    intro run kind heq
    obtain ⟨rfl, rfl⟩ := RunError.anomaly.inj (Ending.failed.inj heq)
    exact ⟨rfl, hunits, t, ht, refused, rfl⟩
  -- where a task has failed nothing is said for the case that all succeed
  | taskFailed t cause ht hcause =>
    have hnot : ¬∀ t ∈ plan.tasks, plan.succeeds t = true := fun hall => by
      have hsucceeds := hall t ht
      rw [Plan.succeeds, hcause.succeeds_eq] at hsucceeds
      cases hsucceeds
    refine ⟨fun hall => absurd hall hnot, fun hall => absurd hall hnot,
      fun hall => absurd hall hnot, fun _ => ⟨by simp, by simp, fun _ => ⟨_, _, _, rfl⟩⟩, ?_,
      by simp, fun _ heq => .inl (Ending.failed.inj heq ▸ rfl)⟩
    intro no label cause' heq
    obtain ⟨rfl, rfl, rfl⟩ := RunError.taskFailed.inj (Ending.failed.inj heq)
    exact ⟨t, ht, rfl, rfl, hcause⟩

end Decides

section Main

variable [Transport σ] [Workload α] [TransOrd κ] [Mergeable β] {s : Session σ α κ β}
  {ending : Ending κ β}

omit [Transport σ] [Workload α] in
/-- A run that is over has a result, or its last merges fault. -/
theorem Run.conclude_eq (r : Run σ α κ β) (result : Tally κ β) :
    (∃ result', r.conclude result = .finished result' r.summary) ∨
      ∃ fault, r.conclude result = .crashed fault := by
  rw [conclude]
  split
  · exact .inl ⟨result, rfl⟩
  · split
    · exact .inr ⟨_, rfl⟩
    · split
      · exact .inr ⟨_, rfl⟩
      · exact .inl ⟨_, rfl⟩

/-- Over a courier, with no end to waiting, the tasks decide how a session ends that comes to an
end without a merge that faults: neither on the control node nor in the hands of a worker. -/
theorem Session.Reaches.decides {d : Dispatcher α κ β} {transport : σ} {pending : Pending α}
    {total : Nat} {run : Run σ α κ β} (courier : Courier σ) (hlimit : 0 < d.settings.limit)
    (htimeout : d.settings.signaling.timeout = none) (hfits : (d.plan pending total).Fits)
    (hstart : d.start transport pending total = .ok run) (hreaches : Session.Reaches run s)
    (hending : s.ending? = some ending) (hreturns : ∀ fault, ending ≠ .crashed fault)
    (hstays : s.run.executor.hasLost = false) : (d.plan pending total).Decides ending := by
  cases (hreaches.stands_trusted courier hfits hstart).ends hending with
  | overloaded _ => exact absurd rfl (hreturns _)
  | crashed fault => exact absurd rfl (hreturns fault)
  | unmerged _ fault => exact absurd rfl (hreturns fault)
  | concluded _ hlive htrusted _ hphase hconclude =>
    obtain ⟨hall, hunits⟩ := htrusted.all_succeed hlimit hlive hphase
    rcases s.run.conclude_eq s.result with ⟨result, heq⟩ | ⟨fault, heq⟩
    · rw [← hconclude, heq]
      exact Plan.decides_of_finished hall hunits result s.run.summary
    · exact absurd (hconclude.symm.trans heq) (hreturns fault)
  | failed error r told begun hlive htrusted hrefuses hlost =>
    -- whoever is there at the end was there before the failure
    have hhere : r.executor.hasLost = false := by
      apply eq_false_of_ne_true
      intro hgone
      rw [hlost hgone] at hstays
      cases hstays
    rcases htrusted.exact_of_refuses hlimit hfits hlive hhere hrefuses with
      hexact | ⟨milliseconds, hmilliseconds, -⟩
    · exact Plan.decides_of_exact hexact
    · have hnever : (d.plan pending total).channel.timeout = none := htimeout
      rw [hnever] at hmilliseconds
      cases hmilliseconds

end Main

/-- Two scripted tasks of two units each, on two threads that merge what they have computed. -/
def Dispatcher.twoThreads : Dispatcher ScriptedTask String Count :=
  { twoTasks .inWorker with
    settings := { Settings.usual 2 with mode := .threads, accumulation := .inWorker } }

/-- Two tasks of two units each on two threads, where five units are expected: the units of both
are told, and nothing else. -/
theorem Session.decides_of_twoTasks :
    ∃ (run : Run Broker ScriptedTask String Count)
      (s : Session Broker ScriptedTask String Count) (ending : Ending String Count),
      0 < Dispatcher.twoThreads.settings.limit ∧
        Dispatcher.twoThreads.settings.signaling.timeout = none ∧
        (Dispatcher.twoThreads.plan .none 5).Fits ∧
        Dispatcher.twoThreads.start (Broker.new "rehearsal") .none 5 = .ok run ∧
        Session.Reaches run s ∧ s.ending? = some ending ∧
        (∀ fault, ending ≠ .crashed fault) ∧ s.run.executor.hasLost = false ∧
        (Dispatcher.twoThreads.plan .none 5).Decides ending := by
  have hfits : (Dispatcher.twoThreads.plan .none 5).Fits := ⟨by decide, by decide⟩
  obtain ⟨run, s, ending, hstart, hreaches, hending, hchecked⟩ :=
    Dispatcher.twoThreads.exists_session (Broker.new "rehearsal") .none 5 40 3
      (fun
        | (.failed (.incomplete ..), run) => !run.executor.hasLost
        | _ => false) (by decide +kernel) fun _ => rfl
  split at hchecked
  · next computed total final heq =>
    obtain ⟨rfl, rfl⟩ := Prod.mk.inj heq
    have hstays : s.run.executor.hasLost = false := by simpa using hchecked
    exact ⟨run, s, _, by decide, rfl, hfits, hstart, hreaches, hending, by simp, hstays,
      hreaches.decides Broker.courier (by decide) rfl hfits hstart hending (by simp) hstays⟩
  · cases hchecked

end BatchRun
