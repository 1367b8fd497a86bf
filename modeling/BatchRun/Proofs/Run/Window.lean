import BatchRun.Proofs.Run.Orderly

/-!
# The window of tasks in flight

Work is taken lazily: the control node takes the arguments of a task only with a permit in hand,
and gives the task to the executor at once. So the tasks that the executor has accepted are always
a prefix of all work, numbered as they come, and the tasks in flight are a window at its end. The
window is as wide as the limit allows and the work lasts, however tasks are acknowledged and
whatever executor, workers and transport do.

The permit of a task that is acknowledged is taken again for one more, which is submitted before
the caller is told. In between the window is one task short; nobody but the control node sees it
then.

## Main definitions

* `Traffic`: what was submitted and acknowledged
* `Inquiry.Carries`: the traffic that an inquiry carries
* `Run.HasFilled`: the control node is not submitting tasks
* `Inquiry.Window`: how traffic and run agree

## Main results

* `Run.Windowed.did`: what the control node does keeps the window
* `Inquiry.AnyReaches.window`: it slides over all work in its order, as wide as it can be
-/

namespace BatchRun

open Std Relation

variable {σ α κ β : Type} [Ord κ]

/-- What has passed between the control node and its executor. -/
structure Traffic (α κ β : Type) [Ord κ] where
  /-- The tasks that the executor has accepted. -/
  submitted : List (Task α)
  /-- The tasks that were acknowledged. -/
  acknowledged : List (Completion κ β)

namespace Traffic

variable {t : Traffic α κ β} {args : List α}

/-- Nothing was submitted yet. -/
def empty : Traffic α κ β := ⟨[], []⟩

/-- More tasks are submitted, more are acknowledged. -/
def add (t : Traffic α κ β) (tasks : List (Task α)) (completions : List (Completion κ β)) :
    Traffic α κ β :=
  ⟨t.submitted ++ tasks, t.acknowledged ++ completions⟩

@[simp] theorem add_nil (t : Traffic α κ β) : t.add [] [] = t := by
  simp [add]

@[simp] theorem add_add (t : Traffic α κ β) (tasks : List (Task α))
    (completions : List (Completion κ β)) :
    (t.add tasks []).add [] completions = t.add tasks completions := by
  simp [add]

/-- The numbers of the tasks that were acknowledged. -/
def answered (t : Traffic α κ β) : List Nat := t.acknowledged.map (·.taskNo)

section Add

variable (t : Traffic α κ β) (tasks : List (Task α)) (completions : List (Completion κ β))

@[simp] theorem submitted_add : (t.add tasks completions).submitted = t.submitted ++ tasks := rfl

@[simp] theorem acknowledged_add :
    (t.add tasks completions).acknowledged = t.acknowledged ++ completions := rfl

@[simp] theorem answered_add :
    (t.add tasks completions).answered = t.answered ++ completions.map (·.taskNo) :=
  List.map_append

end Add

/-- A task has the number of its arguments among all of them, is submitted once, and is
acknowledged at most once. -/
structure InOrder (args : List α) (t : Traffic α κ β) : Prop where
  numbers : t.submitted.map (·.no) = List.range t.submitted.length
  arguments : t.submitted.map (·.args) = args.take t.submitted.length
  nodup : t.answered.Nodup
  lt : ∀ no ∈ t.answered, no < t.submitted.length

namespace InOrder

theorem empty (args : List α) : (empty : Traffic α κ β).InOrder args :=
  ⟨rfl, by simp [Traffic.empty], List.nodup_nil, by simp [Traffic.empty, answered]⟩

/-- The next task is submitted. -/
theorem submit (h : t.InOrder args) {task : Task α} {rest : List α}
    (hno : task.no = t.submitted.length)
    (hargs : args.drop t.submitted.length = task.args :: rest) :
    (t.add [task] []).InOrder args := by
  refine ⟨?_, ?_, ?_, fun no hmem => ?_⟩
  · simp [h.numbers, hno, List.range_succ]
  · have hnext : args[t.submitted.length]? = some task.args := by
      rw [← List.head?_drop, hargs, List.head?_cons]
    simp [h.arguments, List.take_add_one, hnext]
  · simpa using h.nodup
  · have hlt := h.lt no (by simpa using hmem)
    simp only [submitted_add, List.length_append, List.length_singleton]
    omega

/-- A task is acknowledged for the first time. -/
theorem acknowledge (h : t.InOrder args) {completion : Completion κ β}
    (hlt : completion.taskNo < t.submitted.length) (hnew : completion.taskNo ∉ t.answered) :
    (t.add [] [completion]).InOrder args := by
  refine ⟨by simpa using h.numbers, by simpa using h.arguments, ?_, ?_⟩
  · have hdistinct : (completion.taskNo :: t.answered).Nodup := List.nodup_cons.2 ⟨hnew, h.nodup⟩
    simpa using (List.perm_append_singleton _ _).nodup_iff.2 hdistinct
  · simpa [or_imp, forall_and] using ⟨h.lt, hlt⟩

/-- No more tasks are acknowledged than there are. -/
theorem length_acknowledged_le (h : t.InOrder args) :
    t.acknowledged.length ≤ t.submitted.length ∧ t.submitted.length ≤ args.length := by
  constructor
  · have hsubset : t.answered ⊆ List.range t.submitted.length := fun no hno =>
      List.mem_range.2 (h.lt no hno)
    simpa [answered] using (List.subperm_of_subset h.nodup hsubset).length_le
  · have hlength := congrArg List.length h.arguments
    rw [List.length_map, List.length_take] at hlength
    omega

end InOrder

end Traffic

/-- The completion in a reply, if it is one. -/
def Reply.completion? : Reply κ β → Option (Completion κ β)
  | .ok last => last
  | .error _ => none

namespace Run

/-- The tasks that are acknowledged in a step to another run. -/
def acknowledges (r r' : Run σ α κ β) : List (Completion κ β) :=
  match r.phase, r'.phase with
  | .awaiting _, .filling (some completion) => [completion]
  | _, _ => []

/-- The control node was asked, and is not submitting tasks. -/
def HasFilled (r : Run σ α κ β) : Prop :=
  r.state ≠ .filling ∧ ∀ acknowledged, r.phase ≠ .filling acknowledged

/-- The completion that the control node has in hand, before the caller is told. -/
def inHand (r : Run σ α κ β) : List (Completion κ β) :=
  match r.phase with
  | .filling acknowledged => acknowledged.toList
  | .joining last => last.toList
  | _ => []

variable {r r' : Run σ α κ β}

theorem acknowledges_of_not_filling (h : ∀ acknowledged, r'.phase ≠ .filling acknowledged) :
    r.acknowledges r' = [] := by
  rw [acknowledges]
  split
  · next hphase => exact absurd hphase (h _)
  · rfl

theorem acknowledges_eq {since : Nat} {completion : Completion κ β}
    (hphase : r.phase = .awaiting since) (hphase' : r'.phase = .filling (some completion)) :
    r.acknowledges r' = [completion] := by
  rw [acknowledges, hphase, hphase']

theorem acknowledges_of_phase_eq (h : r'.phase = r.phase) : r.acknowledges r' = [] := by
  rw [acknowledges, h]
  split
  · next hphase hphase' => rw [hphase] at hphase'; cases hphase'
  · rfl

/-- Whoever has no new answer is told nothing. -/
theorem tells_of_phase_eq (h : r'.phase = r.phase) : r.tells r' = [] := by
  have hreply : r'.reply? = r.reply? := by simp only [reply?, h]
  rw [tells]
  split
  · rfl
  · next hnone => rw [hreply, hnone, Option.toList_none]

/-- Without a completion in the reply the caller is told of none. -/
theorem completions_tells_eq_nil (h : ∀ completion, r'.phase ≠ .replied (.ok (some completion))) :
    (r.tells r').filterMap Reply.completion? = [] := by
  rw [tells]
  split
  · rfl
  · rw [reply?]
    split
    · next reply hphase =>
      cases reply with
      | error error => rfl
      | ok last =>
        cases last with
        | none => rfl
        | some completion => exact absurd hphase (h completion)
    · rfl

namespace Submits

variable {tasks : List (Task α)}

/-- Where no number is given away no task is submitted. -/
theorem eq_nil (h : r.Submits r' tasks) (hnext : r'.nextTaskNo = r.nextTaskNo) : tasks = [] := by
  cases h with
  | accepted task _ _ hmore => exact absurd (hmore.symm.trans hnext) (Nat.succ_ne_self _)
  | refused => rfl
  | nothing => rfl

/-- Numbers are given to the tasks that are submitted, unless the run fails with one of them. -/
theorem nextTaskNo_eq (h : r.Submits r' tasks) (hopen : r'.state ≠ .aborted) :
    r'.nextTaskNo = r.nextTaskNo + tasks.length := by
  cases h with
  | accepted task _ _ hnext => exact hnext
  | refused task error _ _ _ _ haborts => exact absurd haborts hopen
  | nothing _ hnext => exact hnext

/-- What is submitted is the next piece of work, under the next number. -/
theorem inOrder_add {args : List α} {t : Traffic α κ β} (h : r.Submits r' tasks)
    (hpending : r.pending = args.drop r.nextTaskNo)
    (hsubmitted : t.submitted.length = r.nextTaskNo) (hinOrder : t.InOrder args) :
    (t.add tasks []).InOrder args := by
  cases h with
  | accepted task hnext hno =>
    have hdrop : args.drop t.submitted.length = task.args :: r'.pending := by
      rw [hsubmitted, ← hpending, hnext]
    exact hinOrder.submit (hno.trans hsubmitted.symm) hdrop
  | refused => rwa [Traffic.add_nil]
  | nothing => rwa [Traffic.add_nil]

end Submits

/-- How a run that is not aborted agrees with the tasks that were acknowledged. -/
structure Windowed (args : List α) (limit : Nat) (acked : List (Completion κ β))
    (r : Run σ α κ β) : Prop where
  limit_eq : r.limit = limit
  pending : r.pending = args.drop r.nextTaskNo
  next_le : r.nextTaskNo ≤ args.length
  inFlight : ∀ no, r.inFlight.get? no ≠ none ↔ no < r.nextTaskNo ∧ no ∉ acked.map (·.taskNo)
  size : r.inFlight.size + acked.length = r.nextTaskNo
  lt : ∀ no ∈ acked.map (·.taskNo), no < r.nextTaskNo
  peak : r.peak = min limit r.nextTaskNo
  /-- Nothing is acknowledged before the window is full for the first time. -/
  first : r.state = .filling → acked = []
  reached : r.state ≠ .filling → r.pending = [] ∨ limit ≤ r.nextTaskNo
  full : r.HasFilled → r.IsFull

namespace Windowed

variable {args : List α} {limit : Nat} {acked : List (Completion κ β)}

/-- With no permit left, as many tasks are in flight as the limit allows. -/
theorem size_of_spent (h : r.Windowed args limit acked) (hbalanced : r.Balanced)
    (hspent : r.semaphore.permits = 0) : r.inFlight.size = limit := by
  have hpermits := hbalanced.permits
  rwa [hspent, Nat.zero_add, h.limit_eq] at hpermits

/-- With a permit to take there is room for one more task. -/
theorem size_of_acquire (h : r.Windowed args limit acked) (hbalanced : r.Balanced)
    {permit : Permit} {semaphore : Semaphore}
    (hacquire : r.semaphore.acquire = some (permit, semaphore)) : r.inFlight.size < limit := by
  have hpermits := hbalanced.permits
  rw [Semaphore.permits_of_acquire hacquire, h.limit_eq] at hpermits
  omega

/-- The window while tasks are not submitted. -/
theorem eq (h : r.Windowed args limit acked) (hbalanced : r.Balanced) (hfilled : r.HasFilled) :
    r.inFlight.size = min limit (args.length - acked.length) ∧
      r.nextTaskNo = min args.length (acked.length + limit) ∧
      r.peak = min limit args.length := by
  have hnone : r.pending = [] → r.nextTaskNo = args.length := fun hnone =>
    Nat.le_antisymm h.next_le (List.drop_eq_nil_iff.1 (h.pending ▸ hnone))
  have hnext := h.next_le
  have hsize := h.size
  have hroom : r.inFlight.size ≤ limit := h.limit_eq ▸ hbalanced.size_le
  rw [h.peak]
  rcases h.full hfilled with hpending | hspent
  · have := hnone hpending
    omega
  · have := h.size_of_spent hbalanced hspent
    omega

/-- A run whose window is full goes on without acknowledging anything. -/
theorem idle (h : r.Windowed args limit acked) (hbalanced : r.Balanced) (hfull : r.IsFull)
    {state : RunState} (hstate : state ≠ .filling) {phase : Phase κ β}
    (hphase : ∀ acknowledged, phase ≠ .filling acknowledged) (channel : Channel)
    (executor : Executor α κ β) (commons : Commons σ κ β) (journal : List Event) :
    let r' : Run σ α κ β := { r with state, phase, channel, executor, commons, journal }
    r'.Windowed args limit (acked ++ r.acknowledges r') := by
  intro r'
  rw [acknowledges_of_not_filling hphase, List.append_nil]
  refine { h with
    first := fun hfilling => absurd hfilling hstate
    reached := fun _ => hfull.imp_right fun hspent => ?_
    full := fun _ => hfull }
  rw [← h.size_of_spent hbalanced hspent]
  exact h.size ▸ Nat.le_add_right _ _

section Submit

variable {next : α} {rest : List α}

/-- The task that is submitted next is not in flight. -/
theorem get?_nextTaskNo (h : r.Windowed args limit acked) : r.inFlight.get? r.nextTaskNo = none := by
  by_contra hsome
  exact Nat.lt_irrefl _ ((h.inFlight _).1 hsome).1

theorem drop_eq (h : r.Windowed args limit acked) (hpending : r.pending = next :: rest) :
    args.drop r.nextTaskNo = next :: rest :=
  h.pending ▸ hpending

theorem nextTaskNo_lt (h : r.Windowed args limit acked) (hpending : r.pending = next :: rest) :
    r.nextTaskNo < args.length := by
  have hlength := congrArg List.length (h.drop_eq hpending)
  rw [List.length_drop, List.length_cons] at hlength
  omega

/-- When the window was filled for the first time and tasks are left, a full window of tasks was
submitted. -/
theorem limit_le (h : r.Windowed args limit acked) (hpending : r.pending = next :: rest)
    (hstate : r.state ≠ .filling) : limit ≤ r.nextTaskNo :=
  (h.reached hstate).resolve_left (by simp [hpending])

/-- One more task in flight is the most there were only as long as none was acknowledged. -/
theorem max_peak (h : r.Windowed args limit acked) (hpending : r.pending = next :: rest)
    (hroom : r.inFlight.size < limit) :
    max r.peak (r.inFlight.size + 1) = min limit (r.nextTaskNo + 1) := by
  have hsize := h.size
  rw [h.peak]
  by_cases hstate : r.state = .filling
  · -- nothing was acknowledged yet, so that all submitted tasks are in flight
    rw [h.first hstate, List.length_nil] at hsize
    omega
  · have hlimit := h.limit_le hpending hstate
    omega

/-- A task is submitted. -/
theorem submit (h : r.Windowed args limit acked) {acknowledged : Option (Completion κ β)}
    (hphase : r.phase = .filling acknowledged) (hroom : r.inFlight.size < limit)
    (hpending : r.pending = next :: rest) (semaphore : Semaphore) (slot : Slot)
    (executor : Executor α κ β) :
    ({ r with
      pending := rest
      semaphore
      nextTaskNo := r.nextTaskNo + 1
      executor
      inFlight := r.inFlight.insert r.nextTaskNo slot
      peak := max r.peak (r.inFlight.insert r.nextTaskNo slot).size } :
        Run σ α κ β).Windowed args limit acked := by
  have hsize := SortedMap.size_insert h.get?_nextTaskNo slot
  have hacknowledged := h.size
  refine {
    limit_eq := h.limit_eq
    pending := ?pending
    next_le := h.nextTaskNo_lt hpending
    inFlight := ?inFlight
    size := ?size
    lt := fun no hmem => Nat.lt_succ_of_lt (h.lt no hmem)
    peak := ?peak
    first := h.first
    reached := ?reached
    full := fun hfilled => absurd hphase (hfilled.2 _) }
  case pending =>
    simp only
    rw [← List.tail_drop, h.drop_eq hpending, List.tail_cons]
  case inFlight =>
    intro no
    by_cases hno : no = r.nextTaskNo
    · subst hno
      have hfresh : r.nextTaskNo ∉ acked.map (·.taskNo) :=
        fun hmem => Nat.lt_irrefl _ (h.lt _ hmem)
      simp [hfresh]
    · rw [SortedMap.get?_insert_of_ne _ hno, h.inFlight no]
      have : no < r.nextTaskNo + 1 ↔ no < r.nextTaskNo := by omega
      rw [this]
  case size =>
    simp only [hsize]
    omega
  case peak =>
    simp only [hsize]
    exact h.max_peak hpending hroom
  case reached =>
    -- after the first filling a task is submitted only if a window of them was
    exact fun hstate => .inr (Nat.le_succ_of_le (h.limit_le hpending hstate))

end Submit

/-- A task in flight is acknowledged. -/
theorem acknowledge (h : r.Windowed args limit acked) {completion : Completion κ β} {slot : Slot}
    (hslot : r.inFlight.get? completion.taskNo = some slot) (hstate : r.state ≠ .filling)
    (semaphore : Semaphore) (channel : Channel) (progress : Progress)
    (buffered : SortedMap Nat (Outcome κ β)) (commons : Commons σ κ β) :
    ({ r with
      semaphore
      inFlight := r.inFlight.erase completion.taskNo
      channel
      progress
      buffered
      commons
      phase := .filling (some completion) } : Run σ α κ β).Windowed args limit
        (acked ++ [completion]) := by
  have hsize := SortedMap.size_erase hslot
  have hbefore := h.size
  refine { h with
    inFlight := ?inFlight
    size := ?size
    lt := ?lt
    first := fun hfilling => absurd hfilling hstate
    full := fun hfilled => absurd rfl (hfilled.2 _) }
  case inFlight =>
    intro no
    simp only [List.map_append, List.map_cons, List.map_nil, List.mem_append, List.mem_singleton,
      not_or]
    by_cases hno : no = completion.taskNo
    · simp [hno, SortedMap.get?_erase_self]
    · rw [SortedMap.get?_erase_of_ne _ hno, h.inFlight no]
      simp [hno]
  case size =>
    simp only [List.length_append, List.length_singleton]
    omega
  case lt =>
    have hlt := ((h.inFlight completion.taskNo).1 (by simp [hslot])).1
    simpa [or_imp, forall_and] using ⟨by simpa using h.lt, hlt⟩

variable [TransOrd κ] [Mergeable β] [Transport σ] [Workload α]

/-- What the control node does keeps the window. -/
theorem did (h : r.Windowed args limit acked) (hbalanced : r.Balanced) (hdid : r.Did r')
    (hstaged : r.Staged) (hopen : r'.state ≠ .aborted) :
    r'.Windowed args limit (acked ++ r.acknowledges r') := by
  cases hdid with
  | submit acknowledged next rest permit semaphore executor hphase hstate hacquire hpending =>
    rw [acknowledges_of_phase_eq (by rfl), List.append_nil]
    exact h.submit hphase (h.size_of_acquire hbalanced hacquire) hpending ..
  | acknowledge since signal slot outcome part progress transport channel buffered outcomes hphase
      hincoming hslot =>
    have hstate : r.state ≠ .filling := by simp [(hstaged.at_awaiting hphase).1]
    rw [acknowledges_eq hphase (by rfl)]
    exact h.acknowledge (by exact hslot) hstate _ channel progress buffered _
  | fail error _ _ hfailed => exact absurd hfailed.state hopen
  -- nothing else touches the window, which is full whenever the control node is not filling it
  | fill hphase hfull =>
    have haccepts : r.state.acceptsTasks = true := by rw [hstaged.at_filling hphase]; rfl
    exact h.idle hbalanced (hfull haccepts) (by simp) (by simp) ..
  | reply completion hphase hfull =>
    have hstate := hstaged.at_refilling hphase
    exact h.idle hbalanced (hfull (by rw [hstate]; rfl)) (by simp [hstate]) (by simp) ..
  | finish last hphase => exact h.idle hbalanced (hstaged.at_end hphase).2 (by simp) (by simp) ..
  | drive executor commons phase hphase =>
    rcases hphase with ⟨hphase, -, rfl⟩ | ⟨last, hphase, rfl⟩
    · obtain ⟨hstate, hfull⟩ := hstaged.at_deciding hphase
      exact h.idle hbalanced hfull (by simp [hstate]) (by simp) ..
    · obtain ⟨hstate, hfull, -⟩ := hstaged.at_joining hphase
      exact h.idle hbalanced hfull (by simp [hstate]) (by simp [hphase]) ..
  | crash fault executor commons hphase =>
    rcases hphase with hphase | ⟨last, hphase⟩
    · obtain ⟨hstate, hfull⟩ := hstaged.at_deciding hphase
      exact h.idle hbalanced hfull (by simp [hstate]) (by simp) ..
    · obtain ⟨hstate, hfull, -⟩ := hstaged.at_joining hphase
      exact h.idle hbalanced hfull (by simp [hstate]) (by simp) ..
  | join last hphase =>
    obtain ⟨hstate, hfull, -⟩ := hstaged.at_joining hphase
    exact h.idle hbalanced hfull (by simp [hstate]) (by simp) ..
  | drop since transport channel hphase =>
    obtain ⟨hstate, hfull⟩ := hstaged.at_awaiting hphase
    exact h.idle hbalanced hfull (by simp [hstate]) (by simp) ..

omit [TransOrd κ] [Mergeable β] [Transport σ] [Workload α] in
/-- A question does not change the window. -/
theorem ask (h : r.Windowed args limit acked) (horderly : r.Orderly) (hopen : r.state ≠ .aborted)
    (hask : r.mayAsk = true) : r.ask.Windowed args limit acked := by
  cases hover : r.state.isTerminal with
  | true =>
    rw [ask_of_isTerminal hask hover]
    have hdone := (RunState.eq_of_isTerminal hover).resolve_right hopen
    exact { h with full := fun _ => (horderly.of_done hdone).1 }
  | false =>
    rcases ask_of_not_isTerminal hask hover with ⟨hstate, heq⟩ | ⟨hstate, heq⟩
    · rw [heq]
      exact { h with full := fun hfilled => absurd hstate hfilled.1 }
    · rw [heq]
      exact { h with full := fun _ => horderly.of_draining hask hstate }

end Windowed

/-- A question is not answered with a completion at once. -/
theorem ask_tells_nothing (hask : r.mayAsk = true) :
    r.inHand = [] ∧ r.ask.inHand = [] ∧
      r.ask.reply?.toList.filterMap Reply.completion? = [] := by
  refine ⟨?_, ?_⟩
  · rw [inHand]
    split
    · next hphase => simp [mayAsk, hphase] at hask
    · next hphase => simp [mayAsk, hphase] at hask
    · rfl
  · cases hover : r.state.isTerminal with
    | true => simp [ask_of_isTerminal hask hover, inHand, reply?, Reply.completion?]
    | false =>
      rcases ask_of_not_isTerminal hask hover with ⟨-, heq⟩ | ⟨-, heq⟩ <;>
        simp [heq, inHand, reply?]

/-- An orderly run that may be asked, and was asked before, has filled its window. -/
theorem Orderly.hasFilled (h : r.Orderly) (hask : r.mayAsk = true) (hphase : r.phase ≠ .resting) :
    r.HasFilled := by
  refine ⟨?_, fun acknowledged hfilling => by simp [mayAsk, hfilling] at hask⟩
  cases h with
  | failed _ hstate => simp [hstate]
  | crashed _ hcrashed => simp [mayAsk, hcrashed] at hask
  | staged hstaged =>
    intro hstate
    rw [Staged] at hstaged
    split at hstaged <;> simp_all [mayAsk]

section Moves

variable [TransOrd κ] [Mergeable β] [Transport σ] [Workload α]

/-- With each move the executor accepts one task or none. -/
theorem exists_submits_of_move? {m : Move} (h : r.move? m = some r') :
    ∃ tasks, r.Submits r' tasks := by
  rcases did_or_step_of_move? h with ⟨hdid, -⟩ | ⟨index, executor, commons, -, hstep, rfl⟩
  · exact hdid.exists_submits
  · exact ⟨[], .nothing rfl rfl (Executor.waiting_step_suffix hstep)⟩

/-- A step of the control node acknowledges nothing and leaves the counters as they are, or it
acknowledges one task in flight and counts its units. -/
theorem Did.acknowledges_cases (h : r.Did r') :
    (r.acknowledges r' = [] ∧ (r'.state ≠ .aborted → r'.progress = r.progress)) ∨
      ∃ completion, r.acknowledges r' = [completion] ∧
        r.inFlight.get? completion.taskNo ≠ none ∧
        r.progress.advance completion.amount = .ok completion.progress ∧
        r'.progress = completion.progress := by
  cases h with
  | acknowledge since signal slot outcome part progress transport channel buffered outcomes hphase
      hincoming hslot hpasses hadvance =>
    exact .inr ⟨_, acknowledges_eq hphase (by rfl), by simp [hslot], hadvance, rfl⟩
  | submit => exact .inl ⟨acknowledges_of_phase_eq (by rfl), fun _ => rfl⟩
  | drive executor commons phase hphase =>
    refine .inl ⟨?_, fun _ => rfl⟩
    rcases hphase with ⟨-, -, rfl⟩ | ⟨last, hphase, rfl⟩
    · exact acknowledges_of_not_filling (by simp)
    · exact acknowledges_of_phase_eq (by rfl)
  | fail _ _ _ hfailed =>
    exact .inl ⟨acknowledges_of_not_filling (by simp [hfailed.phase]),
      fun hopen => absurd hfailed.state hopen⟩
  | _ => exact .inl ⟨acknowledges_of_not_filling (by simp [Run.finish, Run.note]), fun _ => rfl⟩

/-- The traffic stays in order with every step of the control node. -/
theorem Windowed.ordered_add {args : List α} {limit : Nat} {t : Traffic α κ β}
    {tasks : List (Task α)} (h : r.Windowed args limit t.acknowledged)
    (hsubmitted : t.submitted.length = r.nextTaskNo) (hinOrder : t.InOrder args)
    (hdid : r.Did r') (htasks : r.Submits r' tasks) :
    (t.add tasks (r.acknowledges r')).InOrder args := by
  have hmore := htasks.inOrder_add h.pending hsubmitted hinOrder
  rcases hdid.acknowledges_cases with ⟨hnone, -⟩ | ⟨completion, hnew, hflies, -⟩
  · rwa [hnone]
  · obtain ⟨hlt, hfirst⟩ := (h.inFlight _).1 hflies
    rw [hnew, ← Traffic.add_add]
    refine hmore.acknowledge ?_ (by simpa [Traffic.answered] using hfirst)
    rw [Traffic.submitted_add, List.length_append, hsubmitted]
    exact Nat.lt_add_right _ hlt

/-- A task that is acknowledged is in hand until the caller is told. -/
theorem Did.tells_append_inHand (h : r.Did r') (hopen : r'.state ≠ .aborted)
    (hlives : ∀ fault, r'.phase ≠ .crashed fault) :
    (r.tells r').filterMap Reply.completion? ++ r'.inHand =
      r.inHand ++ r.acknowledges r' := by
  have hquestion := h.reply?_eq_none
  simp only [tells, hquestion]
  cases h with
  | submit acknowledged args rest permit semaphore executor hphase =>
    simp [reply?, inHand, hphase, acknowledges]
  | fill hphase => simp [reply?, inHand, hphase, acknowledges]
  | reply completion hphase =>
    simp [reply?, inHand, hphase, acknowledges, Reply.completion?]
  | finish last hphase =>
    rcases hphase with ⟨hphase, -⟩ | ⟨hphase, rfl⟩ <;>
      simp [reply?, inHand, hphase, acknowledges, Run.finish]
  | drive executor commons phase hphase =>
    rcases hphase with ⟨hphase, -, rfl⟩ | ⟨last, hphase, rfl⟩ <;>
      simp [reply?, inHand, hphase, acknowledges]
  | crash fault => exact absurd rfl (hlives fault)
  | join last hphase =>
    cases last <;> simp [reply?, inHand, hphase, acknowledges, Run.note, Reply.completion?]
  | drop since transport channel hphase => simp [reply?, inHand, hphase, acknowledges]
  | acknowledge since signal slot outcome part progress transport channel buffered outcomes
      hphase =>
    simp [reply?, inHand, hphase, acknowledges]
  | fail error _ _ hfailed => exact absurd hfailed.state hopen

end Moves

end Run

namespace Inquiry

/-- The completions that the caller was told. -/
def told (q : Inquiry σ α κ β) : List (Completion κ β) := q.replies.filterMap Reply.completion?

/-- The caller is told of no task by a question. -/
theorem told_ask {q : Inquiry σ α κ β} (hask : q.run.mayAsk = true) : q.ask.told = q.told := by
  obtain ⟨-, -, hnone⟩ := Run.ask_tells_nothing hask
  rw [told, ask, List.filterMap_append, hnone, List.append_nil, told]

@[simp] theorem told_move [Transport σ] (q : Inquiry σ α κ β) (m : Move) (run : Run σ α κ β) :
    (q.move m run).told = q.told ++ (q.run.tells run).filterMap Reply.completion? :=
  List.filterMap_append

/-- How traffic and run agree. -/
structure Window (args : List α) (limit : Nat) (t : Traffic α κ β) (q : Inquiry σ α κ β) :
    Prop where
  ordered : t.InOrder args
  /-- Each permit is left to take, or it is held by a task in flight. -/
  permits : q.run.semaphore.permits + q.run.inFlight.size = limit
  /-- Work is taken only to be submitted. -/
  taken : q.run.state ≠ .aborted →
    q.run.nextTaskNo = t.submitted.length ∧ q.run.pending = args.drop t.submitted.length
  /-- The caller was told of tasks that were acknowledged, in their order. -/
  told : q.told <+: t.acknowledged
  /-- And of all of them, but for one that it is about to be told of. -/
  inHand : q.run.state ≠ .aborted → (∀ fault, q.run.phase ≠ .crashed fault) →
    t.acknowledged = q.told ++ q.run.inHand
  /-- Whenever the caller has an answer, or has given up waiting for one, the window is filled. -/
  filled : q.run.mayAsk = true → q.run.phase ≠ .resting → q.run.HasFilled
  width : q.run.state ≠ .aborted → q.run.HasFilled →
    q.run.inFlight.size = min limit (args.length - t.acknowledged.length) ∧
      q.run.nextTaskNo = min args.length (t.acknowledged.length + limit) ∧
      q.run.peak = min limit args.length

variable [TransOrd κ] [Mergeable β] [Transport σ] [Workload α]

/-- The traffic that an inquiry in any surroundings carries: the tasks that its executor accepts
from the control node, and those that are acknowledged. -/
inductive Carries (r : Run σ α κ β) : Traffic α κ β → Inquiry σ α κ β → Prop
  | start : Carries r .empty (start r)
  | ask {t : Traffic α κ β} {q : Inquiry σ α κ β} (h : Carries r t q) (hask : q.run.mayAsk = true) :
      Carries r t q.ask
  | move {t : Traffic α κ β} {q : Inquiry σ α κ β} {m : Move} {run : Run σ α κ β}
      {tasks : List (Task α)} (h : Carries r t q) (hmove : q.run.move? m = some run)
      (htasks : q.run.Submits run tasks) :
      Carries r (t.add tasks (q.run.acknowledges run)) (q.move m run)
  | elsewhere {t : Traffic α κ β} {q : Inquiry σ α κ β} (h : Carries r t q)
      (executor : Executor α κ β) (commons : Commons σ κ β) :
      Carries r t { q with run := { q.run with executor, commons } }

variable {run : Run σ α κ β} {t : Traffic α κ β} {q : Inquiry σ α κ β}

theorem Carries.anyReaches (h : Carries run t q) : AnyReaches run q := by
  induction h with
  | start => exact .refl
  | ask _ hask ih => exact ih.tail (.step (.ask hask))
  | move _ hmove _ ih => exact ih.tail (.step (.move hmove))
  | elsewhere _ executor commons ih => exact ih.tail (.elsewhere executor commons)

/-- Every inquiry carries some traffic. -/
theorem AnyReaches.exists_carries (h : AnyReaches run q) : ∃ t, Carries run t q := by
  induction h with
  | refl => exact ⟨_, .start⟩
  | @tail q₁ q₂ _ hlast ih =>
    obtain ⟨t, h⟩ := ih
    cases hlast with
    | elsewhere executor commons => exact ⟨t, h.elsewhere executor commons⟩
    | step hstep =>
      cases hstep with
      | ask hask => exact ⟨t, h.ask hask⟩
      | move hmove =>
        obtain ⟨tasks, htasks⟩ := Run.exists_submits_of_move? hmove
        exact ⟨_, h.move hmove htasks⟩
      | arrive transport => exact ⟨t, h.elsewhere q₁.run.executor _⟩

variable {d : Dispatcher α κ β} {transport : σ} {pending : Pending α} {total : Nat}

/-- The window slides over all work in its order, until the run is aborted. -/
theorem Carries.windowed (hstart : d.start transport pending total = .ok run)
    (h : Carries run t q) :
    t.InOrder (d.queued ++ pending.args) ∧ (q.run.state ≠ .aborted →
      t.submitted.length = q.run.nextTaskNo ∧
        q.run.Windowed (d.queued ++ pending.args) d.settings.limit t.acknowledged) := by
  induction h with
  | start =>
    obtain ⟨mode, executor, opened, -, -, rfl⟩ := Dispatcher.exists_of_start hstart
    refine ⟨.empty _, fun _ => ⟨rfl, ?_⟩⟩
    exact {
      limit_eq := rfl
      pending := rfl
      next_le := Nat.zero_le _
      inFlight := by simp [Dispatcher.fresh]
      size := rfl
      lt := by simp [Traffic.empty]
      peak := by simp [Dispatcher.fresh]
      first := fun _ => rfl
      reached := fun hstate => absurd rfl hstate
      full := fun hfilled => absurd rfl hfilled.1 }
  | @ask t q h hask ih =>
    refine ⟨ih.1, fun hopen => ?_⟩
    rw [run_ask, (Run.ask_keeps hask).1] at hopen
    obtain ⟨phase, heq⟩ := q.run.ask_eq
    obtain ⟨hsubmitted, hwindowed⟩ := ih.2 hopen
    refine ⟨?_, hwindowed.ask (h.anyReaches.orderly hstart).run hopen hask⟩
    rw [run_ask, heq]
    exact hsubmitted
  | elsewhere h executor commons ih =>
    exact ⟨ih.1, fun hopen => ⟨(ih.2 hopen).1, { (ih.2 hopen).2 with }⟩⟩
  | @move t q m run' tasks h hmove htasks ih =>
    have horderly := h.anyReaches.orderly hstart
    rcases Run.did_or_step_of_move? hmove with ⟨hdid, -⟩ | ⟨_, executor, commons, -, -, rfl⟩
    · have hstaged := hdid.staged horderly.run
      obtain ⟨hsubmitted, hwindowed⟩ := ih.2 hstaged.ne_aborted
      refine ⟨hwindowed.ordered_add hsubmitted ih.1 hdid htasks, fun hopen => ⟨?_,
        hwindowed.did horderly.balanced hdid hstaged hopen⟩⟩
      rw [Traffic.submitted_add, List.length_append, hsubmitted, run_move,
        htasks.nextTaskNo_eq hopen]
    · -- a worker submits nothing
      obtain rfl := htasks.eq_nil rfl
      rw [Run.acknowledges_of_phase_eq (by rfl), Traffic.add_nil]
      exact ⟨ih.1, fun hopen => ⟨(ih.2 hopen).1, { (ih.2 hopen).2 with }⟩⟩

/-- The limit of a run stays as it is. -/
theorem AnyReaches.limit_eq (hstart : d.start transport pending total = .ok run)
    (hreaches : AnyReaches run q) : q.run.limit = d.settings.limit := by
  have hfirst : (start run).run.limit = d.settings.limit := by
    obtain ⟨mode, executor, opened, -, -, rfl⟩ := Dispatcher.exists_of_start hstart
    rfl
  apply hreaches.invariant hfirst
  · intro q q' hwent hlimit
    cases hwent with
    | ask hask =>
      obtain ⟨phase, heq⟩ := q.run.ask_eq
      rw [run_ask, heq]
      exact hlimit
    | did hdid => exact hdid.limit_eq.trans hlimit
    | elsewhere => exact hlimit

/-- What was acknowledged is what the caller was told, or is about to be told. -/
theorem Carries.acknowledged_eq (hstart : d.start transport pending total = .ok run)
    (h : Carries run t q) (hopen : q.run.state ≠ .aborted)
    (hlives : ∀ fault, q.run.phase ≠ .crashed fault) :
    t.acknowledged = q.told ++ q.run.inHand := by
  induction h with
  | start =>
    obtain ⟨mode, executor, opened, -, -, rfl⟩ := Dispatcher.exists_of_start hstart
    by_cases hlimit : mostPermits < d.settings.limit <;>
      simp [Inquiry.start, Dispatcher.fresh, hlimit, Traffic.empty, told, Run.inHand]
  | @ask t q h hask ih =>
    obtain ⟨hbefore, hafter, -⟩ := Run.ask_tells_nothing hask
    rw [run_ask, (Run.ask_keeps hask).1] at hopen
    rw [told_ask hask, run_ask, hafter, ← hbefore]
    exact ih hopen fun fault hcrashed => by simp [Run.mayAsk, hcrashed] at hask
  | elsewhere h executor commons ih => exact ih hopen hlives
  | @move t q m run' tasks h hmove htasks ih =>
    -- what is told and what is in hand afterwards is what was in hand and what is new
    rw [told_move, run_move, List.append_assoc]
    rcases Run.did_or_step_of_move? hmove with ⟨hdid, -⟩ | ⟨_, executor, commons, -, -, rfl⟩
    · have hstaged := hdid.staged (h.anyReaches.orderly hstart).run
      have hrunning : ∀ fault, q.run.phase ≠ .crashed fault := fun fault hcrashed => by
        simp [Run.Staged, hcrashed] at hstaged
      rw [hdid.tells_append_inHand hopen hlives, ← List.append_assoc,
        ← ih hstaged.ne_aborted hrunning]
      rfl
    · rw [Run.acknowledges_of_phase_eq (by rfl), Run.tells_of_phase_eq (by rfl),
        Traffic.acknowledged_add, List.append_nil]
      exact ih hopen hlives

/-- The caller is only told of tasks that were acknowledged. -/
theorem Carries.told_isPrefix (hstart : d.start transport pending total = .ok run)
    (h : Carries run t q) : q.told <+: t.acknowledged := by
  induction h with
  | start => exact List.nil_prefix
  | @ask t q h hask ih =>
    rw [told_ask hask]
    exact ih
  | elsewhere h executor commons ih => exact ih
  | @move t q m run' tasks h hmove htasks ih =>
    have hmoved := h.move hmove htasks
    by_cases htells : ∃ completion, run'.phase = .replied (.ok (some completion))
    · -- a run that tells of a task has neither failed nor crashed
      obtain ⟨completion, hphase⟩ := htells
      have hopen : run'.state ≠ .aborted := fun haborted => by
        obtain ⟨hreplied, -⟩ := (hmoved.anyReaches.orderly hstart).run.of_aborted haborted
        simp [hphase] at hreplied
      rw [hmoved.acknowledged_eq hstart hopen (by simp [hphase])]
      exact List.prefix_append _ _
    · rw [told_move, Run.completions_tells_eq_nil (not_exists.1 htells), List.append_nil]
      exact ih.trans (List.prefix_append _ _)

/-- However tasks are acknowledged, whatever arrives and whatever executor and workers do: the
tasks that the executor has accepted are all work in its order as far as it was taken, and the
window of tasks in flight is as wide as limit and work allow whenever the control node is not
submitting. -/
theorem AnyReaches.window (hstart : d.start transport pending total = .ok run)
    (hreaches : AnyReaches run q) :
    (∃ t, Carries run t q) ∧
      ∀ t, Carries run t q → q.Window (d.queued ++ pending.args) d.settings.limit t := by
  refine ⟨hreaches.exists_carries, fun t hcarries => ?_⟩
  obtain ⟨hinOrder, hwindowed⟩ := hcarries.windowed hstart
  have horderly := hreaches.orderly hstart
  have hpermits := horderly.balanced.permits.trans (hreaches.limit_eq hstart)
  refine ⟨hinOrder, hpermits, fun hopen => ?_, hcarries.told_isPrefix hstart,
    hcarries.acknowledged_eq hstart, horderly.run.hasFilled,
    fun hopen => (hwindowed hopen).2.eq horderly.balanced⟩
  obtain ⟨hsubmitted, hwindow⟩ := hwindowed hopen
  exact ⟨hsubmitted.symm, hsubmitted ▸ hwindow.pending⟩

end Inquiry

/-- The arguments of two tasks that follow. -/
def Pending.twoMore : Pending ScriptedTask :=
  .lazy [.plain "third" (.ofInt 2), .plain "fourth" (.ofInt 2)]

/-- Once one of four tasks is acknowledged, a third one is submitted, and no more. -/
theorem Inquiry.window_of_fourTasks :
    ∃ (run : Run FaultyBroker ScriptedTask String Count)
      (q : Inquiry FaultyBroker ScriptedTask String Count),
      (Dispatcher.twoTasks .inWorker).start FaultyBroker.doubling .twoMore 8 = .ok run ∧
        AnyReaches run q ∧ q.run.state = .draining ∧ q.run.mayAsk = true ∧
        q.run.nextTaskNo = 3 ∧ (∃ t, Carries run t q) ∧
        ∀ t, Carries run t q → t.acknowledged.length = 1 ∧ q.Window
          ((Dispatcher.twoTasks .inWorker).queued ++ Pending.twoMore.args) 2 t := by
  have hplayed : (match (Dispatcher.twoTasks .inWorker).start FaultyBroker.doubling .twoMore 8 with
      | .ok run =>
        let played := run.ask.play (fun _ => false) 40
        run.mayAsk && decide (played.state = .draining ∧ played.mayAsk = true ∧
          played.nextTaskNo = 3)
      | .error _ => false) = true := by decide +kernel
  split at hplayed
  · next run hstart =>
    obtain ⟨hask, hplayed⟩ := Bool.and_eq_true_iff.1 hplayed
    obtain ⟨hstate, hanswered, hnext⟩ := of_decide_eq_true hplayed
    have hask' : (start run).run.mayAsk = true := hask
    obtain ⟨q, hrow, hrun⟩ := exists_of_play hask' (fun _ => false) 40
    rw [run_start] at hrun
    rw [← hrun] at hstate hanswered hnext
    have hany : AnyReaches run q := Reaches.any hrow
    obtain ⟨hcarries, hwindow⟩ := AnyReaches.window hstart hany
    refine ⟨run, q, hstart, hany, hstate, hanswered, hnext, hcarries, fun t ht => ?_⟩
    have hfilled : q.run.HasFilled :=
      ⟨by simp [hstate], fun _ hphase => by simp [Run.mayAsk, hphase] at hanswered⟩
    obtain ⟨-, hsubmitted, -⟩ := (hwindow t ht).width (by simp [hstate]) hfilled
    have hall : ((Dispatcher.twoTasks .inWorker).queued ++ Pending.twoMore.args).length = 4 := rfl
    have hlimit : (Dispatcher.twoTasks .inWorker).settings.limit = 2 := rfl
    refine ⟨?_, hwindow t ht⟩
    omega
  · cases hplayed

end BatchRun
