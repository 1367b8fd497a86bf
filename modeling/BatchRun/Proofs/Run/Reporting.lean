import BatchRun.Proofs.Run.Sound
import BatchRun.Proofs.Tally.Exact
import BatchRun.Rehearsal.ScriptedTask
import BatchRun.Signal.Broker

/-!
# What workers report

A worker goes from station to station, and between two of them anything may happen elsewhere:
other workers merge into the shared tally, the control node takes outcomes, signals are
delivered. So a shift of a worker is told as a list of passages, each with what it found and what
it left, and nothing is assumed of how one passage leads to the next.

Whatever the work function does, an outcome is sent at the end, and then a signal is published,
both of them true. There is one exception: a partial result that cannot be merged into what the
shared tally holds takes its worker along, and nobody hears of the task.

## Main definitions

* `Passage`, `Shift`: a station of a worker, and all of them to the end of a task
* `Passage.SendsIfWanted`, `Passage.PublishesIfAccepted`: what is said unless nobody would hear it
* `Shift.Reports`: first an outcome is sent, then a signal is published, and that is all
* `Tells`: an outcome and a signal tell the truth about a task
* `Worker.MergeFaults`: a value of the partial result cannot be merged when its turn comes
* `Worker.quietly`: what a worker finds if nothing happens elsewhere

## Main results

* `Worker.shift_quietly`: to run a task to its end is a shift in which nothing happens elsewhere
* `Worker.reports_iff`: a task is reported if and only if no merge faults
-/

namespace BatchRun

open Std

variable {σ α κ β : Type} [Ord κ]

/-- What control node and workers share, as a worker finds it at a station and leaves it. -/
structure Passage (σ κ β : Type) [Ord κ] where
  found : Commons σ κ β
  left : Commons σ κ β

namespace Passage

/-- Nothing is sent and nothing is published. -/
def IsSilent (p : Passage σ κ β) : Prop :=
  p.left.outcomes = p.found.outcomes ∧ p.left.transport = p.found.transport

/-- An outcome is sent, and nothing is published. -/
def Sends (p : Passage σ κ β) (outcome : Outcome κ β) : Prop :=
  p.left.outcomes = p.found.outcomes ++ [outcome] ∧ p.left.transport = p.found.transport

/-- A signal is published under the routing key of a run, and nothing is sent. -/
def Publishes [Transport σ] (p : Passage σ κ β) (notifier : Notifier) (signal : Signal) : Prop :=
  p.left.outcomes = p.found.outcomes ∧
    Transport.publish notifier.routingKey signal.toJson p.found.transport = .ok p.left.transport

/-- An outcome is sent, unless nobody is left to take it. -/
def SendsIfWanted (p : Passage σ κ β) (outcome : Outcome κ β) : Prop :=
  p.Sends outcome ∨ p.found.outcomesWanted = false ∧ p.IsSilent

/-- A signal is published, unless the transport refuses it. -/
def PublishesIfAccepted [Transport σ] (p : Passage σ κ β) (notifier : Notifier)
    (signal : Signal) : Prop :=
  p.Publishes notifier signal ∨
    (∃ problem, Transport.publish notifier.routingKey signal.toJson p.found.transport =
      .error problem) ∧ p.IsSilent

theorem sendsIfWanted_send (commons : Commons σ κ β) (outcome : Outcome κ β) :
    (⟨commons, commons.send outcome⟩ : Passage σ κ β).SendsIfWanted outcome := by
  rw [Commons.send]
  by_cases hwanted : commons.outcomesWanted = true
  · rw [if_pos hwanted]
    exact .inl ⟨rfl, rfl⟩
  · rw [if_neg hwanted]
    exact .inr ⟨Bool.eq_false_iff.2 hwanted, rfl, rfl⟩

theorem publishesIfAccepted_publish [Transport σ] (commons : Commons σ κ β) (notifier : Notifier)
    (signal : Signal) :
    (⟨commons, commons.publish notifier signal⟩ : Passage σ κ β).PublishesIfAccepted notifier
      signal := by
  rw [Commons.publish, Notifier.publish]
  cases hpublish : Transport.publish notifier.routingKey signal.toJson commons.transport with
  | ok transport => exact .inl ⟨rfl, hpublish⟩
  | error problem => exact .inr ⟨⟨problem, hpublish⟩, rfl, rfl⟩

end Passage

/-- The passages of a worker up to the end of its task, and where it stands then. -/
structure Shift (σ α κ β : Type) [Ord κ] where
  passages : List (Passage σ κ β)
  ending : Worker α κ β

namespace Shift

/-- The shift with a passage before it. -/
def cons (p : Passage σ κ β) (s : Shift σ α κ β) : Shift σ α κ β := ⟨p :: s.passages, s.ending⟩

/-- The worker is ready for the next task, and all it has said is an outcome first and a signal
after it. -/
def Reports [Transport σ] (s : Shift σ α κ β) (notifier : Notifier) (outcome : Outcome κ β)
    (signal : Signal) : Prop :=
  s.ending = .idle ∧ ∃ silent sending publishing,
    s.passages = silent ++ [sending, publishing] ∧ (∀ p ∈ silent, p.IsSilent) ∧
      sending.Sends outcome ∧ publishing.Publishes notifier signal

/-- The worker is lost, and has said nothing. -/
def IsMute (s : Shift σ α κ β) : Prop :=
  (∃ fault, s.ending = .lost fault) ∧ ∀ p ∈ s.passages, p.IsSilent

/-- What is left at the end of a shift, given what was there before. -/
def left (s : Shift σ α κ β) (commons : Commons σ κ β) : Commons σ κ β :=
  s.passages.foldl (fun _ p => p.left) commons

theorem Reports.cons [Transport σ] {s : Shift σ α κ β} {notifier : Notifier}
    {outcome : Outcome κ β} {signal : Signal} {p : Passage σ κ β} (hp : p.IsSilent)
    (h : s.Reports notifier outcome signal) : (s.cons p).Reports notifier outcome signal := by
  obtain ⟨hending, silent, sending, publishing, hpassages, hsilent, hsends, hpublishes⟩ := h
  refine ⟨hending, p :: silent, sending, publishing, ?_, ?_, hsends, hpublishes⟩
  · rw [Shift.cons, hpassages, List.cons_append]
  · exact List.forall_mem_cons.2 ⟨hp, hsilent⟩

theorem IsMute.cons {s : Shift σ α κ β} {p : Passage σ κ β} (hp : p.IsSilent) (h : s.IsMute) :
    (s.cons p).IsMute :=
  ⟨h.1, List.forall_mem_cons.2 ⟨hp, h.2⟩⟩

/-- A worker that is lost has reported nothing. -/
theorem IsMute.not_reports [Transport σ] {s : Shift σ α κ β} (h : s.IsMute) (notifier : Notifier)
    (outcome : Outcome κ β) (signal : Signal) : ¬s.Reports notifier outcome signal := by
  rintro ⟨hending, -⟩
  obtain ⟨fault, hlost⟩ := h.1
  rw [hending] at hlost
  cases hlost

end Shift

/-- Whatever is found, outcomes are wanted and signals are accepted. -/
structure Attended [Transport σ] (notifier : Notifier) (found : Nat → Commons σ κ β) : Prop where
  wanted : ∀ n, (found n).outcomesWanted = true
  accepts : ∀ n signal, ∃ transport, notifier.publish signal (found n).transport = .ok transport

theorem Attended.tail [Transport σ] {notifier : Notifier} {found : Nat → Commons σ κ β}
    (h : Attended notifier found) : Attended notifier fun n => found (n + 1) :=
  ⟨fun n => h.wanted (n + 1), fun n => h.accepts (n + 1)⟩

/-- What an outcome and a signal have to say about a task whose work function has ended; whether
the partial result was merged by the worker is said with them. -/
structure Tells [Workload α] (shop : Workshop α κ β) (task : Task α) (merged : Bool)
    (outcome : Outcome κ β) (signal : Signal) : Prop where
  taskNo : outcome.taskNo = task.no
  units : outcome.units = Workload.units task.args
  label : outcome.label = Workload.label task.args
  result : outcome.result =
    (shop.work task).verdict.result.map fun part => if merged then none else some part
  runId : signal.runId = shop.notifier.runId
  signalNo : signal.taskNo = task.no
  completed : ∀ part, (shop.work task).verdict.result = .ok part →
    signal.failed = false ∧ signal.amount = Workload.units task.args
  failure : ∀ cause, (shop.work task).verdict.result = .error cause →
    signal.failed = true ∧ signal.amount = 0 ∧ signal.errorMessage = some cause.line

namespace Worker

/-- The outcome of a task, and the signal that a worker makes of it, tell the truth. -/
theorem tells_of_outcomeOf [Workload α] (shop : Workshop α κ β) (task : Task α) (merged : Bool)
    (now : Instant) {outcome : Outcome κ β}
    (houtcome : outcome = outcomeOf task
      ((shop.work task).verdict.result.map fun part => if merged then none else some part)) :
    Tells shop task merged outcome (signalOf shop outcome.taskNo (saidOf outcome) now) := by
  subst houtcome
  cases hresult : (shop.work task).verdict.result with
  | ok part =>
    refine ⟨rfl, rfl, rfl, by rw [hresult]; rfl, rfl, rfl, fun _ _ => ⟨rfl, rfl⟩, ?_⟩
    intro cause hcause
    cases hresult.symm.trans hcause
  | error cause =>
    refine ⟨rfl, rfl, rfl, by rw [hresult]; rfl, rfl, rfl, ?_, ?_⟩
    · intro part hpart
      cases hresult.symm.trans hpart
    · intro cause' hcause
      obtain rfl := Except.error.inj (hresult.symm.trans hcause)
      refine ⟨rfl, rfl, ?_⟩
      exact congrArg (Option.bind · Json.text?) (SortedMap.get?_insert_self ..)

/-- Some value cannot be merged into what the shared tally holds when its turn comes, given what
is found at each turn. -/
def Faults [TransOrd κ] [Mergeable β] (found : Nat → Commons σ κ β) (entries : List (κ × β)) :
    Prop :=
  ∃ n k delta shared, entries[n]? = some (k, delta) ∧ (found n).shared = some shared ∧
    (shared.mergeInto k delta).2 ≠ none

/-- The work function comes to a partial result, and some value of it cannot be merged into what
the shared tally holds when its turn comes. The values have their turns one after the other, right
after the station at which the work function ends. -/
def MergeFaults [TransOrd κ] [Mergeable β] (shop : Workshop α κ β) (task : Task α)
    (found : Nat → Commons σ κ β) : Prop :=
  ∃ part, (shop.work task).verdict.result = .ok part ∧
    Faults (fun n => found (n + 1)) part.entries

section Faults

variable [TransOrd κ] [Mergeable β] {found : Nat → Commons σ κ β}

theorem not_faults_nil : ¬Faults found [] := by
  rintro ⟨n, k, delta, shared, hentry, -⟩
  simp at hentry

/-- It is the first value that faults, or one of the others. -/
theorem faults_cons_iff {k : κ} {delta : β} {rest : List (κ × β)} :
    Faults found ((k, delta) :: rest) ↔
      (∃ shared, (found 0).shared = some shared ∧ (shared.mergeInto k delta).2 ≠ none) ∨
        Faults (fun n => found (n + 1)) rest := by
  constructor
  · rintro ⟨n, k', delta', shared, hentry, hshared, hfault⟩
    cases n with
    | zero =>
      obtain ⟨rfl, rfl⟩ := Prod.mk.inj (Option.some.inj hentry)
      exact .inl ⟨shared, hshared, hfault⟩
    | succ n => exact .inr ⟨n, k', delta', shared, hentry, hshared, hfault⟩
  · rintro (⟨shared, hshared, hfault⟩ | ⟨n, k', delta', shared, hentry, hshared, hfault⟩)
    · exact ⟨0, k, delta, shared, rfl, hshared, hfault⟩
    · exact ⟨n + 1, k', delta', shared, hentry, hshared, hfault⟩

end Faults

variable [TransOrd κ] [Mergeable β] [Transport σ] [Workload α]

/-- The shift of a worker, given what it finds at each of its stations. -/
def shift (shop : Workshop α κ β) (w : Worker α κ β) (found : Nat → Commons σ κ β) :
    Shift σ α κ β :=
  if h : w.isBusy = true then
    have := ahead_step_lt shop w (found 0) h
    ((w.step shop (found 0)).1.shift shop fun n => found (n + 1)).cons
      ⟨found 0, (w.step shop (found 0)).2⟩
  else ⟨[], w⟩
termination_by w.ahead shop

section Stations

variable {shop : Workshop α κ β} {w : Worker α κ β} {found : Nat → Commons σ κ β}

theorem shift_of_isBusy (h : w.isBusy = true) :
    w.shift shop found = ((w.step shop (found 0)).1.shift shop fun n => found (n + 1)).cons
      ⟨found 0, (w.step shop (found 0)).2⟩ := by
  rw [shift, dif_pos h]

theorem shift_of_not_isBusy (h : w.isBusy = false) : w.shift shop found = ⟨[], w⟩ := by
  rw [shift, dif_neg (by simp [h])]

/-- A worker that neither has an outcome to send nor a signal to publish says nothing. -/
theorem isSilent_step (commons : Commons σ κ β) (hreporting : ∀ outcome, w ≠ .reporting outcome)
    (hsignalling : ∀ taskNo said, w ≠ .signalling taskNo said) :
    (⟨commons, (w.step shop commons).2⟩ : Passage σ κ β).IsSilent := by
  cases w with
  | running task ends => rw [step, conclude_snd]; exact ⟨rfl, rfl⟩
  | merging task rest =>
    cases rest with
    | nil => exact ⟨rfl, rfl⟩
    | cons entry rest =>
      simp only [step]
      split
      · exact ⟨rfl, rfl⟩
      · split <;> exact ⟨rfl, rfl⟩
  | reporting outcome => exact absurd rfl (hreporting outcome)
  | signalling taskNo said => exact absurd rfl (hsignalling taskNo said)
  | _ => exact ⟨rfl, rfl⟩

/-- At a value that is still to be merged the worker goes on, unless the merge faults; then it is
lost. -/
theorem step_merging (shop : Workshop α κ β) (task : Task α) (k : κ) (delta : β)
    (rest : List (κ × β)) (commons : Commons σ κ β) :
    ((∀ shared, commons.shared = some shared → (shared.mergeInto k delta).2 = none) ∧
        ((merging task ((k, delta) :: rest)).step shop commons).1 = .merging task rest) ∨
      ∃ shared fault, commons.shared = some shared ∧
        (shared.mergeInto k delta).2 = some fault ∧
        ((merging task ((k, delta) :: rest)).step shop commons).1 = .lost fault := by
  cases hshared : commons.shared with
  | none => exact .inl ⟨nofun, by simp only [step, hshared]⟩
  | some shared =>
    cases hmerge : shared.mergeInto k delta with
    | mk shared' fault =>
      cases fault with
      | none =>
        refine .inl ⟨?_, by simp only [step, hshared, hmerge]⟩
        rintro _ ⟨rfl⟩
        rw [hmerge]
      | some fault =>
        exact .inr ⟨shared, fault, rfl, by rw [hmerge], by simp only [step, hshared, hmerge]⟩

/-- An outcome that is to be sent is reported. -/
theorem reports_reporting (h : Attended shop.notifier found) (outcome : Outcome κ β) :
    ((reporting outcome).shift shop found).Reports shop.notifier outcome
      (signalOf shop outcome.taskNo (saidOf outcome) (found 1).now) := by
  obtain ⟨transport, hpublish⟩ :=
    h.accepts 1 (signalOf shop outcome.taskNo (saidOf outcome) (found 1).now)
  rw [shift_of_isBusy rfl, step, shift_of_isBusy rfl, step, shift_of_not_isBusy rfl]
  refine ⟨rfl, [], _, _, rfl, by simp, ?_, ?_⟩
  · apply (Passage.sendsIfWanted_send (found 0) outcome).resolve_right
    rintro ⟨hunwanted, -⟩
    exact absurd (h.wanted 0) (Bool.eq_false_iff.1 hunwanted)
  · apply (Passage.publishesIfAccepted_publish (found 1) shop.notifier _).resolve_right
    rintro ⟨⟨problem, hrefused⟩, -⟩
    cases hpublish.symm.trans hrefused

/-- If every value can be merged when its turn comes, the task is reported after the last one. -/
theorem reports_merging (h : Attended shop.notifier found) (task : Task α)
    {entries : List (κ × β)} (hsafe : ¬Faults found entries) :
    ∃ now, ((merging task entries).shift shop found).Reports shop.notifier
      (outcomeOf task (.ok none))
      (signalOf shop task.no (.ok (Workload.units task.args)) now) := by
  -- the induction is on the values, with whatever is found from each of them on
  induction entries generalizing found with
  | nil =>
    rw [shift_of_isBusy rfl]
    exact ⟨_, (reports_reporting h.tail _).cons (isSilent_step _ nofun nofun)⟩
  | cons entry rest ih =>
    obtain ⟨k, delta⟩ := entry
    rw [faults_cons_iff, not_or] at hsafe
    rcases step_merging shop task k delta rest (found 0) with
      ⟨-, hnext⟩ | ⟨shared, fault, hshared, hfault, -⟩
    · obtain ⟨now, hreports⟩ := ih h.tail hsafe.2
      rw [shift_of_isBusy rfl, hnext]
      exact ⟨now, hreports.cons (isSilent_step _ nofun nofun)⟩
    · exact absurd ⟨shared, hshared, by rw [hfault]; simp⟩ hsafe.1

/-- The first value that cannot be merged when its turn comes leaves the worker lost. -/
theorem isMute_merging (task : Task α) {entries : List (κ × β)} (hfaults : Faults found entries) :
    ((merging task entries).shift shop found).IsMute := by
  induction entries generalizing found with
  | nil => exact absurd hfaults not_faults_nil
  | cons entry rest ih =>
    obtain ⟨k, delta⟩ := entry
    rw [shift_of_isBusy rfl]
    refine Shift.IsMute.cons (isSilent_step _ nofun nofun) ?_
    rcases step_merging shop task k delta rest (found 0) with
      ⟨hsafe, hnext⟩ | ⟨shared, fault, -, -, hnext⟩
    · rw [hnext]
      refine ih ((faults_cons_iff.1 hfaults).resolve_left ?_)
      rintro ⟨shared, hshared, hfault⟩
      exact hfault (hsafe shared hshared)
    · rw [hnext, shift_of_not_isBusy rfl]
      exact ⟨⟨fault, rfl⟩, by simp⟩

/-- A worker that has begun a task will merge the partial result, or it has an outcome to send
that tells the truth. -/
theorem step_begin (shop : Workshop α κ β) (task : Task α) (commons : Commons σ κ β)
    {here : Commons σ κ β} {shares : Bool} (hshares : here.shared.isSome = shares) :
    (∃ part, (shop.work task).verdict.result = .ok part ∧ shares = true ∧
        ((begin shop task commons).step shop here).1 = .merging task part.entries) ∨
      ((∀ part, (shop.work task).verdict.result = .ok part → shares = false) ∧
        ((begin shop task commons).step shop here).1 = .reporting (outcomeOf task
          ((shop.work task).verdict.result.map fun part =>
            if shares then none else some part))) := by
  subst hshares
  simp only [begin, step, conclude]
  cases (shop.work task).verdict.result with
  | error cause =>
    refine .inr ⟨?_, rfl⟩
    rintro part ⟨⟩
  | ok part =>
    simp only [Commons.passUntil]
    cases here.shared with
    | none => exact .inr ⟨fun _ _ => rfl, rfl⟩
    | some shared => exact .inl ⟨part, rfl, rfl, rfl⟩

/-- A task is reported, and truly, unless a merge faults. -/
theorem exists_reports (h : Attended shop.notifier found) {shares : Bool}
    (hshares : ∀ n, (found n).shared.isSome = shares) (task : Task α) (commons : Commons σ κ β)
    (hsafe : ¬MergeFaults shop task found) :
    ∃ outcome signal,
      ((begin shop task commons).shift shop found).Reports shop.notifier outcome signal ∧
        Tells shop task shares outcome signal := by
  have hsilent : (⟨found 0, ((begin shop task commons).step shop (found 0)).2⟩ :
      Passage σ κ β).IsSilent := isSilent_step _ nofun nofun
  rw [shift_of_isBusy rfl]
  rcases step_begin shop task commons (hshares 0) with ⟨part, hpart, rfl, hnext⟩ | ⟨-, hnext⟩
  · obtain ⟨now, hreports⟩ := reports_merging h.tail task
      fun hfaults => hsafe ⟨part, hpart, hfaults⟩
    rw [hnext]
    exact ⟨_, _, hreports.cons hsilent,
      tells_of_outcomeOf shop task true now (by rw [hpart]; rfl)⟩
  · rw [hnext]
    exact ⟨_, _, (reports_reporting h.tail _).cons hsilent,
      tells_of_outcomeOf shop task shares _ rfl⟩

/-- A merge that faults leaves the worker lost. -/
theorem isMute_of_mergeFaults {shares : Bool} (hshares : ∀ n, (found n).shared.isSome = shares)
    {task : Task α} (commons : Commons σ κ β) (hfaults : MergeFaults shop task found) :
    ((begin shop task commons).shift shop found).IsMute := by
  obtain ⟨part, hpart, hfaults⟩ := hfaults
  rw [shift_of_isBusy rfl]
  refine Shift.IsMute.cons (isSilent_step _ nofun nofun) ?_
  rcases step_begin shop task commons (hshares 0) with
    ⟨part', hpart', -, hnext⟩ | ⟨hnone, -⟩
  · obtain rfl := Except.ok.inj (hpart'.symm.trans hpart)
    rw [hnext]
    exact isMute_merging task hfaults
  · -- there is a tally to merge into, as a merge into it faults
    obtain ⟨n, -, -, shared, -, hshared, -⟩ := hfaults
    have hnot := (hshares (n + 1)).trans (hnone part hpart)
    rw [hshared] at hnot
    cases hnot

end Stations

section Quietly

variable (shop : Workshop α κ β)

/-- What a worker finds at each of its stations if nothing happens elsewhere. -/
def quietly (w : Worker α κ β) (commons : Commons σ κ β) : Nat → Commons σ κ β
  | 0 => commons
  | n + 1 => quietly (w.step shop commons).1 (w.step shop commons).2 n

/-- To take a task to its end is a shift in which nothing happens elsewhere. -/
theorem shift_quietly (w : Worker α κ β) (commons : Commons σ κ β) :
    (w.shift shop (quietly shop w commons)).ending = (w.finish shop commons).1 ∧
      (w.shift shop (quietly shop w commons)).left commons = (w.finish shop commons).2 := by
  by_cases hbusy : w.isBusy = true
  · have := ahead_step_lt shop w commons hbusy
    rw [shift_of_isBusy hbusy, finish, dif_pos hbusy]
    exact shift_quietly (w.step shop commons).1 (w.step shop commons).2
  · rw [shift_of_not_isBusy (by simpa using hbusy), finish, dif_neg hbusy]
    exact ⟨rfl, rfl⟩
termination_by w.ahead shop

/-- What every step keeps is found at all stations, if nothing happens elsewhere. -/
theorem quietly_induction {motive : Commons σ κ β → Prop}
    (hstep : ∀ (w : Worker α κ β) commons, motive commons → motive (w.step shop commons).2)
    (w : Worker α κ β) {commons : Commons σ κ β} (h : motive commons) (n : Nat) :
    motive (quietly shop w commons n) := by
  induction n generalizing w commons with
  | zero => exact h
  | succ n ih => exact ih _ (hstep w commons h)

/-- Whether outcomes are wanted, and whether there is a shared tally, is not for workers to
change. -/
theorem step_keeps (w : Worker α κ β) (commons : Commons σ κ β) :
    (w.step shop commons).2.outcomesWanted = commons.outcomesWanted ∧
      (w.step shop commons).2.shared.isSome = commons.shared.isSome := by
  cases w with
  | running task ends => rw [step, conclude_snd]; exact ⟨rfl, rfl⟩
  | merging task rest =>
    cases rest with
    | nil => exact ⟨rfl, rfl⟩
    | cons entry rest =>
      simp only [step]
      split
      · exact ⟨rfl, rfl⟩
      · next shared hshared =>
        rw [hshared]
        split <;> exact ⟨rfl, rfl⟩
  | reporting outcome =>
    simp only [step, Commons.send]
    split <;> exact ⟨rfl, rfl⟩
  | signalling taskNo said =>
    obtain ⟨transport, hpublish⟩ :=
      commons.exists_publish_eq shop.notifier (signalOf shop taskNo said commons.now)
    rw [step, hpublish]
    exact ⟨rfl, rfl⟩
  | _ => exact ⟨rfl, rfl⟩

theorem outcomesWanted_quietly (w : Worker α κ β) {commons : Commons σ κ β}
    (h : commons.outcomesWanted = true) (n : Nat) :
    (quietly shop w commons n).outcomesWanted = true :=
  quietly_induction shop (fun w commons h => (step_keeps shop w commons).1.trans h) w h n

theorem isSome_shared_quietly (w : Worker α κ β) (commons : Commons σ κ β) (n : Nat) :
    (quietly shop w commons n).shared.isSome = commons.shared.isSome :=
  quietly_induction shop (motive := fun c => c.shared.isSome = commons.shared.isSome)
    (fun w commons h => (step_keeps shop w commons).2.trans h) w rfl n

end Quietly

/-- As long as outcomes are wanted and signals are accepted, and whatever else happens between two
stations, a worker that has begun a task reports it, truly, if and only if no merge faults.
Otherwise the worker is lost, without outcome and without signal. -/
theorem reports_iff (shop : Workshop α κ β) (task : Task α) (found : Nat → Commons σ κ β)
    (commons : Commons σ κ β) {shares : Bool} (h : Attended shop.notifier found)
    (hshares : ∀ n, (found n).shared.isSome = shares) :
    ((∃ outcome signal,
        ((begin shop task commons).shift shop found).Reports shop.notifier outcome signal ∧
          Tells shop task shares outcome signal) ↔ ¬MergeFaults shop task found) ∧
      (MergeFaults shop task found → ((begin shop task commons).shift shop found).IsMute) := by
  refine ⟨⟨?_, exists_reports h hshares task commons⟩, isMute_of_mergeFaults hshares commons⟩
  rintro ⟨outcome, signal, hreports, -⟩ hfaults
  exact (isMute_of_mergeFaults hshares commons hfaults).not_reports _ _ _ hreports

end Worker

/-- Workers that count the units of their tasks, and whose signals go to a broker in memory. -/
def Workshop.counting : Workshop ScriptedTask String Count where
  work task := ⟨.finished (.ofEntries [("units", task.args.units)]), [], 0⟩
  notifier := ⟨⟨"rehearsal"⟩, "tasks"⟩

/-- A task of some units. -/
def Task.ofUnits (units : Count) : Task ScriptedTask := ⟨1, .plain "first" units, .named "dispatch"⟩

/-- A shared tally in which units were counted before. -/
def Commons.counted (units : Count) : Commons Broker String Count :=
  { Commons.start (.new "rehearsal") true .empty with
    shared := some ⟨.ofEntries [("units", units)], [true]⟩ }

namespace Worker

/-- What is found by a worker that counts more units than were counted before, if nothing happens
elsewhere. -/
def counting (before more : Count) : Nat → Commons Broker String Count :=
  quietly .counting (begin .counting (.ofUnits more) (.counted before)) (.counted before)

theorem attended_counting (before more : Count) :
    Attended Workshop.counting.notifier (counting before more) :=
  ⟨outcomesWanted_quietly _ _ rfl, fun _ _ => ⟨_, rfl⟩⟩

theorem isSome_shared_counting (before more : Count) (n : Nat) :
    (counting before more n).shared.isSome = true :=
  isSome_shared_quietly _ _ _ n

/-- More units are counted as long as there is room for them. -/
theorem mergeInto_counted_iff (before more : Count) :
    (SharedTally.mergeInto ⟨.ofEntries [("units", before)], [true]⟩ "units" more).2 ≠ none ↔
      2 ^ 64 - 1 < before.val + more.val := by
  have hget : (Tally.ofEntries [("units", before)]).get "units" = before := by
    simp [Tally.get, Tally.get?, Tally.ofEntries, SortedMap.ofList]
  simp only [SharedTally.mergeInto, Tally.mergeInto, hget]
  cases hsum : Mergeable.merge before more with
  | ok sum =>
    have hval : sum.val = before.val + more.val := Mergeable.add_eq_ok_iff.1 hsum
    have hle : sum.val ≤ 2 ^ 64 - 1 := sum.le_greatest
    exact iff_of_false (fun hfault => hfault rfl) (by omega)
  | error fault =>
    refine iff_of_true (Option.some_ne_none fault) ?_
    by_contra hle
    have hfits : before.add more = .ok ⟨before.val + more.val,
        Int.add_nonneg before.least_le more.least_le, Int.not_lt.1 hle⟩ :=
      Mergeable.add_eq_ok_iff.2 rfl
    cases hsum.symm.trans hfits

/-- There is one value to merge. -/
theorem mergeFaults_counting_iff (before more : Count) :
    MergeFaults .counting (.ofUnits more) (counting before more) ↔
      2 ^ 64 - 1 < before.val + more.val := by
  have hpart : (Workshop.counting.work (.ofUnits more)).verdict.result =
      .ok (.ofEntries [("units", more)]) := rfl
  have hfaults : Faults (fun n => counting before more (n + 1)) [("units", more)] ↔ _ :=
    faults_cons_iff
  rw [← mergeInto_counted_iff]
  constructor
  · rintro ⟨part, hpart', hfaults'⟩
    obtain rfl := Except.ok.inj (hpart.symm.trans hpart')
    rcases hfaults.1 hfaults' with ⟨shared, hshared, hfault⟩ | hnone
    · obtain rfl := Option.some.inj hshared
      exact hfault
    · exact absurd hnone not_faults_nil
  · intro hfault
    exact ⟨_, hpart, hfaults.2 (.inl ⟨_, rfl, hfault⟩)⟩

/-- The last unit that there is room for is counted, and reported. -/
theorem reports_iff_of_last :
    ∃ before more : Count, before.val = 2 ^ 64 - 2 ∧ more.val = 1 ∧
      ∃ outcome signal,
        ((begin .counting (.ofUnits more) (.counted before)).shift .counting
          (counting before more)).Reports Workshop.counting.notifier outcome signal ∧
            Tells .counting (.ofUnits more) true outcome signal := by
  refine ⟨⟨2 ^ 64 - 2, by decide, by decide⟩, ⟨1, by decide, by decide⟩, rfl, rfl, ?_⟩
  refine (reports_iff .counting (.ofUnits _) _ (.counted _) (attended_counting _ _)
    (isSome_shared_counting _ _)).1.2 ?_
  rw [mergeFaults_counting_iff]
  decide

/-- A worker that finds no room for its unit reports nothing, although outcomes are wanted and
signals are accepted. -/
theorem not_reports_of_overflow :
    ∃ before more : Count, before.val = 2 ^ 64 - 1 ∧ more.val = 1 ∧
      Attended Workshop.counting.notifier (counting before more) ∧
      ¬∃ outcome signal,
        ((begin .counting (.ofUnits more) (.counted before)).shift .counting
          (counting before more)).Reports Workshop.counting.notifier outcome signal := by
  refine ⟨⟨2 ^ 64 - 1, by decide, by decide⟩, ⟨1, by decide, by decide⟩, rfl, rfl,
    attended_counting _ _, ?_⟩
  rintro ⟨outcome, signal, hreports⟩
  refine (isMute_of_mergeFaults (isSome_shared_counting _ _) _ ?_).not_reports _ _ _ hreports
  rw [mergeFaults_counting_iff]
  decide

end Worker

end BatchRun
