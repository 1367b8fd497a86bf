import BatchRun.Proofs.Run.Control
import BatchRun.Rehearsal.Interview

/-!
# Inquiries: a run and all that its caller does

A caller need not follow a run to its end: it may ask for completions as often as it likes, also
after an error or after the last one, and it may give up waiting for a reply and ask anew. An
inquiry is a run with what its caller was told, which amounts the counters have accepted, and
which outcomes were sent.

Two kinds of steps are told apart. In a step the executor is the one that there is, and only the
transport is free to change by itself. In a step of any surroundings executor, workers and
transport may have become anything; what is kept by these steps depends on the control node
alone.

## Main definitions

* `Run.counts`: the amounts that a move adds to the counters
* `Run.sends`: the tasks whose outcomes are sent in a move
* `Inquiry`, `Inquiry.Step`, `Inquiry.AnyStep`: inquiries and their steps
* `Inquiry.Reaches`, `Inquiry.AnyReaches`: inquiries that a run comes to

## Main results

* `Inquiry.AnyStep.went`: the control node was asked, or did a step, or only its surroundings
  have changed
* `Inquiry.exists_of_reaches`: what a session does with a run, an inquiry may do as well
-/

namespace BatchRun

open Std Relation

variable {σ α κ β : Type} [Ord κ]

namespace Run

/-- Whether the caller can ask for the next completion: there is no question, it was answered, or
the caller gives up waiting for the answer. -/
def mayAsk (r : Run σ α κ β) : Bool :=
  match r.phase with
  | .resting | .replied _ | .awaiting _ => true
  | _ => false

/-- What the caller is told with a move. -/
def tells (r r' : Run σ α κ β) : List (Reply κ β) :=
  match r.reply? with
  -- the question was answered before
  | some _ => []
  | none => r'.reply?.toList

/-- The tasks whose outcomes are sent in a move: outcomes that were sent before can only be taken
from the front. -/
def sends (r r' : Run σ α κ β) : List Nat :=
  (r'.commons.outcomes.drop r.commons.outcomes.length).map (·.taskNo)

/-- The amount of a signal that is taken in, if the counters accept it. -/
def accepted (r : Run σ α κ β) (signal : Signal) : List Nat :=
  match r.inFlight.get? signal.taskNo, signal.failed, r.progress.advance signal.amount with
  | some _, false, .ok _ => [signal.amount]
  | _, _, _ => []

section Counts

variable [Transport σ]

/-- The amounts that a move adds to the counters. -/
def counts (r : Run σ α κ β) : Move → List Nat
  | .control => (r.incoming?.map r.accepted).getD []
  | .worker _ | .expire => []

/-- Only a control node that waits counts anything. -/
theorem counts_of_not_awaiting {r : Run σ α κ β} (h : ∀ since, r.phase ≠ .awaiting since)
    (m : Move) : r.counts m = [] := by
  have hnone : r.incoming? = none := by
    rw [incoming?]
    split
    · next since hphase => exact absurd hphase (h since)
    · rfl
  cases m with
  | control => rw [counts, hnone]; rfl
  | worker index => rfl
  | expire => rfl

end Counts

end Run

/-- The counters after some amounts. -/
def Progress.Adds (p : Progress) (amounts : List Nat) (p' : Progress) : Prop :=
  p'.computed = p.computed + amounts.sum ∧ p'.total = p.total

theorem Progress.Adds.of_eq {p p' : Progress} (h : p' = p) : p.Adds [] p' := by
  subst h
  exact ⟨rfl, rfl⟩

namespace Run

variable [TransOrd κ] [Mergeable β] [Transport σ] [Workload α]

omit [TransOrd κ] [Mergeable β] [Transport σ] in
theorem progress_fill (r : Run σ α κ β) (acknowledged : Option (Completion κ β)) :
    (r.fill acknowledged).progress = r.progress := by
  have hfilled : (r.filled acknowledged).progress = r.progress := by
    cases acknowledged with
    | none => rfl
    | some completion =>
      rw [filled]
      split <;> rfl
  rcases r.fill_cases acknowledged with ⟨-, heq⟩ | ⟨permit, semaphore, args, rest, -, -, -, heq⟩
  · rw [heq, hfilled]
  · rw [heq, submit]
    simp only
    split <;> rfl

theorem progress_driveThen (r : Run σ α κ β) (next : Run σ α κ β → Phase κ β) :
    (r.driveThen next).progress = r.progress := by
  rw [driveThen]
  split <;> rfl

theorem progress_waitOrEnd (r : Run σ α κ β) : r.waitOrEnd.progress = r.progress := by
  rw [waitOrEnd]
  split
  · split <;> rfl
  · exact r.progress_driveThen _

theorem progress_join? {r r' : Run σ α κ β} {last : Option (Completion κ β)}
    (h : r.join? last = some r') : r'.progress = r.progress := by
  rw [join?] at h
  split at h
  · obtain rfl := Option.some.inj h
    rfl
  · split at h
    · obtain rfl := Option.some.inj h
      exact r.progress_driveThen _
    · cases h

omit [Mergeable β] [Workload α] [Transport σ] [TransOrd κ] in
/-- The amount of a signal is counted if the counters accept it, whatever becomes of the run. -/
theorem adds_acknowledge (r : Run σ α κ β) (signal : Signal) :
    r.progress.Adds (r.accepted signal) (r.acknowledge signal).progress := by
  obtain ⟨found, buffered, outcomes, htake⟩ := r.takeOutcome_eq signal.taskNo
  simp only [acknowledge, accepted]
  cases hlabel : r.inFlight.get? signal.taskNo with
  | none => exact .of_eq rfl
  | some label =>
    cases hfailed : signal.failed with
    | true =>
      simp only [htake, if_true]
      exact .of_eq rfl
    | false =>
      simp only [Bool.false_eq_true, if_false]
      cases hadvance : r.progress.advance signal.amount with
      | error refused => exact .of_eq rfl
      | ok progress =>
        have hadds : r.progress.Adds [signal.amount] progress := by
          rw [Progress.Adds, List.sum_singleton]
          exact Progress.eq_of_advance hadvance
        simp only [htake]
        split <;> exact hadds

omit [Mergeable β] [Workload α] [TransOrd κ] in
/-- What a payload adds to the counters is what is counted. -/
theorem adds_receive {r : Run σ α κ β} {since : Nat} {payload : Json} {transport : σ}
    (hphase : r.phase = .awaiting since)
    (hreceive : Transport.receive r.channel.queue r.commons.transport =
      (.payload payload, transport)) :
    r.progress.Adds (r.counts .control)
      (({ r with commons := { r.commons with transport } } : Run σ α κ β).receive
        payload).progress := by
  obtain ⟨⟨admission, channel⟩, hexamine⟩ : ∃ examined, r.channel.examine payload = examined :=
    ⟨_, rfl⟩
  -- what is counted is found out first, as the phase stands in the run that receives as well
  have hcounts : r.counts .control = (admission.signal?.map r.accepted).getD [] := by
    simp only [counts, incoming?, hphase, hreceive, hexamine]
  simp only [hcounts, receive, hexamine]
  cases admission with
  | refused error => exact .of_eq rfl
  | repeated => exact .of_eq rfl
  | passed signal =>
    exact adds_acknowledge { r with commons := { r.commons with transport }, channel } signal

/-- The counters change by the amounts that are counted. -/
theorem adds_control? {r r' : Run σ α κ β} (h : r.control? = some r') :
    r.progress.Adds (r.counts .control) r'.progress := by
  rw [control?] at h
  split at h
  · cases h
  · cases h
  · cases h
  · next hphase =>
    obtain rfl := Option.some.inj h
    rw [counts_of_not_awaiting (by simp [hphase])]
    exact .of_eq (r.progress_fill _)
  · next hphase =>
    obtain rfl := Option.some.inj h
    rw [counts_of_not_awaiting (by simp [hphase])]
    exact .of_eq r.progress_waitOrEnd
  · next since hphase =>
    split at h
    · cases h
    · next hreceive =>
      obtain rfl := Option.some.inj h
      simp only [counts, incoming?, hphase, hreceive]
      exact .of_eq rfl
    · next payload transport hreceive =>
      obtain rfl := Option.some.inj h
      exact adds_receive hphase hreceive
  · next hphase =>
    rw [counts_of_not_awaiting (by simp [hphase])]
    exact .of_eq (progress_join? h)

/-- A move is a step of a worker, or a step of the control node with what it counts; that waiting
is over is one of the latter. -/
theorem did_or_step_of_move? {r r' : Run σ α κ β} {m : Move} (h : r.move? m = some r') :
    (r.Did r' ∧ r.progress.Adds (r.counts m) r'.progress) ∨
      ∃ index executor commons, m = .worker index ∧
        r.executor.step r.shop index r.commons = some (executor, commons) ∧
        r' = { r with executor, commons } := by
  cases m with
  | control => exact .inl ⟨did_of_control? h, adds_control? h⟩
  | worker index =>
    simp only [move?, worker?, Option.map_eq_some_iff, Prod.exists] at h
    obtain ⟨executor, commons, hstep, rfl⟩ := h
    exact .inr ⟨index, executor, commons, rfl, hstep, rfl⟩
  | expire =>
    simp only [move?, expire?] at h
    split at h
    · next since milliseconds hphase _ =>
      split at h
      · obtain rfl := Option.some.inj h
        exact .inl ⟨did_fail _ r.commons r.channel (.inr ⟨since, hphase⟩), .of_eq rfl⟩
      · cases h
    · cases h

end Run

/-- The error in a reply, if it is one. -/
def Reply.error? : Reply κ β → Option RunError
  | .error error => some error
  | .ok _ => none

/-- A run, and what its caller does. -/
structure Inquiry (σ α κ β : Type) [Ord κ] where
  run : Run σ α κ β
  /-- What the caller was told, one reply for each question that was answered. -/
  replies : List (Reply κ β)
  /-- The amounts that the counters have accepted. -/
  counted : List Nat
  /-- The numbers of the tasks whose outcomes were sent. -/
  sent : List Nat

namespace Inquiry

/-- An inquiry before the first question. -/
def start (r : Run σ α κ β) : Inquiry σ α κ β := ⟨r, [], [], []⟩

@[simp] theorem run_start (r : Run σ α κ β) : (start r).run = r := rfl

/-- The errors that the caller was told. -/
def errors (q : Inquiry σ α κ β) : List RunError := q.replies.filterMap Reply.error?

/-- The caller asks for the next completion. -/
def ask (q : Inquiry σ α κ β) : Inquiry σ α κ β :=
  { q with run := q.run.ask, replies := q.replies ++ q.run.ask.reply?.toList }

@[simp] theorem run_ask (q : Inquiry σ α κ β) : q.ask.run = q.run.ask := rfl

variable [Transport σ]

/-- An inquiry after a move that leads to the given run. -/
def move (q : Inquiry σ α κ β) (m : Move) (run : Run σ α κ β) : Inquiry σ α κ β where
  run := run
  replies := q.replies ++ q.run.tells run
  counted := q.counted ++ q.run.counts m
  sent := q.sent ++ q.run.sends run

@[simp] theorem run_move (q : Inquiry σ α κ β) (m : Move) (run : Run σ α κ β) :
    (q.move m run).run = run := rfl

@[simp] theorem counted_move (q : Inquiry σ α κ β) (m : Move) (run : Run σ α κ β) :
    (q.move m run).counted = q.counted ++ q.run.counts m := rfl

@[simp] theorem errors_move (q : Inquiry σ α κ β) (m : Move) (run : Run σ α κ β) :
    (q.move m run).errors = q.errors ++ (q.run.tells run).filterMap Reply.error? :=
  List.filterMap_append

variable [TransOrd κ] [Mergeable β] [Workload α]

/-- What can happen next in an inquiry. -/
inductive Step (q : Inquiry σ α κ β) : Inquiry σ α κ β → Prop
  | ask (hask : q.run.mayAsk = true) : Step q q.ask
  | move {m : Move} {run : Run σ α κ β} (h : q.run.move? m = some run) : Step q (q.move m run)
  /-- Something arrives that nobody has published here, or is lost on the way. -/
  | arrive (transport : σ) :
      Step q { q with run := { q.run with commons := { q.run.commons with transport } } }

/-- What can happen next in an inquiry in any surroundings. -/
inductive AnyStep (q : Inquiry σ α κ β) : Inquiry σ α κ β → Prop
  | step {q' : Inquiry σ α κ β} (h : Step q q') : AnyStep q q'
  /-- The executor, its workers, and all that is shared with them become anything. -/
  | elsewhere (executor : Executor α κ β) (commons : Commons σ κ β) :
      AnyStep q { q with run := { q.run with executor, commons } }

/-- An inquiry that a run comes to. -/
def Reaches (r : Run σ α κ β) (q : Inquiry σ α κ β) : Prop := ReflTransGen Step (start r) q

/-- An inquiry that a run comes to in any surroundings. -/
def AnyReaches (r : Run σ α κ β) (q : Inquiry σ α κ β) : Prop :=
  ReflTransGen AnyStep (start r) q

/-- What may have happened to an inquiry as far as the control node is concerned. -/
inductive Went (q : Inquiry σ α κ β) : Inquiry σ α κ β → Prop
  | ask (hask : q.run.mayAsk = true) : Went q q.ask
  | did {m : Move} {run : Run σ α κ β} (hdid : q.run.Did run)
      (hadds : q.run.progress.Adds (q.run.counts m) run.progress) : Went q (q.move m run)
  | elsewhere (executor : Executor α κ β) (commons : Commons σ κ β) (sent : List Nat) :
      Went q { q with run := { q.run with executor, commons }, sent }

/-- The control node was asked, or has done a step, or only its surroundings have changed. -/
theorem AnyStep.went {q q' : Inquiry σ α κ β} (h : q.AnyStep q') : q.Went q' := by
  cases h with
  | elsewhere executor commons => exact .elsewhere executor commons q.sent
  | step h =>
    cases h with
    | ask hask => exact .ask hask
    | arrive transport => exact .elsewhere q.run.executor _ q.sent
    | @move m run hmove =>
      rcases Run.did_or_step_of_move? hmove with ⟨hdid, hadds⟩ | ⟨index, e, commons, rfl, -, rfl⟩
      · exact .did hdid hadds
      · -- a worker tells nobody anything
        have htells : q.run.tells { q.run with executor := e, commons } = [] := by
          simp only [Run.tells]
          split
          · rfl
          · next hnone => exact congrArg Option.toList hnone
        have hmoved := Went.elsewhere (q := q) e commons
          (q.sent ++ q.run.sends { q.run with executor := e, commons })
        simpa only [move, htells, Run.counts, List.append_nil] using hmoved

/-- What holds at the start of an inquiry and is kept by every step in any surroundings holds
throughout. -/
theorem AnyReaches.invariant {r : Run σ α κ β} {q : Inquiry σ α κ β} (h : AnyReaches r q)
    {Holds : Inquiry σ α κ β → Prop} (hstart : Holds (start r))
    (hstep : ∀ q q', Went q q' → Holds q → Holds q') : Holds q := by
  induction h with
  | refl => exact hstart
  | tail _ hlast ih => exact hstep _ _ hlast.went ih

theorem Reaches.any {r : Run σ α κ β} {q : Inquiry σ α κ β} (h : Reaches r q) :
    AnyReaches r q :=
  ReflTransGen.mono (fun _ _ hstep => AnyStep.step hstep) _ _ h

/-- What a session does with the run of an inquiry, the inquiry may go on with. -/
theorem exists_of_reaches {q : Inquiry σ α κ β} {s : Session σ α κ β} (hask : q.run.mayAsk = true)
    (h : Session.Reaches q.run s) : ∃ q', ReflTransGen Step q q' ∧ q'.run = s.run := by
  induction h with
  | refl => exact ⟨q.ask, .single (.ask hask), rfl⟩
  | tail _ hlast ih =>
    obtain ⟨q', hrow, hrun⟩ := ih
    cases hlast with
    | @move m run hmove =>
      rw [← hrun] at hmove
      exact ⟨q'.move m run, hrow.tail (.move hmove), rfl⟩
    | @absorb completion result hphase _ =>
      -- a caller who merges what it was told asks for more
      have hask' : q'.run.mayAsk = true := by rw [hrun, Run.mayAsk, hphase]
      exact ⟨q'.ask, hrow.tail (.ask hask'), congrArg Run.ask hrun⟩

/-- To ask and to play for a while is what an inquiry may go on with. -/
theorem exists_of_play {q : Inquiry σ α κ β} (hask : q.run.mayAsk = true) (held : α → Bool)
    (patience : Nat) :
    ∃ q', ReflTransGen Step q q' ∧ q'.run = q.run.ask.play held patience := by
  obtain ⟨begun, hrow⟩ := Session.reaches_play held patience (Session.start q.run)
  exact exists_of_reaches hask hrow

end Inquiry

end BatchRun
