import BatchRun.Proofs.Run.Inquiry
import BatchRun.Proofs.Run.Integrity

/-!
# The states of a run come in order

A run fills, drains and is done, or it is aborted on the way. This is so whatever its caller,
executor, workers and transport do: the first error aborts the run and is told once, all work is
submitted and acknowledged before the run is done, and a run that is over stays as it is.

## Main definitions

* `RunState.Leads`: how a state may change
* `Run.Orderly`: what is true of a run in each phase, also after a failure
* `Inquiry.InOrder`, `Inquiry.Proceeds`: how an inquiry stands, and how it goes on

## Main results

* `Inquiry.AnyReaches.inOrder`: every inquiry stands and goes on like that
-/

namespace BatchRun

open Std Relation

variable {σ α κ β : Type} [Ord κ]

/-- How a state may change in one step. -/
inductive RunState.Leads : RunState → RunState → Prop
  | stay (state : RunState) : Leads state state
  | drain : Leads .filling .draining
  | finish : Leads .draining .done
  | abort {state : RunState} (h : state.acceptsTasks = true) : Leads state .aborted

/-- A run that is aborted stays so. -/
theorem RunState.Leads.eq_aborted {state : RunState} (h : Leads .aborted state) :
    state = .aborted := by
  cases h with
  | stay => rfl
  | abort => rfl

theorem RunState.eq_of_isTerminal {state : RunState} (h : state.isTerminal = true) :
    state = .done ∨ state = .aborted := by
  cases state with
  | done => exact .inl rfl
  | aborted => exact .inr rfl
  | _ => cases h

theorem RunState.acceptsTasks_eq (state : RunState) : state.acceptsTasks = !state.isTerminal := by
  cases state <;> rfl

namespace Run

namespace Staged

variable {r : Run σ α κ β} {last : Option (Completion κ β)}

theorem ne_aborted (h : r.Staged) : r.state ≠ .aborted := by
  intro hstate
  rw [Staged] at h
  split at h <;> simp [hstate] at h

theorem at_filling (h : r.Staged) (hphase : r.phase = .filling none) : r.state = .filling := by
  rwa [Staged, hphase] at h

theorem at_refilling (h : r.Staged) {completion : Completion κ β}
    (hphase : r.phase = .filling (some completion)) : r.state = .draining := by
  rwa [Staged, hphase] at h

theorem at_deciding (h : r.Staged) (hphase : r.phase = .deciding) :
    r.state = .draining ∧ r.IsFull := by
  rwa [Staged, hphase] at h

theorem at_awaiting (h : r.Staged) {since : Nat} (hphase : r.phase = .awaiting since) :
    r.state = .draining ∧ r.IsFull := by
  rwa [Staged, hphase] at h

theorem at_joining (h : r.Staged) (hphase : r.phase = .joining last) :
    r.state = .done ∧ r.IsFull ∧ r.isFinished = true := by
  rwa [Staged, hphase] at h

/-- A run that is about to end, with its last task or without one, drains and is full. -/
theorem at_end (h : r.Staged)
    (hphase : (r.phase = .filling last ∧ last ≠ none ∧
      (r.state.acceptsTasks = true → r.IsFull)) ∨ r.phase = .deciding ∧ last = none) :
    r.state = .draining ∧ r.IsFull := by
  rcases hphase with ⟨hphase, hlast, hfull⟩ | ⟨hphase, -⟩
  · obtain ⟨completion, rfl⟩ := Option.ne_none_iff_exists'.1 hlast
    have hstate := h.at_refilling hphase
    exact ⟨hstate, hfull (by rw [hstate]; rfl)⟩
  · exact h.at_deciding hphase

end Staged

/-- What is true of a run at any time: what its phase says, unless it has failed or crashed. -/
inductive Orderly (r : Run σ α κ β) : Prop
  | staged (hstaged : r.Staged)
  | failed (hphase : r.phase = .replied (.ok none) ∨ ∃ error, r.phase = .replied (.error error))
      (hstate : r.state = .aborted) (hinFlight : r.inFlight = .empty)
      (hbuffered : r.buffered = .empty) (hshows : r.showsShared = false)
  | crashed (fault : Fault) (hphase : r.phase = .crashed fault) (hstate : r.state ≠ .aborted)
      (hdone : r.state = .done → r.IsFull ∧ r.isFinished = true)

namespace Orderly

variable {r : Run σ α κ β}

/-- Only a run that has failed is aborted. -/
theorem of_aborted (h : r.Orderly) (hstate : r.state = .aborted) :
    (r.phase = .replied (.ok none) ∨ ∃ error, r.phase = .replied (.error error)) ∧
      r.inFlight = .empty ∧ r.buffered = .empty ∧ r.showsShared = false := by
  cases h with
  | failed hphase _ hinFlight hbuffered hshows => exact ⟨hphase, hinFlight, hbuffered, hshows⟩
  | crashed _ _ hnot => exact absurd hstate hnot
  | staged hstaged => exact absurd hstate hstaged.ne_aborted

/-- What executor and workers do is of no concern to the order of a run. -/
theorem elsewhere (h : r.Orderly) (executor : Executor α κ β) (commons : Commons σ κ β) :
    ({ r with executor, commons } : Run σ α κ β).Orderly := by
  cases h with
  | staged hstaged => exact .staged hstaged
  | failed hphase hstate hinFlight hbuffered hshows =>
    exact .failed hphase hstate hinFlight hbuffered hshows
  | crashed fault hphase hstate hdone => exact .crashed fault hphase hstate hdone

/-- A run that is done has submitted everything that there was room for, and nothing is missing. -/
theorem of_done (h : r.Orderly) (hstate : r.state = .done) : r.IsFull ∧ r.isFinished = true := by
  cases h with
  | failed _ haborted => rw [hstate] at haborted; cases haborted
  | crashed _ _ _ hdone => exact hdone hstate
  | staged hstaged =>
    rw [Staged] at hstaged
    split at hstaged <;> simp [hstate] at hstaged <;> exact hstaged

/-- A run that drains was asked before, and has submitted all that there was room for. -/
theorem of_draining (h : r.Orderly) (hask : r.mayAsk = true) (hstate : r.state = .draining) :
    r.IsFull := by
  cases h with
  | failed _ haborted => rw [hstate] at haborted; cases haborted
  | crashed fault hphase => simp [mayAsk, hphase] at hask
  | staged hstaged =>
    rw [Staged] at hstaged
    split at hstaged <;> simp_all [mayAsk]

end Orderly

/-- A run that is over has nothing more to tell. -/
theorem ask_of_isTerminal {r : Run σ α κ β} (hask : r.mayAsk = true)
    (hover : r.state.isTerminal = true) : r.ask = { r with phase := .replied (.ok none) } := by
  rw [ask]
  split
  · next hphase => simp [mayAsk, hphase] at hask
  · rfl
  · rfl
  · next hstate _ => simp [hstate, RunState.isTerminal] at hover
  · next hstate _ => simp [hstate, RunState.isTerminal] at hover

/-- A run that is not over gets to work when it is asked. -/
theorem ask_of_not_isTerminal {r : Run σ α κ β} (hask : r.mayAsk = true)
    (hopen : r.state.isTerminal = false) :
    (r.state = .filling ∧ r.ask = { r with phase := .filling none }) ∨
      (r.state = .draining ∧ r.ask = { r with phase := .deciding }) := by
  rw [ask]
  split
  · next hphase => simp [mayAsk, hphase] at hask
  · next hstate _ => simp [hstate, RunState.isTerminal] at hopen
  · next hstate _ => simp [hstate, RunState.isTerminal] at hopen
  · next hstate _ => exact .inl ⟨hstate, rfl⟩
  · next hstate _ => exact .inr ⟨hstate, rfl⟩

/-- Asking keeps a run orderly. -/
theorem Orderly.ask {r : Run σ α κ β} (h : r.Orderly) (hask : r.mayAsk = true) :
    r.ask.Orderly := by
  cases hover : r.state.isTerminal with
  | true =>
    rw [ask_of_isTerminal hask hover]
    rcases RunState.eq_of_isTerminal hover with hstate | hstate
    · obtain ⟨hfull, hfinished⟩ := h.of_done hstate
      exact .staged ⟨hstate, hfull, hfinished⟩
    · obtain ⟨-, hinFlight, hbuffered, hshows⟩ := h.of_aborted hstate
      exact .failed (.inl rfl) hstate hinFlight hbuffered hshows
  | false =>
    rcases ask_of_not_isTerminal hask hover with ⟨hstate, heq⟩ | ⟨hstate, heq⟩
    · rw [heq]
      exact .staged hstate
    · rw [heq]
      exact .staged ⟨hstate, h.of_draining hask hstate⟩

/-- How one step of the control node changes the state: as it may without an error, or it fails
with one. -/
inductive Changes (r r' : Run σ α κ β) : Prop
  | goes (hleads : r.state.Leads r'.state) (hstate : r'.state ≠ .aborted)
      (hphase : ∀ error, r'.phase ≠ .replied (.error error))
  | fails (error : RunError) (haccepts : r.state.acceptsTasks = true)
      (hstate : r'.state = .aborted) (hphase : r'.phase = .replied (.error error))

/-- The run is as it was, but for what is shared with workers and for what its caller is told. -/
def Rests (r r' : Run σ α κ β) : Prop :=
  r' = { r with
    phase := r'.phase, executor := r'.executor, commons := r'.commons, journal := r'.journal }

theorem Rests.trans {r r' r'' : Run σ α κ β} (h : r.Rests r') (h' : r'.Rests r'') :
    r.Rests r'' := by
  rw [Rests] at h h' ⊢
  rw [h] at h'
  exact h'

theorem Rests.state_eq {r r' : Run σ α κ β} (h : r.Rests r') : r'.state = r.state := by
  rw [Rests] at h
  rw [h]

theorem isFinished_iff {r : Run σ α κ β} :
    r.isFinished = true ↔ r.progress.computed = r.progress.total ∧ r.inFlight.size = 0 := by
  rw [isFinished, Bool.and_eq_true_iff, SortedMap.isEmpty_iff_size, Progress.isComplete,
    beq_iff_eq]

/-- A question changes neither the state nor the counters, and is not answered with an error. -/
theorem ask_keeps {r : Run σ α κ β} (hask : r.mayAsk = true) :
    r.ask.state = r.state ∧ r.ask.progress = r.progress ∧
      r.ask.reply?.toList.filterMap Reply.error? = [] := by
  cases hover : r.state.isTerminal with
  | true =>
    rw [ask_of_isTerminal hask hover]
    exact ⟨rfl, rfl, rfl⟩
  | false =>
    rcases ask_of_not_isTerminal hask hover with ⟨-, heq⟩ | ⟨-, heq⟩ <;> rw [heq] <;>
      exact ⟨rfl, rfl, rfl⟩

/-- Without an error in the reply the caller is told none. -/
theorem errors_tells_eq_nil {r r' : Run σ α κ β}
    (h : ∀ error, r'.phase ≠ .replied (.error error)) :
    (r.tells r').filterMap Reply.error? = [] := by
  rw [tells]
  split
  · rfl
  · rw [reply?]
    split
    · next reply hphase =>
      cases reply with
      | error error => exact absurd hphase (h error)
      | ok last => rfl
    · rfl

/-- The error that a run fails with is told to whoever has asked. -/
theorem errors_tells_eq {r r' : Run σ α κ β} {error : RunError} (hopen : r.reply? = none)
    (h : r'.phase = .replied (.error error)) :
    (r.tells r').filterMap Reply.error? = [error] := by
  have htold : r'.reply? = some (.error error) := by rw [reply?, h]
  simp only [tells, hopen, htold]
  rfl

namespace Did

variable [TransOrd κ] [Mergeable β] [Transport σ] [Workload α] {r r' : Run σ α κ β}

/-- The control node does something only as long as a question is open. -/
theorem phase_cases (h : r.Did r') :
    (∃ acknowledged, r.phase = .filling acknowledged) ∨ r.phase = .deciding ∨
      (∃ since, r.phase = .awaiting since) ∨ ∃ last, r.phase = .joining last := by
  cases h with
  | submit acknowledged _ _ _ _ _ hphase => exact .inl ⟨acknowledged, hphase⟩
  | fill hphase => exact .inl ⟨none, hphase⟩
  | reply completion hphase => exact .inl ⟨some completion, hphase⟩
  | finish last hphase =>
    rcases hphase with ⟨hphase, -⟩ | ⟨hphase, -⟩
    · exact .inl ⟨last, hphase⟩
    · exact .inr (.inl hphase)
  | drive _ _ _ hphase =>
    rcases hphase with ⟨hphase, -⟩ | ⟨last, hphase, -⟩
    · exact .inr (.inl hphase)
    · exact .inr (.inr (.inr ⟨last, hphase⟩))
  | crash _ _ _ hphase =>
    rcases hphase with hphase | hphase
    · exact .inr (.inl hphase)
    · exact .inr (.inr (.inr hphase))
  | join last hphase => exact .inr (.inr (.inr ⟨last, hphase⟩))
  | drop since _ _ hphase => exact .inr (.inr (.inl ⟨since, hphase⟩))
  | acknowledge since _ _ _ _ _ _ _ _ _ hphase => exact .inr (.inr (.inl ⟨since, hphase⟩))
  | fail _ _ hphase =>
    rcases hphase with hphase | hphase | hphase
    · exact .inl hphase
    · exact .inr (.inl hphase)
    · exact .inr (.inr (.inl hphase))

theorem reply?_eq_none (h : r.Did r') : r.reply? = none := by
  rw [reply?]
  split
  · next hphase => rcases h.phase_cases with ⟨_, h⟩ | h | ⟨_, h⟩ | ⟨_, h⟩ <;> simp [hphase] at h
  · rfl

/-- A run whose control node does something has neither failed nor crashed. -/
theorem staged (h : r.Did r') (horderly : r.Orderly) : r.Staged := by
  cases horderly with
  | staged hstaged => exact hstaged
  | failed hphase =>
    rcases hphase with hphase | ⟨_, hphase⟩ <;>
      rcases h.phase_cases with ⟨_, h⟩ | h | ⟨_, h⟩ | ⟨_, h⟩ <;> simp [hphase] at h
  | crashed _ hphase =>
    rcases h.phase_cases with ⟨_, h⟩ | h | ⟨_, h⟩ | ⟨_, h⟩ <;> simp [hphase] at h

/-- Only a run that waits for its executor is over when the control node does something. -/
theorem joining_of_isTerminal (h : r.Did r') (horderly : r.Orderly)
    (hover : r.state.isTerminal = true) : ∃ last, r.phase = .joining last := by
  have hstaged := h.staged horderly
  rcases h.phase_cases with ⟨acknowledged, hphase⟩ | hphase | ⟨since, hphase⟩ | hphase
  · cases acknowledged with
    | none => simp [hstaged.at_filling hphase, RunState.isTerminal] at hover
    | some completion => simp [hstaged.at_refilling hphase, RunState.isTerminal] at hover
  · simp [(hstaged.at_deciding hphase).1, RunState.isTerminal] at hover
  · simp [(hstaged.at_awaiting hphase).1, RunState.isTerminal] at hover
  · exact hphase

/-- What the control node does keeps a run orderly. -/
theorem orderly (h : r.Did r') (horderly : r.Orderly) : r'.Orderly := by
  have hstaged := h.staged horderly
  cases h with
  | submit acknowledged args rest permit semaphore executor hphase =>
    refine .staged ?_
    rw [Staged, hphase] at hstaged
    simp only [Staged, hphase]
    cases acknowledged <;> exact hstaged
  | fill hphase hfull => exact .staged ⟨rfl, hfull (by rw [hstaged.at_filling hphase]; rfl)⟩
  | reply completion hphase hfull hopen =>
    have hstate := hstaged.at_refilling hphase
    exact .staged ⟨hfull (by rw [hstate]; rfl), .inl ⟨hstate, hopen⟩⟩
  | finish last hphase hfinished => exact .staged ⟨rfl, (hstaged.at_end hphase).2, hfinished⟩
  | drive executor commons phase hphase =>
    rcases hphase with ⟨hphase, -, rfl⟩ | ⟨last, hphase, rfl⟩
    · exact .staged (hstaged.at_deciding hphase)
    · exact .staged hstaged
  | crash fault executor commons hphase =>
    rcases hphase with hphase | ⟨last, hphase⟩
    · have hstate := (hstaged.at_deciding hphase).1
      exact .crashed fault rfl (by simp [hstate]) (by simp [hstate])
    · obtain ⟨hstate, hdone⟩ := hstaged.at_joining hphase
      exact .crashed fault rfl (by simp [hstate]) fun _ => hdone
  | join last hphase =>
    obtain ⟨hstate, hfull, hfinished⟩ := hstaged.at_joining hphase
    cases last with
    | none => exact .staged ⟨hstate, hfull, hfinished⟩
    | some completion => exact .staged ⟨hfull, .inr ⟨hstate, hfinished⟩⟩
  | drop since transport channel hphase => exact .staged (hstaged.at_awaiting hphase)
  | acknowledge since _ _ _ _ _ _ _ _ _ hphase =>
    exact .staged (hstaged.at_awaiting hphase).1
  | fail error _ _ hfailed =>
    exact .failed (.inr ⟨error, hfailed.phase⟩) hfailed.state hfailed.inFlight hfailed.buffered
      hfailed.shows

/-- What the control node does changes the state as it may. -/
theorem changes (h : r.Did r') (horderly : r.Orderly) : r.Changes r' := by
  have hstaged := h.staged horderly
  have hstate := hstaged.ne_aborted
  have hjoining := h.joining_of_isTerminal horderly
  cases h with
  | submit acknowledged _ _ _ _ _ hphase => exact .goes (.stay _) hstate (by simp [hphase])
  | fill hphase =>
    refine .goes ?_ (by simp) (by simp)
    rw [hstaged.at_filling hphase]
    exact .drain
  | reply => exact .goes (.stay _) hstate (by simp)
  | finish last hphase =>
    refine .goes ?_ (by simp [Run.finish]) (by simp [Run.finish])
    rw [(hstaged.at_end hphase).1]
    exact .finish
  | drive executor commons phase hphase =>
    refine .goes (.stay _) hstate ?_
    rcases hphase with ⟨-, -, rfl⟩ | ⟨last, hphase, rfl⟩
    · simp
    · simp [hphase]
  | crash => exact .goes (.stay _) hstate (by simp)
  | join => exact .goes (.stay _) hstate (by simp [Run.note])
  | drop => exact .goes (.stay _) hstate (by simp)
  | acknowledge => exact .goes (.stay _) hstate (by simp)
  | fail error _ hphase hfailed =>
    refine .fails error ?_ hfailed.state hfailed.phase
    -- the run was not waiting for its executor, so that it was not over
    rw [RunState.acceptsTasks_eq, Bool.not_eq_true', ← Bool.not_eq_true]
    intro hover
    obtain ⟨last, hlast⟩ := hjoining hover
    rcases hphase with ⟨_, hphase⟩ | hphase | ⟨_, hphase⟩ <;> simp [hlast] at hphase

/-- A run that is over rests. -/
theorem rests (h : r.Did r') (horderly : r.Orderly) (hover : r.state.isTerminal = true) :
    r.Rests r' := by
  obtain ⟨last, hjoining⟩ := h.joining_of_isTerminal horderly hover
  cases h with
  | drive => rfl
  | crash => rfl
  | join => rfl
  | submit _ _ _ _ _ _ hphase => simp [hjoining] at hphase
  | fill hphase => simp [hjoining] at hphase
  | reply _ hphase => simp [hjoining] at hphase
  | finish _ hphase => simp [hjoining] at hphase
  | drop _ _ _ hphase => simp [hjoining] at hphase
  | acknowledge _ _ _ _ _ _ _ _ _ _ hphase => simp [hjoining] at hphase
  | fail _ _ hphase => simp [hjoining] at hphase

end Did

end Run

namespace Inquiry

/-- How an inquiry over units of a given total stands at any time. -/
structure InOrder (total : Nat) (q : Inquiry σ α κ β) : Prop where
  /-- Once a question is answered the run is done if and only if all units are computed and
  nothing is in flight, unless the run has failed. -/
  done_iff : ∀ reply, q.run.phase = .replied reply → q.run.state ≠ .aborted →
    (q.run.state = .done ↔ q.run.progress.computed = total ∧ q.run.inFlight.size = 0)
  /-- A run that is done leaves no task behind. -/
  exhausted : q.run.state = .done → 0 < q.run.limit →
    q.run.pending = [] ∧ q.run.inFlight.size = 0
  /-- The caller is told an error once if the run has failed, and never otherwise. -/
  errors : q.errors.length = if q.run.state = .aborted then 1 else 0
  /-- A run that has failed keeps nothing. -/
  aborted : q.run.state = .aborted →
    q.run.inFlight = .empty ∧ q.run.buffered = .empty ∧ q.run.accumulator = none
  /-- A run that is over has nothing to tell, and does nothing about a question. -/
  silent : q.run.state.isTerminal = true → q.run.mayAsk = true →
    q.run.ask = { q.run with phase := .replied (.ok none) }
  /-- The counters are the sum of the amounts that were accepted, and what remains is the rest. -/
  counted : q.run.progress.computed = q.counted.sum ∧
    q.counted.sum + q.run.progress.remaining = total

/-- How an inquiry goes on with one step. -/
structure Proceeds (q q' : Inquiry σ α κ β) : Prop where
  leads : q.run.state.Leads q'.run.state
  computed_le : q.run.progress.computed ≤ q'.run.progress.computed
  /-- The caller is told an error exactly with the step that aborts the run. -/
  errors_ne_iff : q'.errors ≠ q.errors ↔ q.run.state ≠ .aborted ∧ q'.run.state = .aborted
  /-- Once a run is over it rests. -/
  rests : q.run.state.isTerminal = true → q.run.Rests q'.run ∧ q'.counted = q.counted

/-- What the control node keeps true of an inquiry, whatever its surroundings do. -/
structure Orderly (total : Nat) (q : Inquiry σ α κ β) : Prop where
  run : q.run.Orderly
  balanced : q.run.Balanced
  counted : q.run.progress.computed = q.counted.sum
  total : q.run.progress.total = total
  errors : q.errors.length = if q.run.state = .aborted then 1 else 0

/-- A question is not answered with an error. -/
theorem errors_ask {q : Inquiry σ α κ β} (hask : q.run.mayAsk = true) :
    q.ask.errors = q.errors := by
  obtain ⟨-, -, hnone⟩ := Run.ask_keeps hask
  rw [errors, ask, List.filterMap_append, hnone, List.append_nil]
  rfl

namespace Orderly

variable {q q' : Inquiry σ α κ β} {total : Nat}

/-- An orderly inquiry stands as it should. -/
theorem stands (h : q.Orderly total) : q.InOrder total where
  done_iff := by
    intro reply hphase hstate
    rw [← h.total, ← Run.isFinished_iff]
    cases h.run with
    | failed _ haborted => exact absurd haborted hstate
    | crashed _ hcrashed => rw [hphase] at hcrashed; cases hcrashed
    | staged hstaged =>
      rw [Run.Staged, hphase] at hstaged
      cases reply with
      | error => exact hstaged.elim
      | ok last =>
        cases last with
        | none => simp [hstaged.1, hstaged.2.2]
        | some =>
          rcases hstaged.2 with ⟨hdraining, hopen⟩ | ⟨hdone, hfinished⟩
          · simp [hdraining, hopen]
          · simp [hdone, hfinished]
  exhausted := by
    intro hstate hlimit
    obtain ⟨hfull, hfinished⟩ := h.run.of_done hstate
    have hnone := (Run.isFinished_iff.1 hfinished).2
    -- with nothing in flight no permit is missing
    refine ⟨hfull.resolve_right fun hspent => ?_, hnone⟩
    have hpermits := h.balanced.permits
    rw [hspent, hnone] at hpermits
    exact Nat.ne_of_lt hlimit hpermits
  errors := h.errors
  aborted := by
    intro hstate
    obtain ⟨-, hinFlight, hbuffered, hshows⟩ := h.run.of_aborted hstate
    refine ⟨hinFlight, hbuffered, ?_⟩
    rw [Run.accumulator, hshows]
    rfl
  silent := fun hover hask => Run.ask_of_isTerminal hask hover
  counted := by
    have hle := q.run.progress.computed_le
    rw [h.counted, h.total] at hle
    refine ⟨h.counted, ?_⟩
    rw [Progress.remaining, h.total, h.counted]
    omega

variable [TransOrd κ] [Mergeable β] [Transport σ] [Workload α]

/-- An inquiry stays orderly. -/
theorem went (h : q.Orderly total) (hwent : q.Went q') : q'.Orderly total := by
  cases hwent with
  | ask hask =>
    obtain ⟨hstate, hprogress, -⟩ := Run.ask_keeps hask
    refine ⟨h.run.ask hask, h.balanced.ask, ?_, ?_, ?_⟩
    · rw [run_ask, hprogress]
      exact h.counted
    · rw [run_ask, hprogress]
      exact h.total
    · rw [errors_ask hask, run_ask, hstate]
      exact h.errors
  | elsewhere executor commons sent =>
    exact ⟨h.run.elsewhere executor commons, ⟨h.balanced.permits, h.balanced.lt⟩, h.counted, h.total,
      h.errors⟩
  | @did m run hdid hadds =>
    have hbefore : q.run.state ≠ .aborted := (hdid.staged h.run).ne_aborted
    refine ⟨hdid.orderly h.run, hdid.balanced h.balanced, ?_, hadds.2.trans h.total, ?_⟩
    · rw [counted_move, List.sum_append, ← h.counted]
      exact hadds.1
    · rw [errors_move, List.length_append, h.errors, if_neg hbefore, run_move]
      cases hdid.changes h.run with
      | goes hleads hstate hphase =>
        rw [Run.errors_tells_eq_nil hphase, if_neg hstate]
        rfl
      | fails error haccepts hstate hphase =>
        rw [Run.errors_tells_eq hdid.reply?_eq_none hphase, if_pos hstate]
        rfl

/-- An orderly inquiry proceeds as it should. -/
theorem proceeds (h : q.Orderly total) (hwent : q.Went q') : q.Proceeds q' := by
  cases hwent with
  | ask hask =>
    obtain ⟨hstate, hprogress, -⟩ := Run.ask_keeps hask
    refine ⟨?_, ?_, ?_, ?_⟩
    · rw [run_ask, hstate]
      exact .stay _
    · rw [run_ask, hprogress]
    · simp [errors_ask hask, hstate]
    · intro hover
      rw [run_ask, Run.ask_of_isTerminal hask hover]
      exact ⟨rfl, rfl⟩
  | elsewhere executor commons sent =>
    exact ⟨.stay _, Nat.le_refl _, ⟨fun hne => absurd rfl hne, fun hnew => absurd hnew.2 hnew.1⟩,
      fun _ => ⟨rfl, rfl⟩⟩
  | @did m run hdid hadds =>
    have hbefore : q.run.state ≠ .aborted := (hdid.staged h.run).ne_aborted
    refine ⟨?_, ?_, ?_, ?_⟩
    · cases hdid.changes h.run with
      | goes hleads => exact hleads
      | fails error haccepts hstate =>
        rw [run_move, hstate]
        exact .abort haccepts
    · rw [run_move, hadds.1]
      exact Nat.le_add_right _ _
    · cases hdid.changes h.run with
      | goes hleads hstate hphase => simp [Run.errors_tells_eq_nil hphase, hstate]
      | fails error haccepts hstate hphase =>
        simp [Run.errors_tells_eq hdid.reply?_eq_none hphase, hstate, hbefore]
    · intro hover
      -- only the executor is waited for, so that nothing is counted any more
      obtain ⟨last, hjoining⟩ := hdid.joining_of_isTerminal h.run hover
      refine ⟨hdid.rests h.run hover, ?_⟩
      rw [counted_move, Run.counts_of_not_awaiting (by simp [hjoining]), List.append_nil]

/-- Once the run of an orderly inquiry is over, it rests for ever. -/
theorem rests (h : q.Orderly total) (hrow : ReflTransGen AnyStep q q')
    (hover : q.run.state.isTerminal = true) :
    q'.Orderly total ∧ q.run.Rests q'.run ∧ q'.counted = q.counted ∧ q'.errors = q.errors := by
  induction hrow with
  | refl => exact ⟨h, rfl, rfl, rfl⟩
  | @tail q₁ q₂ _ hlast ih =>
    obtain ⟨horderly, hrests, hcounted, herrors⟩ := ih
    have hproceeds := horderly.proceeds hlast.went
    have hstate : q₁.run.state = q.run.state := hrests.state_eq
    obtain ⟨hrests', hcounted'⟩ := hproceeds.rests (hstate ▸ hover)
    refine ⟨horderly.went hlast.went, hrests.trans hrests', hcounted'.trans hcounted, ?_⟩
    -- a run that rests is not aborted with this step
    rw [← herrors]
    by_contra hne
    obtain ⟨hbefore, hafter⟩ := hproceeds.errors_ne_iff.1 hne
    exact hbefore (hrests'.state_eq.symm.trans hafter)

end Orderly

variable [TransOrd κ] [Mergeable β] [Transport σ] [Workload α] {d : Dispatcher α κ β}
  {transport : σ} {pending : Pending α} {total : Nat} {run : Run σ α κ β}
  {q : Inquiry σ α κ β}

omit [TransOrd κ] [Mergeable β] [Workload α] in
/-- An inquiry into a run that was just started is orderly. -/
theorem orderly_of_start (h : d.start transport pending total = .ok run) :
    (start run).Orderly total := by
  obtain ⟨mode, executor, opened, -, -, rfl⟩ := Dispatcher.exists_of_start h
  refine ⟨?_, ⟨rfl, fun no hno => absurd (SortedMap.get?_empty no) hno⟩, rfl, rfl, rfl⟩
  by_cases hpermits : mostPermits < d.settings.limit
  · exact .crashed _ (if_pos hpermits) (by simp [start, Dispatcher.fresh])
      (by simp [start, Dispatcher.fresh])
  · refine .staged ?_
    simp [start, Dispatcher.fresh, Run.Staged, hpermits]

/-- Every inquiry into a run that was started is orderly. -/
theorem AnyReaches.orderly (hstart : d.start transport pending total = .ok run)
    (hreaches : AnyReaches run q) : q.Orderly total :=
  hreaches.invariant (orderly_of_start hstart) fun _ _ hwent h => h.went hwent

/-- Whatever surrounds a run, its states come in order. At any time an inquiry stands as it
should, goes on as it should, and rests for ever once the run is over. -/
theorem AnyReaches.inOrder (hstart : d.start transport pending total = .ok run)
    (hreaches : AnyReaches run q) :
    q.InOrder total ∧ (∀ q', q.AnyStep q' → q.Proceeds q') ∧
      ∀ q', ReflTransGen AnyStep q q' → q.run.state.isTerminal = true →
        q.run.Rests q'.run ∧ q'.counted = q.counted ∧ q'.errors = q.errors := by
  have horderly := AnyReaches.orderly hstart hreaches
  exact ⟨horderly.stands, fun q' hstep => horderly.proceeds hstep.went,
    fun q' hrow hover => (horderly.rests hrow hover).2⟩

omit [TransOrd κ] [Mergeable β] [Workload α] in
/-- A run that was started can be asked, unless there are too many permits to count. -/
theorem mayAsk_of_start (h : d.start transport pending total = .ok run)
    (hlimit : d.settings.limit ≤ mostPermits) : run.mayAsk = true := by
  obtain ⟨mode, executor, opened, -, -, rfl⟩ := Dispatcher.exists_of_start h
  simp [Run.mayAsk, Dispatcher.fresh, Nat.not_lt.2 hlimit]

end Inquiry

/-- An inquiry into two tasks whose signals come twice, up to the end of the run. -/
theorem Inquiry.inOrder_of_twoTasks :
    ∃ (run : Run FaultyBroker ScriptedTask String Count)
      (q : Inquiry FaultyBroker ScriptedTask String Count),
      (Dispatcher.twoTasks .inWorker).start FaultyBroker.doubling .none 4 = .ok run ∧
        AnyReaches run q ∧ q.run.state = .done ∧ q.InOrder 4 ∧
        (∀ q', q.AnyStep q' → q.Proceeds q') ∧
        ∀ q', ReflTransGen AnyStep q q' → q.run.Rests q'.run := by
  obtain ⟨run, s, ending, hstart, hreaches, -, hdone⟩ :=
    (Dispatcher.twoTasks .inWorker).exists_session FaultyBroker.doubling .none 4 40 3
      (fun (ending, run) => match ending with
        | .finished .. => run.state = .done
        | _ => false) (by decide +kernel) fun _ => rfl
  have hlimit : (Dispatcher.twoTasks .inWorker).settings.limit ≤ mostPermits := by decide
  have hask : (start run).run.mayAsk = true := mayAsk_of_start hstart hlimit
  obtain ⟨q, hrow, hrun⟩ := exists_of_reaches hask hreaches
  have hstate : q.run.state = .done := by
    rw [hrun]
    cases ending with
    | finished result summary => exact of_decide_eq_true hdone
    | _ => cases hdone
  have hany : AnyReaches run q := Reaches.any hrow
  obtain ⟨hinOrder, hproceeds, hrests⟩ := AnyReaches.inOrder hstart hany
  exact ⟨run, q, hstart, hany, hstate, hinOrder, hproceeds,
    fun q' hlater => (hrests q' hlater (by rw [hstate]; rfl)).1⟩

end BatchRun
