import BatchRun.Proofs.Run.Orderly
import BatchRun.Proofs.Run.Verdict

/-!
# Playing a run to its end after it was asked

A caller may ask for single completions and then play the rest of the run to its end. If nothing
has failed by then, an end without an error is one with all units computed. A run that has failed
before is different: it has nothing more to tell, which is what a run says that is done, so that
it ends without an error as well. Its result is empty, and only the state in the summary gives it
away.

## Main results

* `Inquiry.AnyReaches.complete_iff`: a run that is played to its end is complete if and only if
  its caller was told no error before
* `Session.not_complete_of_failing`: it need not be complete otherwise
-/

namespace BatchRun

open Std Relation

variable {σ α κ β : Type} [Ord κ] [TransOrd κ] [Mergeable β]

/-- A conclusion without an accumulator is what was merged so far. -/
theorem Run.conclude_of_not_shows {r : Run σ α κ β} (h : r.showsShared = false)
    (result : Tally κ β) : r.conclude result = .finished result r.summary := by
  rw [conclude, accumulator, h]
  rfl

/-- A session that ends well has told everything. -/
theorem Session.of_finished {s : Session σ α κ β} {result : Tally κ β} {summary : Summary}
    (h : s.ending? = some (.finished result summary)) :
    s.run.phase = .replied (.ok none) ∧ s.run.conclude s.result = .finished result summary ∧
      summary = s.run.summary := by
  rw [ending?] at h
  split at h
  · next completion _ => cases hpart : s.result.absorb completion.part <;> simp [hpart] at h
  · next hphase =>
    have hconclude := Option.some.inj h
    refine ⟨hphase, hconclude, ?_⟩
    rcases s.run.conclude_eq s.result with ⟨result', heq⟩ | ⟨fault, heq⟩
    · exact (Ending.finished.inj (hconclude.symm.trans heq)).2
    · cases hconclude.symm.trans heq
  · cases h
  · cases h
  · cases h

variable [Transport σ] [Workload α]

namespace Session.Reaches

variable {r : Run σ α κ β} {s : Session σ α κ β}

/-- The state of a session that goes on from an orderly run is orderly, and if the run has not
failed before, a failure is what its caller is told. -/
theorem orderly_of_open (h : Session.Reaches r s) (hask : r.mayAsk = true) (horderly : r.Orderly)
    (hopen : r.state ≠ .aborted) :
    s.run.Orderly ∧ (s.run.state = .aborted → ∃ error, s.run.phase = .replied (.error error)) := by
  induction h with
  | refl =>
    refine ⟨horderly.ask hask, fun haborted => absurd ?_ hopen⟩
    exact (Run.ask_keeps hask).1.symm.trans haborted
  | @tail t _ _ hlast ih =>
    obtain ⟨hbefore, htold⟩ := ih
    cases hlast with
    | move hmove =>
      rcases Run.did_or_step_of_move? hmove with ⟨hdid, -⟩ | ⟨_, executor, commons, -, -, rfl⟩
      · refine ⟨hdid.orderly hbefore, fun haborted => ?_⟩
        cases hdid.changes hbefore with
        | goes _ hstate => exact absurd haborted hstate
        | fails error _ _ hphase => exact ⟨error, hphase⟩
      · exact ⟨hbefore.elsewhere executor commons, htold⟩
    | absorb hphase _ =>
      have hask' : t.run.mayAsk = true := by rw [Run.mayAsk, hphase]
      refine ⟨hbefore.ask hask', fun haborted => ?_⟩
      -- whoever merges a completion was not told of a failure
      obtain ⟨error, herror⟩ := htold ((Run.ask_keeps hask').1.symm.trans haborted)
      rw [hphase] at herror
      cases herror

/-- A session that goes on from a run that has failed is over at once, with nothing merged. -/
theorem empty_of_aborted (h : Session.Reaches r s) (hask : r.mayAsk = true)
    (haborted : r.state = .aborted) (hshows : r.showsShared = false) :
    s.run.state = .aborted ∧ s.run.showsShared = false ∧
      s.run.phase = .replied (.ok none) ∧ s.result = .empty := by
  induction h with
  | refl =>
    rw [start, Run.ask_of_isTerminal hask (by rw [haborted]; rfl)]
    exact ⟨haborted, hshows, rfl, rfl⟩
  | tail _ hlast ih =>
    obtain ⟨haborted', hshows', hphase', hempty⟩ := ih
    cases hlast with
    | move hmove =>
      rcases Run.did_or_step_of_move? hmove with ⟨hdid, -⟩ | ⟨_, executor, commons, -, -, rfl⟩
      · have hnone := hdid.reply?_eq_none
        simp [Run.reply?, hphase'] at hnone
      · exact ⟨haborted', hshows', hphase', hempty⟩
    | absorb hphase _ =>
      rw [hphase'] at hphase
      cases hphase

end Session.Reaches

/-- A run that was asked for completions, whatever they were, and is then played to its end
without an error, is complete if and only if its caller was told no error before. Otherwise the
run is one that has failed, and its result is empty. -/
theorem Inquiry.AnyReaches.complete_iff {d : Dispatcher α κ β} {transport : σ}
    {pending : Pending α} {total : Nat} {run : Run σ α κ β} {q : Inquiry σ α κ β}
    {s : Session σ α κ β} {result : Tally κ β} {summary : Summary}
    (hstart : d.start transport pending total = .ok run) (hreaches : AnyReaches run q)
    (hask : q.run.mayAsk = true) (hplayed : Session.Reaches q.run s)
    (hending : s.ending? = some (.finished result summary)) :
    (summary.state = .done ∧ summary.unitsComputed = summary.unitsTotal ↔ q.errors = []) ∧
      (q.errors ≠ [] → summary.state = .aborted ∧ result = .empty) := by
  have horderly := AnyReaches.orderly hstart hreaches
  have herrors : q.errors = [] ↔ q.run.state ≠ .aborted := by
    rw [← List.length_eq_zero_iff, horderly.errors]
    split <;> simp_all
  obtain ⟨hphase, hconclude, rfl⟩ := Session.of_finished hending
  by_cases haborted : q.run.state = .aborted
  · obtain ⟨-, -, -, hshows⟩ := horderly.run.of_aborted haborted
    obtain ⟨hstate, hshows', -, hempty⟩ := hplayed.empty_of_aborted hask haborted hshows
    rw [Run.conclude_of_not_shows hshows', hempty] at hconclude
    have hresult := (Ending.finished.inj hconclude).1.symm
    have hsummary : s.run.summary.state = .aborted := hstate
    refine ⟨?_, fun _ => ⟨hsummary, hresult⟩⟩
    rw [herrors, hsummary]
    simp [haborted]
  · obtain ⟨hplayed', htold⟩ := hplayed.orderly_of_open hask horderly.run haborted
    refine ⟨?_, fun hne => absurd (herrors.2 haborted) hne⟩
    simp only [herrors.2 haborted, iff_true]
    -- with nothing left to tell the run is done, as it has not failed
    cases hplayed' with
    | failed _ hstate =>
      obtain ⟨error, herror⟩ := htold hstate
      rw [hphase] at herror
      cases herror
    | crashed fault hcrashed => rw [hphase] at hcrashed; cases hcrashed
    | staged hstaged =>
      rw [Run.Staged, hphase] at hstaged
      exact ⟨hstaged.1, (Run.isFinished_iff.1 hstaged.2.2).1⟩

/-- Two tasks that fail. -/
def Dispatcher.failing : Dispatcher ScriptedTask String Count :=
  { twoTasks .controlNode with
    queued := (twoTasks .controlNode).queued.map fun task =>
      { task with mishap := some (.fails (.said "broken")) } }

/-- Whoever has been told of the failure, and plays the run to its end all the same, is told of no
failure any more. -/
theorem Dispatcher.exists_finished_of_failing :
    ∃ (run : Run FaultyBroker ScriptedTask String Count)
      (q : Inquiry FaultyBroker ScriptedTask String Count)
      (s : Session FaultyBroker ScriptedTask String Count) (result : Tally String Count)
      (summary : Summary),
      Dispatcher.failing.start FaultyBroker.doubling .none 4 = .ok run ∧
        Inquiry.AnyReaches run q ∧ q.run.mayAsk = true ∧ Session.Reaches q.run s ∧
        s.ending? = some (.finished result summary) ∧ summary.state = .aborted := by
  -- the first question is answered with an error, and what is played comes to an end
  obtain ⟨run, told, ending, hstart, hreaches, -, hplayed⟩ :=
    Dispatcher.failing.exists_session FaultyBroker.doubling .none 4 40 3
      (fun
        | (.failed _, run) => run.mayAsk && match (run.toEnd 40 3 .empty).1 with
          | .finished _ summary => summary.state = .aborted
          | _ => false
        | _ => false) (by decide +kernel) fun _ => rfl
  have hlimit : Dispatcher.failing.settings.limit ≤ mostPermits := by decide
  have hask : (Inquiry.start run).run.mayAsk = true := Inquiry.mayAsk_of_start hstart hlimit
  obtain ⟨q, hrow, hrun⟩ := Inquiry.exists_of_reaches hask hreaches
  rw [← hrun] at hplayed
  cases ending with
  | failed error =>
    obtain ⟨hagain, hplayed⟩ := Bool.and_eq_true_iff.1 hplayed
    split at hplayed
    · next result summary hfinished =>
      obtain ⟨s, hs, -, hending⟩ := Session.exists_of_toEnd hfinished (by simp)
      exact ⟨run, q, s, result, summary, hstart, Inquiry.Reaches.any hrow, hagain, hs, hending,
        of_decide_eq_true hplayed⟩
    · cases hplayed
  | _ => cases hplayed

/-- A run that has failed and is played to its end has an empty result. -/
theorem Inquiry.complete_iff_of_failing :
    ∃ (run : Run FaultyBroker ScriptedTask String Count)
      (q : Inquiry FaultyBroker ScriptedTask String Count)
      (s : Session FaultyBroker ScriptedTask String Count) (result : Tally String Count)
      (summary : Summary),
      Dispatcher.failing.start FaultyBroker.doubling .none 4 = .ok run ∧
        Inquiry.AnyReaches run q ∧ q.run.mayAsk = true ∧ Session.Reaches q.run s ∧
        s.ending? = some (.finished result summary) ∧ q.errors ≠ [] ∧ result = .empty := by
  obtain ⟨run, q, s, result, summary, hstart, hreaches, hask, hplayed, hending, hstate⟩ :=
    Dispatcher.exists_finished_of_failing
  obtain ⟨hcomplete, hfailed⟩ := hreaches.complete_iff hstart hask hplayed hending
  have htold : q.errors ≠ [] := fun hnone => by
    have hdone := (hcomplete.2 hnone).1
    rw [hstate] at hdone
    cases hdone
  exact ⟨run, q, s, result, summary, hstart, hreaches, hask, hplayed, hending, htold,
    (hfailed htold).2⟩

/-- A run that is played to its end without an error need not be complete. -/
theorem Session.not_complete_of_failing :
    ∃ (run : Run FaultyBroker ScriptedTask String Count)
      (q : Inquiry FaultyBroker ScriptedTask String Count)
      (s : Session FaultyBroker ScriptedTask String Count) (result : Tally String Count)
      (summary : Summary),
      Dispatcher.failing.start FaultyBroker.doubling .none 4 = .ok run ∧
        Inquiry.AnyReaches run q ∧ q.run.mayAsk = true ∧ Session.Reaches q.run s ∧
        s.ending? = some (.finished result summary) ∧
        ¬(summary.state = .done ∧ summary.unitsComputed = summary.unitsTotal) := by
  obtain ⟨run, q, s, result, summary, hstart, hreaches, hask, hplayed, hending, hstate⟩ :=
    Dispatcher.exists_finished_of_failing
  refine ⟨run, q, s, result, summary, hstart, hreaches, hask, hplayed, hending, fun h => ?_⟩
  rw [hstate] at h
  cases h.1

end BatchRun
