import BatchRun.Proofs.SortedMap
import BatchRun.Run.Control

/-!
# Taking outcomes

The control node takes the outcome of one task at a time. Outcomes that it comes across on the
way are put aside, under the numbers of their tasks. None is lost or doubled by that, and the
outcome that it looks for is found wherever it is.

## Main definitions

* `Filed`: outcomes are kept under the numbers of their tasks

## Main results

* `takeSent_spec`: what becomes of outcomes that were sent
* `Run.takeOutcome_spec`: taking an outcome, with those that were put aside before
-/

namespace BatchRun

variable {σ α κ β : Type} [Ord κ]

/-- Every outcome is kept under the number of its task. -/
def Filed (aside : SortedMap Nat (Outcome κ β)) : Prop :=
  ∀ e ∈ aside.entries, e.2.taskNo = e.1

namespace Filed

variable {aside : SortedMap Nat (Outcome κ β)}

theorem keys_eq (h : Filed aside) : aside.keys = aside.values.map (·.taskNo) := by
  rw [SortedMap.keys, SortedMap.values, List.map_map]
  exact (List.map_congr_left h).symm

theorem get?_eq_none_iff (h : Filed aside) {no : Nat} :
    aside.get? no = none ↔ no ∉ aside.values.map (·.taskNo) := by
  rw [← h.keys_eq, SortedMap.get?_eq_none_iff, SortedMap.keys]
  simp

theorem insert (h : Filed aside) (outcome : Outcome κ β) :
    Filed (aside.insert outcome.taskNo outcome) := by
  rintro ⟨no, o⟩ he
  rw [← SortedMap.get?_eq_some_iff] at he
  by_cases hno : no = outcome.taskNo
  · subst hno
    rw [SortedMap.get?_insert_self] at he
    exact congrArg Outcome.taskNo (Option.some.inj he).symm
  · rw [SortedMap.get?_insert_of_ne _ hno] at he
    exact h (no, o) (SortedMap.get?_eq_some_iff.1 he)

theorem erase (h : Filed aside) (no : Nat) : Filed (aside.erase no) :=
  fun e he => h e (List.mem_of_mem_filter he)

theorem values_insert_perm (h : Filed aside) {outcome : Outcome κ β}
    (hnew : outcome.taskNo ∉ aside.values.map (·.taskNo)) :
    (aside.insert outcome.taskNo outcome).values.Perm (outcome :: aside.values) :=
  (SortedMap.entries_insert_perm (h.get?_eq_none_iff.2 hnew) outcome).map Prod.snd

end Filed

/-- Of the outcomes that were sent those that are not looked for are put aside. -/
theorem takeSent_spec (no : Nat) (sent : List (Outcome κ β))
    (aside : SortedMap Nat (Outcome κ β)) (hfiled : Filed aside)
    (hnodup : ((sent ++ aside.values).map (·.taskNo)).Nodup)
    {found : Option (Outcome κ β)} {sent' : List (Outcome κ β)}
    {aside' : SortedMap Nat (Outcome κ β)}
    (h : takeSent no sent aside = (found, sent', aside')) :
    Filed aside' ∧ (sent ++ aside.values).Perm (found.toList ++ (sent' ++ aside'.values)) ∧
      (∀ o, found = some o → o.taskNo = no) ∧ (found = none → ∀ o ∈ sent, o.taskNo ≠ no) := by
  -- outcomes are put aside one by one, so that the induction is for any number of them there
  induction sent generalizing aside with
  | nil =>
    simp only [takeSent, Prod.mk.injEq] at h
    obtain ⟨rfl, rfl, rfl⟩ := h
    exact ⟨hfiled, .refl _, by simp, by simp⟩
  | cons o rest ih =>
    simp only [takeSent] at h
    split at h
    · next hno =>
      obtain ⟨rfl, rfl, rfl⟩ := h
      exact ⟨hfiled, .refl _, by simpa using hno, by simp⟩
    · next hno =>
      -- no outcome of this task was put aside before, as no task has two outcomes
      have hnew : o.taskNo ∉ aside.values.map (·.taskNo) := by
        rw [List.cons_append, List.map_cons, List.nodup_cons, List.map_append] at hnodup
        exact fun hmem => hnodup.1 (List.mem_append_right _ hmem)
      have hperm : (o :: rest ++ aside.values).Perm
          (rest ++ (aside.insert o.taskNo o).values) :=
        List.perm_middle.symm.trans ((hfiled.values_insert_perm hnew).symm.append_left rest)
      obtain ⟨hfiled', hrest, hfound, hnone⟩ := ih (aside.insert o.taskNo o) (hfiled.insert o)
        ((hperm.map _).nodup_iff.1 hnodup) h
      refine ⟨hfiled', hperm.trans hrest, hfound, ?_⟩
      intro hnothing p hp
      rcases List.mem_cons.1 hp with rfl | hp
      · exact hno
      · exact hnone hnothing p hp

/-- The outcome of a task is taken if and only if it was sent, and all others are kept. What else
the control node knows does not matter. -/
theorem Run.takeOutcome_spec (r : Run σ α κ β) (no : Nat) (hfiled : Filed r.buffered)
    (hnodup : ((r.commons.outcomes ++ r.buffered.values).map (·.taskNo)).Nodup) :
    ∃ found buffered outcomes,
      (∀ r' : Run σ α κ β, r'.buffered = r.buffered → r'.commons.outcomes = r.commons.outcomes →
        r'.takeOutcome no =
          (found, { r' with buffered, commons := { r'.commons with outcomes } })) ∧
        Filed buffered ∧
        (r.commons.outcomes ++ r.buffered.values).Perm
          (found.toList ++ (outcomes ++ buffered.values)) ∧
        (∀ o, found = some o → o.taskNo = no) ∧
        (found = none → ∀ o ∈ r.commons.outcomes ++ r.buffered.values, o.taskNo ≠ no) := by
  cases hget : r.buffered.get? no with
  | some outcome =>
    have hvalues : r.buffered.values.Perm (outcome :: (r.buffered.erase no).values) :=
      (SortedMap.entries_erase_perm hget).map Prod.snd
    refine ⟨some outcome, r.buffered.erase no, r.commons.outcomes, ?_, hfiled.erase no,
      (hvalues.append_left _).trans List.perm_middle, ?_, by simp⟩
    · intro r' hbuffered houtcomes
      simp only [takeOutcome, hbuffered, hget, ← houtcomes]
    · rintro o ho
      obtain rfl := Option.some.inj ho
      exact hfiled (no, outcome) (SortedMap.get?_eq_some_iff.1 hget)
  | none =>
    obtain ⟨hfiled', hperm, hfound, hnone⟩ :=
      takeSent_spec no r.commons.outcomes r.buffered hfiled hnodup rfl
    refine ⟨_, _, _, ?_, hfiled', hperm, hfound, ?_⟩
    · intro r' hbuffered houtcomes
      simp only [takeOutcome, hbuffered, houtcomes, hget]
    · intro hnothing o ho
      rcases List.mem_append.1 ho with ho | ho
      · exact hnone hnothing o ho
      · intro hno
        exact hfiled.get?_eq_none_iff.1 hget (hno ▸ List.mem_map_of_mem ho)

end BatchRun
