import Mathlib.Data.List.FinRange
import BatchRun.Proofs.Tally.Placewise
import BatchRun.Tally.Shared

/-!
# A merge in place is a merge

A merge in place ends without a fault if the merge does, and leaves the value that the merge
gives. This passes from items to what is built from them, as the loops of a merge in place touch
each place once: what the loop does at one place it leaves alone at all others.

## Main definitions

* `Mergeable.LawfulInPlace`: types whose merge in place agrees with the merge

## Main results

* instances for numbers, lists, vectors, pairs and tallies
* `SharedTally.tally_mergeInto`: what a merge leaves in a shared tally, also where it faults
-/

namespace BatchRun

namespace Mergeable

open InPlace

/-- Types whose merge in place agrees with the merge. -/
class LawfulInPlace (α : Type) [Mergeable α] : Prop where
  mergeAssign_eq_ok_iff {a b c : α} : (mergeAssign b).run a = .ok () c ↔ merge a b = .ok c

open LawfulInPlace

variable {α β : Type}

section Work

variable {ι : Type} {first second : EStateM Fault α Unit} {work : ι → EStateM Fault α Unit}
  {a c : α}

theorem run_replace_eq_ok_iff {f : α → Except Fault α} :
    (replace f).run a = .ok () c ↔ f a = .ok c := by
  simp only [EStateM.run, replace]
  cases f a <;> simp

theorem run_within_eq_ok_iff {part : α → β} {put : α → β → α} {inner : EStateM Fault β Unit} :
    (within part put inner).run a = .ok () c ↔
      ∃ b, inner.run (part a) = .ok () b ∧ put a b = c := by
  simp only [EStateM.run, within]
  cases inner (part a) <;> simp

/-- Work that goes on after other work ends if both do. -/
theorem run_seq_eq_ok_iff : (do first; second).run a = .ok () c ↔
    ∃ b, first.run a = .ok () b ∧ second.run b = .ok () c := by
  simp only [EStateM.run, bind, EStateM.bind]
  cases first a <;> simp

theorem run_forM_nil_eq_ok_iff : (([] : List ι).forM work).run a = .ok () c ↔ a = c := by
  change EStateM.Result.ok () a = _ ↔ _
  simp

theorem run_forM_cons_eq_ok_iff {i : ι} {rest : List ι} :
    ((i :: rest).forM work).run a = .ok () c ↔
      ∃ b, (work i).run a = .ok () b ∧ (rest.forM work).run b = .ok () c :=
  run_seq_eq_ok_iff

end Work

instance {bits : Nat} : LawfulInPlace (Signed bits) where
  mergeAssign_eq_ok_iff := run_replace_eq_ok_iff

instance {bits : Nat} : LawfulInPlace (Unsigned bits) where
  mergeAssign_eq_ok_iff := run_replace_eq_ok_iff

section Lists

variable [Mergeable α] [LawfulInPlace α]

theorem run_mergeItems_cons_eq_ok_iff {a b : α} {as bs cs : List α} :
    (mergeItems (b :: bs)).run (a :: as) = .ok () cs ↔
      ∃ c rest, merge a b = .ok c ∧ (mergeItems bs).run as = .ok () rest ∧ c :: rest = cs := by
  simp only [← mergeAssign_eq_ok_iff (α := α), EStateM.run]
  cases hitem : mergeAssign b a <;> cases hrest : mergeItems bs as <;>
    simp [mergeItems, hitem, hrest]

/-- Items are merged in place into a list that was made long enough as lists are merged. -/
theorem run_mergeItems_extend_eq_ok_iff {as bs cs : List α} :
    (mergeItems bs).run (extend bs.length as) = .ok () cs ↔ mergeLists as bs = .ok cs := by
  induction bs generalizing as cs with
  | nil => simp [EStateM.run, mergeItems, extend, mergeLists]
  | cons b bs ih =>
    cases as with
    | nil =>
      have hextend : extend (b :: bs).length ([] : List α) = neutral :: extend bs.length [] := by
        simp [extend, List.replicate_succ]
      rw [hextend, run_mergeItems_cons_eq_ok_iff, mergeLists_nil_cons_eq_ok_iff]
      simp only [ih]
    | cons a as =>
      have hextend : extend (b :: bs).length (a :: as) = a :: extend bs.length as := by
        simp [extend]
      rw [hextend, run_mergeItems_cons_eq_ok_iff, mergeLists_cons_eq_ok_iff]
      simp only [ih]

instance : LawfulInPlace (List α) where
  mergeAssign_eq_ok_iff := run_mergeItems_extend_eq_ok_iff

end Lists

section Vectors

variable [Mergeable α] [LawfulInPlace α] {n : Nat}

/-- A loop over different places merges what is there, and leaves the other places alone. -/
theorem run_forM_within_eq_ok_iff {as bs cs : Vector α n} {places : List (Fin n)}
    (hnodup : places.Nodup) :
    (places.forM fun i =>
        within (·.get i) (fun as a => as.set i a i.2) (mergeAssign (bs.get i))).run as = .ok () cs ↔
      (∀ i ∈ places, merge (as.get i) (bs.get i) = .ok (cs.get i)) ∧
        ∀ i ∉ places, cs.get i = as.get i := by
  induction places generalizing as with
  | nil =>
    rw [run_forM_nil_eq_ok_iff]
    simp only [List.not_mem_nil, false_imp_iff, implies_true, not_false_eq_true, forall_const,
      true_and]
    exact ⟨fun h i => by rw [h], fun h => (Vector.ext fun i hi => h ⟨i, hi⟩).symm⟩
  | cons i rest ih =>
    obtain ⟨hi, hrest⟩ := List.nodup_cons.1 hnodup
    rw [run_forM_cons_eq_ok_iff]
    simp only [run_within_eq_ok_iff, mergeAssign_eq_ok_iff, ih hrest]
    have hself : ∀ v : α, (as.set i v i.2).get i = v := fun v => Vector.getElem_set_self i.2
    -- the places to come are not the one that was just changed
    have hset : ∀ {j : Fin n} (v : α), j ≠ i → (as.set i v i.2).get j = as.get j := by
      intro j v hne
      exact Vector.getElem_set_ne i.2 j.2 fun heq => hne (Fin.ext heq.symm)
    constructor
    · rintro ⟨_, ⟨v, hv, rfl⟩, hitems, hothers⟩
      refine ⟨List.forall_mem_cons.2 ⟨?_, ?_⟩, ?_⟩
      · rw [hv, hothers i hi, hself]
      · intro j hj
        rw [← hset v fun heq => hi (heq ▸ hj)]
        exact hitems j hj
      · intro j hj
        obtain ⟨hne, hj⟩ := List.ne_and_not_mem_of_not_mem_cons hj
        rw [hothers j hj, hset v hne]
    · rintro ⟨hitems, hothers⟩
      obtain ⟨hitem, hitems⟩ := List.forall_mem_cons.1 hitems
      refine ⟨_, ⟨cs.get i, hitem, rfl⟩, ?_, ?_⟩
      · intro j hj
        rw [hset _ fun heq => hi (heq ▸ hj)]
        exact hitems j hj
      · intro j hj
        by_cases hji : j = i
        · subst hji
          rw [hself]
        · rw [hset _ hji]
          exact hothers j (List.not_mem_cons_of_ne_of_not_mem hji hj)

instance : LawfulInPlace (Vector α n) where
  mergeAssign_eq_ok_iff := by
    intro as bs cs
    rw [merge_vectors_eq_ok_iff]
    refine (run_forM_within_eq_ok_iff (List.nodup_finRange n)).trans ?_
    simp

end Vectors

instance [Mergeable α] [LawfulInPlace α] [Mergeable β]
    [LawfulInPlace β] : LawfulInPlace (α × β) where
  mergeAssign_eq_ok_iff := by
    intro a b c
    obtain ⟨x, y⟩ := c
    refine run_seq_eq_ok_iff.trans ?_
    simp [run_within_eq_ok_iff, mergeAssign_eq_ok_iff, merge_pair_eq_ok_iff]

end Mergeable

namespace Tally

open Mergeable Mergeable.InPlace Mergeable.LawfulInPlace Std

variable {κ β : Type} [Ord κ] [TransOrd κ] [Mergeable β] [LawfulInPlace β]

theorem run_mergeIntoInPlace_eq_ok_iff {t u : Tally κ β} {k : κ} {delta : β} :
    (mergeIntoInPlace k delta).run t = .ok () u ↔ t.mergeInto k delta = .ok u := by
  rw [mergeInto_eq_ok_iff]
  simp only [← mergeAssign_eq_ok_iff (α := β), EStateM.run, mergeIntoInPlace, get]
  split
  · next v hv =>
    rw [hv, Option.getD_some]
    cases mergeAssign delta v <;> simp
  · next hnone =>
    rw [hnone, Option.getD_none]
    cases mergeAssign delta neutral <;> simp

theorem run_forM_mergeIntoInPlace_eq_ok_iff {t u : Tally κ β} {entries : List (κ × β)} :
    (entries.forM fun e => mergeIntoInPlace e.1 e.2).run t = .ok () u ↔
      t.mergeEntries entries = .ok u := by
  induction entries generalizing t with
  | nil => simp
  | cons e rest ih =>
    obtain ⟨k, delta⟩ := e
    rw [run_forM_cons_eq_ok_iff]
    simp only [run_mergeIntoInPlace_eq_ok_iff, ih]
    cases hmerge : t.mergeInto k delta with
    | error fault => simp [mergeEntries_cons_error hmerge]
    | ok t' => simp [mergeEntries_cons_ok hmerge]

instance : LawfulInPlace (Tally κ β) where
  mergeAssign_eq_ok_iff := run_forM_mergeIntoInPlace_eq_ok_iff

end Tally

/-- A merge into a key of a shared tally leaves there what the merge in place leaves, whether it
ends or faults. -/
theorem SharedTally.tally_mergeInto {κ β : Type} [Ord κ] [Std.TransOrd κ] [Mergeable β]
    [Mergeable.LawfulInPlace β] (s : SharedTally κ β) (k : κ) (delta : β) :
    (s.mergeInto k delta).1.tally =
      s.tally.set k (Mergeable.InPlace.leaves delta (s.tally.get k)) := by
  rw [mergeInto]
  cases hmerge : s.tally.mergeInto k delta with
  | error fault => rfl
  | ok t =>
    obtain ⟨v, hv, rfl⟩ := Tally.mergeInto_eq_ok_iff.1 hmerge
    have hleaves : Mergeable.InPlace.mergeAssign delta (s.tally.get k) = .ok () v :=
      Mergeable.LawfulInPlace.mergeAssign_eq_ok_iff.2 hv
    rw [Mergeable.InPlace.leaves, hleaves]

end BatchRun
