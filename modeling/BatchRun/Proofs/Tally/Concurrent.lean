import Mathlib.Data.Set.Card
import Mathlib.Logic.Relation
import BatchRun.Tally.Shared
import BatchRun.Proofs.Tally.Laws

/-!
# Workers that merge into a shared tally

Each worker merges tallies of its own into a shared one, value by value. The others merge theirs
in between, so that what happens is in general no row of whole merges. It is a row of merges of
single values, in which each value of each tally comes once, and the order of such merges does
not matter.

That no merge overflows is asked of all orders, since the workers may take any of them. Among
payloads without signed numbers one order that finishes is enough.

## Main definitions

* `Merger`: a worker, with the values that are left of the tally at hand and the tallies ahead
* `Merging`: workers and the tally that they share, with the steps that they take in any order
* `Tally.IsSum`: what comes of merging tallies one after the other, in whichever order
* `SharedTally.Yields`: what is taken out of a shared tally, in whichever way

## Main results

* `Merger.goes_of_mergeTally`: a worker that nobody interrupts merges whole tallies
* `Merging.Reaches.sound`: each value was merged or is still to come
* `Merging.Reaches.gathers`: workers that are done have merged everything
-/

namespace BatchRun

open Std Mergeable Relation

namespace Tally

variable {κ β : Type} [Ord κ] [TransOrd κ] [LawfulEqOrd κ] [Mergeable β]

/-- Values that are merged without a fault in any order. -/
def NeverFault (values : List (κ × β)) : Prop :=
  ∀ row : List (κ × β), row.Perm values → ∃ t, collect row = .ok t

/-- A tally that comes of merging tallies one after the other, in whichever order they and their
entries come. -/
structure IsSum (parts : List (Tally κ β)) (t : Tally κ β) : Prop where
  merged (order : List (Tally κ β)) (h : order.Perm parts) : order.foldlM mergeTally empty = .ok t
  collected (row : List (κ × β)) (h : row.Perm (parts.flatMap entries)) : collect row = .ok t
  contains_iff (k : κ) : t.contains k ↔ ∃ part ∈ parts, part.contains k
  size_eq : t.size = {k | ∃ part ∈ parts, part.contains k}.ncard

omit [TransOrd κ] [Mergeable β] in
theorem contains_iff_mem_keys {t : Tally κ β} {k : κ} :
    t.contains k ↔ k ∈ t.entries.map Prod.fst := by
  rw [contains_eq, ← not_iff_not, notMem_keys_iff_get? (.refl t.entries)]
  simp

omit [TransOrd κ] [Mergeable β] in
theorem size_eq_ncard (t : Tally κ β) : t.size = (keys t).ncard := by
  classical
  have hkeys : keys t = ((t.entries.map Prod.fst).toFinset : Set κ) := by
    ext k
    simp only [keys, Set.mem_ofPred_eq, contains_iff_mem_keys, List.coe_toFinset]
  rw [hkeys, Set.ncard_coe_finset, List.toFinset_card_of_nodup (nodup_keys (.refl t.entries)),
    List.length_map]
  rfl

omit [Mergeable β] in
theorem contains_set (t : Tally κ β) (k : κ) (v : β) (k' : κ) :
    (t.set k v).contains k' ↔ t.contains k' ∨ k' = k := by
  by_cases hk : k' = k
  · simp [contains_eq, hk, get?_set_self]
  · simp [contains_eq, hk, get?_set_of_ne t hk]

/-- Merges leave the keys there are, and touch those that values come to. -/
theorem contains_of_mergeEntries {t u : Tally κ β} {values : List (κ × β)}
    (h : t.mergeEntries values = .ok u) (k : κ) :
    u.contains k ↔ t.contains k ∨ k ∈ values.map Prod.fst := by
  induction values generalizing t with
  | nil =>
    obtain rfl := Except.ok.inj h
    simp
  | cons e rest ih =>
    obtain ⟨next, hmerge, hrest⟩ := exists_of_mergeEntries_cons h
    obtain ⟨v, -, rfl⟩ := mergeInto_eq_ok_iff.1 hmerge
    rw [ih hrest, contains_set, List.map_cons, List.mem_cons, or_assoc]

omit [TransOrd κ] [Mergeable β] in
theorem mem_keys_flatMap {parts : List (Tally κ β)} {k : κ} :
    k ∈ (parts.flatMap entries).map Prod.fst ↔ ∃ part ∈ parts, part.contains k := by
  simp only [contains_iff_mem_keys, List.mem_map, List.mem_flatMap]
  grind

section Sums

variable {B : Type} [AddCommMonoid B] [hexact : Exact β B] {parts : List (Tally κ β)}
  {t : Tally κ β} {row : List (κ × β)}

include hexact in
/-- What values are merged into in one order is what they are merged into in all orders. -/
theorem isSum_of_collect (hsafe : NeverFault (parts.flatMap entries))
    (hrow : row.Perm (parts.flatMap entries)) (h : collect row = .ok t) : IsSum parts t := by
  have hcollected (row' : List (κ × β)) (hrow' : row'.Perm (parts.flatMap entries)) :
      collect row' = .ok t := by
    obtain ⟨u, hu⟩ := hsafe row' hrow'
    rw [hu, eq_of_perm (hrow'.trans hrow.symm) hu h]
  have hcontains (k : κ) : t.contains k ↔ ∃ part ∈ parts, part.contains k := by
    rw [contains_of_mergeEntries h k, (hrow.map Prod.fst).mem_iff, mem_keys_flatMap]
    exact or_iff_right nofun
  refine ⟨?_, hcollected, hcontains, ?_⟩
  · intro order horder
    rw [foldlM_mergeTally]
    exact hcollected _ (horder.flatMap_right entries)
  · rw [size_eq_ncard, keys, Set.ext hcontains]

end Sums

/-- A tally is copied without a change, in whichever order its entries come. -/
theorem collect_of_perm [Lawful β] {t : Tally κ β} {row : List (κ × β)}
    (h : row.Perm t.entries) : collect row = .ok t := by
  rw [collect, mergeEntries_eq_ok_iff_of_perm h]
  have hempty (k : κ) : ¬(empty : Tally κ β).contains k := Bool.false_ne_true
  exact ⟨fun k => (or_iff_right (hempty k)).symm, fun k => Lawful.neutral_merge _⟩

section Unordered

variable {values : List (κ × β)} {t : Tally κ β}

omit [LawfulEqOrd κ] in
/-- A row of values is a row of tallies with one key each. -/
theorem collect_eq_foldlM (values : List (κ × β)) :
    collect values = (values.map fun e => ofEntries [e]).foldlM merge neutral := by
  have hone (e : κ × β) : (ofEntries [e]).entries = [e] := rfl
  have hvalues : (values.map fun e => ofEntries [e]).flatMap entries = values := by
    simp only [List.flatMap_map, hone, List.flatMap_singleton']
  rw [collect, ← hvalues, ← foldlM_mergeTally, hvalues]
  rfl

/-- If it does not depend on the order whether merges finish, one order that does is enough. -/
theorem neverFault_of_collect [Lawful β] [Unordered β] (h : collect values = .ok t) :
    NeverFault values := by
  intro row hrow
  rw [collect_eq_foldlM] at h ⊢
  exact ⟨t, foldlM_merge_eq_ok_of_perm (hrow.symm.map _) h⟩

end Unordered

end Tally

namespace SharedTally

variable {κ β : Type} [Ord κ] [TransOrd κ] [Mergeable β]

theorem mergeInto_eq_none_iff {s s' : SharedTally κ β} {k : κ} {delta : β} :
    s.mergeInto k delta = (s', none) ↔
      ∃ t, s.tally.mergeInto k delta = .ok t ∧ s' = { s with tally := t } := by
  rw [mergeInto]
  cases s.tally.mergeInto k delta with
  | error fault => simp
  | ok t => simp [eq_comm]

theorem mergeInto_eq_some_iff {s s' : SharedTally κ β} {k : κ} {delta : β} {fault : Fault} :
    s.mergeInto k delta = (s', some fault) ↔
      s.tally.mergeInto k delta = .error fault ∧
        s' = { s with
          tally := s.tally.set k (Mergeable.InPlace.leaves delta (s.tally.get k)) } := by
  rw [mergeInto]
  cases s.tally.mergeInto k delta with
  | error fault' => simp [eq_comm, and_comm]
  | ok t => simp

/-- Merges into a shared tally that do not fault are those into its contents. -/
theorem mergeEntries_eq_none_iff {s s' : SharedTally κ β} {values : List (κ × β)} :
    s.mergeEntries values = (s', none) ↔
      ∃ t, s.tally.mergeEntries values = .ok t ∧ s' = { s with tally := t } := by
  induction values generalizing s with
  | nil => simp [mergeEntries, eq_comm]
  | cons e rest ih =>
    obtain ⟨k, delta⟩ := e
    cases hmerge : s.tally.mergeInto k delta with
    | error fault =>
      rw [Tally.mergeEntries_cons_error hmerge, mergeEntries,
        mergeInto_eq_some_iff.2 ⟨hmerge, rfl⟩]
      simp
    | ok t =>
      rw [Tally.mergeEntries_cons_ok hmerge, mergeEntries, mergeInto_eq_none_iff.2 ⟨t, hmerge, rfl⟩]
      exact ih

/-- A shared tally from which the same tally is taken in whichever way: through any handle,
whether it is the last one or not, and whatever the order in which the entries are copied. -/
structure Yields (s : SharedTally κ β) (t : Tally κ β) : Prop where
  tally_eq : s.tally = t
  snapshot_eq : s.handles.any id → s.snapshot = some (.ok t)
  takeOut_eq (handle : Nat) :
    s.takeOut handle = ({ s with handles := s.handles.set handle false }, .ok t)
  collect_eq (row : List (κ × β)) (h : row.Perm s.tally.entries) : Tally.collect row = .ok t

/-- What is taken out of a shared tally is what it has. -/
theorem yields [LawfulEqOrd κ] [Lawful β] (s : SharedTally κ β) : s.Yields s.tally where
  tally_eq := rfl
  snapshot_eq h := by rw [snapshot, if_pos h, Tally.snapshot, Tally.collect_of_perm (.refl _)]
  takeOut_eq handle := by rw [takeOut, Tally.snapshot, Tally.collect_of_perm (.refl _)]
  collect_eq _ := Tally.collect_of_perm

end SharedTally

/-- A worker that merges tallies into a shared one, value by value. -/
structure Merger (κ β : Type) [Ord κ] where
  /-- What is left of the tally at hand, in the order in which it comes. -/
  inHand : List (κ × β)
  ahead : List (Tally κ β)
  /-- Whether a merge has overflowed, which ends the worker. -/
  isLost : Bool

namespace Merger

variable {κ β : Type} [Ord κ]

/-- A worker that has not begun. -/
def ofParts (parts : List (Tally κ β)) : Merger κ β := ⟨[], parts, false⟩

/-- The values that are still to be merged. -/
def left (w : Merger κ β) : List (κ × β) := w.inHand ++ w.ahead.flatMap Tally.entries

/-- Whether nothing is left to be merged. -/
def IsDone (w : Merger κ β) : Prop := w.inHand = [] ∧ w.ahead = []

theorem IsDone.left_eq {w : Merger κ β} (h : w.IsDone) : w.left = [] := by
  rw [left, h.1, h.2]
  rfl

variable [TransOrd κ] [Mergeable β]

/-- A worker takes the next tally in hand, whose entries come in any order, or merges one value. -/
inductive Goes : SharedTally κ β × Merger κ β → SharedTally κ β × Merger κ β → Prop
  | takeUp {s : SharedTally κ β} {t : Tally κ β} {ahead : List (Tally κ β)} {row : List (κ × β)}
      (h : row.Perm t.entries) : Goes (s, ⟨[], t :: ahead, false⟩) (s, ⟨row, ahead, false⟩)
  | merge {s s' : SharedTally κ β} {k : κ} {delta : β} {row : List (κ × β)}
      {ahead : List (Tally κ β)} (h : s.mergeInto k delta = (s', none)) :
      Goes (s, ⟨(k, delta) :: row, ahead, false⟩) (s', ⟨row, ahead, false⟩)
  | lose {s s' : SharedTally κ β} {k : κ} {delta : β} {row : List (κ × β)}
      {ahead : List (Tally κ β)} {fault : Fault} (h : s.mergeInto k delta = (s', some fault)) :
      Goes (s, ⟨(k, delta) :: row, ahead, false⟩) (s', ⟨row, ahead, true⟩)

/-- A worker merges the values in hand one after the other. -/
theorem goes_of_mergeEntries {s s' : SharedTally κ β} {row : List (κ × β)}
    (h : s.mergeEntries row = (s', none)) (ahead : List (Tally κ β)) :
    ReflTransGen Goes (s, ⟨row, ahead, false⟩) (s', ⟨[], ahead, false⟩) := by
  induction row generalizing s with
  | nil =>
    obtain rfl := (Prod.mk.inj h).1
    exact .refl
  | cons e rest ih =>
    obtain ⟨k, delta⟩ := e
    rw [SharedTally.mergeEntries] at h
    split at h
    · next hmerge => exact .head (.merge hmerge) (ih h)
    · cases h

/-- A worker that nobody interrupts merges the next tally as a whole. -/
theorem goes_of_mergeTally {s s' : SharedTally κ β} {t : Tally κ β}
    (h : s.mergeTally t = (s', none)) (ahead : List (Tally κ β)) :
    ReflTransGen Goes (s, ⟨[], t :: ahead, false⟩) (s', ⟨[], ahead, false⟩) :=
  .head (.takeUp (.refl t.entries)) (goes_of_mergeEntries h ahead)

/-- A worker whose merges do not fault can finish. -/
theorem exists_goes {s : SharedTally κ β} {w : Merger κ β} {t : Tally κ β}
    (hlost : w.isLost = false) (h : s.tally.mergeEntries w.left = .ok t) :
    ReflTransGen Goes (s, w) ({ s with tally := t }, ofParts []) := by
  obtain ⟨row, ahead, isLost⟩ := w
  obtain rfl : isLost = false := hlost
  obtain ⟨merged, hrow, hahead⟩ := Tally.exists_of_mergeEntries_append h
  refine .trans (goes_of_mergeEntries
    (SharedTally.mergeEntries_eq_none_iff.2 ⟨merged, hrow, rfl⟩) ahead) ?_
  clear hrow h
  induction ahead generalizing merged with
  | nil =>
    obtain rfl := Except.ok.inj hahead
    exact .refl
  | cons part rest ih =>
    obtain ⟨next, hpart, hrest⟩ := Tally.exists_of_mergeEntries_append hahead
    exact .trans (goes_of_mergeTally
      (SharedTally.mergeEntries_eq_none_iff.2 ⟨next, hpart, rfl⟩) rest) (ih next hrest)

end Merger

/-- Workers that merge into one tally. -/
structure Merging (κ β : Type) [Ord κ] where
  shared : SharedTally κ β
  workers : List (Merger κ β)

namespace Merging

variable {κ β : Type} [Ord κ]

/-- Nobody has begun, and the tally has one handle. -/
def ofTasks (tasks : List (List (Tally κ β))) : Merging κ β :=
  ⟨.new, tasks.map Merger.ofParts⟩

/-- The values that are still to be merged. -/
def left (m : Merging κ β) : List (κ × β) := m.workers.flatMap Merger.left

/-- Whether all workers are done. -/
def IsDone (m : Merging κ β) : Prop := ∀ w ∈ m.workers, w.IsDone

theorem left_ofTasks (tasks : List (List (Tally κ β))) :
    (ofTasks tasks).left = tasks.flatten.flatMap Tally.entries := by
  rw [left, ofTasks, List.flatMap_map, List.flatMap_def, List.flatMap_def, List.map_flatten,
    List.flatten_flatten, List.map_map]
  rfl

/-- What one worker has left comes before what the others have. -/
theorem left_perm (s : SharedTally κ β) (before after : List (Merger κ β)) (w : Merger κ β) :
    (Merging.mk s (before ++ w :: after)).left.Perm
      (w.left ++ (before ++ after).flatMap Merger.left) := by
  simp only [left, List.flatMap_append, List.flatMap_cons]
  exact List.perm_append_comm_assoc ..

variable [TransOrd κ] [Mergeable β]

/-- Any of the workers goes on, or a handle is made or given up. -/
inductive Step : Merging κ β → Merging κ β → Prop
  | work {s s' : SharedTally κ β} (before after : List (Merger κ β)) {w w' : Merger κ β}
      (h : Merger.Goes (s, w) (s', w')) :
      Step ⟨s, before ++ w :: after⟩ ⟨s', before ++ w' :: after⟩
  | share {s : SharedTally κ β} {workers : List (Merger κ β)} :
      Step ⟨s, workers⟩ ⟨s.share.1, workers⟩
  | giveUp {s : SharedTally κ β} {workers : List (Merger κ β)} (handle : Nat) :
      Step ⟨s, workers⟩ ⟨(s.takeOut handle).1, workers⟩

/-- Any number of steps, in any order. -/
abbrev Reaches : Merging κ β → Merging κ β → Prop := ReflTransGen Step

/-- Each of the values to be merged was merged once or is still to come, and no worker is lost. -/
structure Sound (values : List (κ × β)) (m : Merging κ β) : Prop where
  isLost_eq : ∀ w ∈ m.workers, w.isLost = false
  exists_merged : ∃ merged, Tally.collect merged = .ok m.shared.tally ∧
    (merged ++ m.left).Perm values

/-- One worker goes on while the others stay where they are. -/
theorem reaches_of_goes {s s' : SharedTally κ β} {w w' : Merger κ β}
    (h : ReflTransGen Merger.Goes (s, w) (s', w')) (before after : List (Merger κ β)) :
    Reaches ⟨s, before ++ w :: after⟩ ⟨s', before ++ w' :: after⟩ :=
  h.lift (fun x => (⟨x.1, before ++ x.2 :: after⟩ : Merging κ β)) fun _ _ => .work before after

/-- One worker after the other can finish, if what is left is merged without a fault. -/
theorem exists_reaches {s : SharedTally κ β} {workers : List (Merger κ β)} {t : Tally κ β}
    (hlost : ∀ w ∈ workers, w.isLost = false)
    (h : s.tally.mergeEntries (workers.flatMap Merger.left) = .ok t) (before : List (Merger κ β)) :
    Reaches ⟨s, before ++ workers⟩
      ⟨{ s with tally := t }, before ++ workers.map fun _ => .ofParts []⟩ := by
  induction workers generalizing s before with
  | nil =>
    obtain rfl := Except.ok.inj h
    exact .refl
  | cons w rest ih =>
    rw [List.flatMap_cons] at h
    obtain ⟨next, hw, hrest⟩ := Tally.exists_of_mergeEntries_append h
    obtain ⟨hlostw, hlostrest⟩ := List.forall_mem_cons.1 hlost
    have hfirst := reaches_of_goes (Merger.exists_goes hlostw hw) before rest
    have hothers := ih (s := { s with tally := next }) hlostrest hrest (before ++ [.ofParts []])
    rw [List.append_assoc, List.append_assoc] at hothers
    exact hfirst.trans hothers

variable {values : List (κ × β)} {m m' : Merging κ β}

theorem sound_ofTasks (tasks : List (List (Tally κ β))) :
    Sound (tasks.flatten.flatMap Tally.entries) (ofTasks tasks) where
  isLost_eq := by
    intro w hw
    obtain ⟨parts, -, rfl⟩ := List.mem_map.1 hw
    rfl
  exists_merged := ⟨[], rfl, by rw [List.nil_append, left_ofTasks]⟩

/-- Where no order of the merges faults, the next one does not. -/
theorem Sound.exists_mergeInto (h : Sound values m) (hsafe : Tally.NeverFault values)
    {e : κ × β} {others : List (κ × β)} (hleft : m.left.Perm (e :: others)) :
    ∃ t, m.shared.tally.mergeInto e.1 e.2 = .ok t := by
  obtain ⟨merged, hmerged, hperm⟩ := h.exists_merged
  obtain ⟨u, hu⟩ := hsafe (merged ++ e :: others) ((hleft.symm.append_left merged).trans hperm)
  obtain ⟨merged', hmerged', hrest⟩ := Tally.exists_of_mergeEntries_append hu
  obtain rfl := Except.ok.inj (hmerged.symm.trans hmerged')
  obtain ⟨t, ht, -⟩ := Tally.exists_of_mergeEntries_cons hrest
  exact ⟨t, ht⟩

/-- A worker that does not merge a value keeps those that it has left. -/
theorem Sound.of_left_perm (h : Sound values m) (htally : m'.shared.tally = m.shared.tally)
    (hlost : ∀ w ∈ m'.workers, w.isLost = false) (hleft : m'.left.Perm m.left) :
    Sound values m' := by
  obtain ⟨merged, hmerged, hperm⟩ := h.exists_merged
  refine ⟨hlost, merged, ?_, (hleft.append_left merged).trans hperm⟩
  rw [htally, hmerged]

/-- A value that is merged is no longer left. -/
theorem Sound.of_mergeInto (h : Sound values m) {e : κ × β}
    (hmerge : m.shared.tally.mergeInto e.1 e.2 = .ok m'.shared.tally)
    (hlost : ∀ w ∈ m'.workers, w.isLost = false) (hleft : m.left.Perm (e :: m'.left)) :
    Sound values m' := by
  obtain ⟨merged, hmerged, hperm⟩ := h.exists_merged
  refine ⟨hlost, merged ++ [e], ?_, ?_⟩
  · rw [Tally.collect, Tally.mergeEntries_append hmerged, Tally.mergeEntries_cons_ok hmerge]
    rfl
  · rw [List.append_assoc]
    exact (hleft.symm.append_left merged).trans hperm

theorem Sound.step (h : Sound values m) (hsafe : Tally.NeverFault values) (hstep : Step m m') :
    Sound values m' := by
  cases hstep with
  | share => exact h.of_left_perm rfl h.isLost_eq (.refl _)
  | giveUp handle => exact h.of_left_perm rfl h.isLost_eq (.refl _)
  | @work s s' before after w w' hgoes =>
    have hleft := left_perm s before after w
    have hleft' := left_perm s' before after w'
    -- the other workers are as they were
    have hlost (hw' : w'.isLost = false) : ∀ x ∈ before ++ w' :: after, x.isLost = false := by
      have hothers := h.isLost_eq
      simp only [List.forall_mem_append, List.forall_mem_cons] at hothers ⊢
      exact ⟨hothers.1, hw', hothers.2.2⟩
    cases hgoes with
    | @takeUp _ t ahead row hrow =>
      have hhand : (row ++ ahead.flatMap Tally.entries).Perm
          (t.entries ++ ahead.flatMap Tally.entries) := hrow.append_right _
      refine h.of_left_perm rfl (hlost rfl) (hleft'.trans (.trans ?_ hleft.symm))
      exact hhand.append_right _
    | merge hmerge =>
      obtain ⟨t, ht, rfl⟩ := SharedTally.mergeInto_eq_none_iff.1 hmerge
      exact h.of_mergeInto ht (hlost rfl) (hleft.trans (hleft'.symm.cons _))
    | lose hmerge =>
      obtain ⟨hfault, -⟩ := SharedTally.mergeInto_eq_some_iff.1 hmerge
      obtain ⟨t, ht⟩ := h.exists_mergeInto hsafe hleft
      rw [hfault] at ht
      cases ht

/-- As long as merges go on, each value was merged or is still to come. -/
theorem Reaches.sound {tasks : List (List (Tally κ β))} (h : (ofTasks tasks).Reaches m)
    (hsafe : Tally.NeverFault (tasks.flatten.flatMap Tally.entries)) :
    Sound (tasks.flatten.flatMap Tally.entries) m := by
  induction h with
  | refl => exact sound_ofTasks tasks
  | tail _ hstep ih => exact ih.step hsafe hstep

/-- Workers that are not lost can all finish. -/
theorem Sound.exists_isDone (h : Sound values m) (hsafe : Tally.NeverFault values) :
    ∃ m', m.Reaches m' ∧ m'.IsDone := by
  obtain ⟨merged, hmerged, hperm⟩ := h.exists_merged
  obtain ⟨t, ht⟩ := hsafe _ hperm
  rw [Tally.collect, Tally.mergeEntries_append hmerged] at ht
  refine ⟨_, exists_reaches h.isLost_eq ht [], ?_⟩
  intro w hw
  obtain ⟨w', -, rfl⟩ := List.mem_map.1 hw
  exact ⟨rfl, rfl⟩

/-- When all workers are done, everything was merged. -/
theorem Sound.exists_collect (h : Sound values m) (hdone : m.IsDone) :
    ∃ merged : List (κ × β), merged.Perm values ∧ Tally.collect merged = .ok m.shared.tally := by
  obtain ⟨merged, hmerged, hperm⟩ := h.exists_merged
  have hleft : m.left = [] := List.flatMap_eq_nil_iff.2 fun w hw => (hdone w hw).left_eq
  rw [hleft, List.append_nil] at hperm
  exact ⟨merged, hperm, hmerged⟩

section Payloads

variable {κ : Type} [Ord κ] [TransOrd κ] [LawfulEqOrd κ] {p : Payload}

/-- Workers merge payloads into one tally, each as many tallies as it has, and after every value
another worker may go on. If no order of the merges overflows, then no worker is lost and all can
finish. When they have, the shared tally yields what comes of merging all tallies one after the
other, in whichever order. -/
theorem Reaches.gathers {tasks : List (List (Tally κ p.Value))} {m : Merging κ p.Value}
    (h : (ofTasks tasks).Reaches m)
    (hsafe : Tally.NeverFault (tasks.flatten.flatMap Tally.entries)) :
    (∀ w ∈ m.workers, w.isLost = false) ∧ (∃ m', m.Reaches m' ∧ m'.IsDone) ∧
      (m.IsDone → ∃ t, t.IsSum tasks.flatten ∧ m.shared.Yields t) := by
  have := p.lawful
  have hsound := h.sound hsafe
  refine ⟨hsound.isLost_eq, hsound.exists_isDone hsafe, ?_⟩
  intro hdone
  obtain ⟨merged, hperm, hmerged⟩ := hsound.exists_collect hdone
  exact ⟨m.shared.tally, Tally.isSum_of_collect hsafe hperm hmerged, m.shared.yields⟩

/-- Rows of counters of one byte, each under its key. -/
def counters (rows : List (Nat × List Int)) : Tally Nat (Payload.list (.unsigned 8)).Value :=
  Tally.ofEntries (rows.map fun row => (row.1, (row.2.filterMap Ranged.ofInt? : List (Unsigned 8))))

/-- Of two workers the second one merges its row between the two of the first one. -/
theorem gathers_counters :
    let tasks := [[counters [(1, [205]), (2, [1])]], [counters [(1, [50, 3])]]]
    let t := counters [(1, [255, 3]), (2, [1])]
    Tally.NeverFault (tasks.flatten.flatMap Tally.entries) ∧
      ∃ m, (ofTasks tasks).Reaches m ∧ m.IsDone ∧ t.IsSum tasks.flatten ∧ m.shared.Yields t := by
  intro tasks t
  have hlawful := Payload.lawful (.list (.unsigned 8))
  have hunordered : Unordered (Payload.list (.unsigned 8)).Value := Payload.unordered rfl
  have hsafe : Tally.NeverFault (tasks.flatten.flatMap Tally.entries) :=
    Tally.neverFault_of_collect (t := t) rfl
  refine ⟨hsafe, ?_⟩
  have hruns : ∃ m, (ofTasks tasks).Reaches m ∧ m.IsDone ∧ m.shared.tally = t := by
    refine ⟨_, .head (.work [] [_] (.takeUp (.refl _))) (.head (.work [] [_] (.merge rfl))
      (.head (.work [_] [] (.takeUp (.refl _))) (.head (.work [_] [] (.merge rfl))
      (.head (.work [] [_] (.merge rfl)) .refl)))), ?_, rfl⟩
    simp [IsDone, Merger.IsDone]
  obtain ⟨m, hreaches, hdone, htally⟩ := hruns
  obtain ⟨t', hsum, hyields⟩ := (hreaches.gathers hsafe).2.2 hdone
  obtain rfl : t' = t := hyields.tally_eq.symm.trans htally
  exact ⟨m, hreaches, hdone, hsum, hyields⟩

end Payloads

end Merging

end BatchRun
