import BatchRun.Proofs.SortedMap
import BatchRun.Proofs.Tally.Merging

/-!
# What a tally has merged

A row of merges leaves with each key what comes of the values for that key, merged into the
neutral value one after the other. A tally that is read as a whole has each of its values merged
into the neutral value once more. Keys that compare as equal are one key, whether or not they are
equal.

## Main definitions

* `Tally.deltasOf`: the values that entries have for a key
* `Tally.HasMerged`: a tally that has merged some entries, key by key
* `Tally.MergedAgain`: a tally each of whose values was merged into the neutral value once more
* `Mergeable.IsMerged`, `Mergeable.Settles`: what was merged from others can be merged into the
  neutral value once more

## Main results

* `Tally.hasMerged_of_mergeEntries`: a row of merges, key by key
* `Tally.mergeTally_empty_eq_ok_iff`: what an empty tally makes of another one
* `Tally.snapshot_of_settles`: a tally that was merged is its own snapshot
-/

namespace BatchRun

open Std

namespace Mergeable

variable {α : Type} [Mergeable α]

/-- A value that was merged from others, one after the other. -/
def IsMerged (a : α) : Prop := ∃ deltas : List α, deltas.foldlM merge neutral = .ok a

/-- What was merged from others is not changed by being merged into the neutral value once more.
Lawful values do this in any case. Floating-point numbers do it because no number that was merged
is `-0.0`. -/
def Settles (α : Type) [Mergeable α] : Prop := ∀ a : α, IsMerged a → merge neutral a = .ok a

theorem isMerged_neutral : IsMerged (neutral : α) := ⟨[], rfl⟩

/-- What is merged into a value that was merged makes one more such value. -/
theorem IsMerged.merge {a b c : α} (ha : IsMerged a) (h : Mergeable.merge a b = .ok c) :
    IsMerged c := by
  obtain ⟨deltas, hdeltas⟩ := ha
  have hlast : [b].foldlM Mergeable.merge a = .ok c := by simpa using h
  refine ⟨deltas ++ [b], ?_⟩
  rw [List.foldlM_append, hdeltas]
  exact hlast

end Mergeable

namespace Tally

open Mergeable

variable {κ β : Type} [Ord κ]

/-- The values that entries have for a key, in their order. -/
def deltasOf (k : κ) (entries : List (κ × β)) : List β :=
  (entries.filter fun e => compare k e.1 = .eq).map Prod.snd

/-- A tally has merged some entries: it has the keys of these entries and no others, and each key
has what comes of merging its values into the neutral value, in their order. -/
structure HasMerged [Mergeable β] (t : Tally κ β) (entries : List (κ × β)) : Prop where
  contains_iff (k : κ) : t.contains k ↔ ∃ e ∈ entries, compare k e.1 = .eq
  get_eq (k : κ) : (deltasOf k entries).foldlM merge neutral = .ok (t.get k)

/-- A tally has the keys of another one, and with each of them its value merged into the neutral
value once more. -/
def MergedAgain [Mergeable β] (t u : Tally κ β) : Prop :=
  List.Forall₂ (fun e e' => e'.1 = e.1 ∧ merge neutral e.2 = .ok e'.2) t.entries u.entries

section Deltas

variable {k k' : κ} {entries : List (κ × β)}

theorem deltasOf_cons_of_eq (h : compare k k' = .eq) (delta : β) (entries : List (κ × β)) :
    deltasOf k ((k', delta) :: entries) = delta :: deltasOf k entries := by
  simp [deltasOf, h]

theorem deltasOf_cons_of_compare_ne (h : compare k k' ≠ .eq) (delta : β)
    (entries : List (κ × β)) :
    deltasOf k ((k', delta) :: entries) = deltasOf k entries := by
  simp [deltasOf, h]

end Deltas

variable [TransOrd κ]

theorem get?_set (t : Tally κ β) (k k' : κ) (v : β) :
    (t.set k v).get? k' = if compare k' k = .eq then some v else t.get? k' :=
  SortedMap.lookup_insertEntry k k' v t.map.entries

/-- The values of a tally after one of them was put in are that one and values from before. -/
theorem eq_or_mem_of_mem_set {t : Tally κ β} {k : κ} {v : β} {e : κ × β}
    (h : e ∈ (t.set k v).entries) : e.2 = v ∨ ∃ e' ∈ t.entries, e.2 = e'.2 :=
  SortedMap.snd_mem_insertEntry h

variable [Mergeable β] {t u : Tally κ β} {k : κ} {delta : β} {entries : List (κ × β)}

/-- A merge into a key puts the merged value in. -/
theorem mergeInto_eq_ok_iff :
    t.mergeInto k delta = .ok u ↔ ∃ v, merge (t.get k) delta = .ok v ∧ t.set k v = u := by
  rw [mergeInto]
  cases merge (t.get k) delta <;> simp [Except.map]

section Keys

/-- What is merged into a tally is merged key by key. -/
theorem foldlM_deltasOf (h : t.mergeEntries entries = .ok u) (k : κ) :
    (deltasOf k entries).foldlM merge (t.get k) = .ok (u.get k) := by
  induction entries generalizing t with
  | nil =>
    obtain rfl := Except.ok.inj h
    rfl
  | cons e rest ih =>
    obtain ⟨k', delta⟩ := e
    obtain ⟨next, hmerge, hrest⟩ := exists_of_mergeEntries_cons h
    obtain ⟨v, hv, rfl⟩ := mergeInto_eq_ok_iff.1 hmerge
    have hlater := ih hrest
    by_cases hk : compare k k' = .eq
    · -- the key has the value of the one that it compares to
      have hsame : t.get k = t.get k' := by
        rw [get, get, get?, get?, SortedMap.get?, SortedMap.get?, SortedMap.lookup_congr hk]
      have hnow : (t.set k' v).get k = v := by rw [get, get?_set, if_pos hk, Option.getD_some]
      rw [deltasOf_cons_of_eq hk, List.foldlM_cons, hsame, hv]
      rw [hnow] at hlater
      exact hlater
    · have hsame : (t.set k' v).get k = t.get k := by rw [get, get?_set, if_neg hk, get]
      rw [deltasOf_cons_of_compare_ne hk]
      rw [hsame] at hlater
      exact hlater

/-- Merges bring in their keys, and no key goes away. -/
theorem contains_iff_of_mergeEntries (h : t.mergeEntries entries = .ok u) (k : κ) :
    u.contains k ↔ t.contains k ∨ ∃ e ∈ entries, compare k e.1 = .eq := by
  induction entries generalizing t with
  | nil =>
    obtain rfl := Except.ok.inj h
    simp
  | cons e rest ih =>
    obtain ⟨k', delta⟩ := e
    obtain ⟨next, hmerge, hrest⟩ := exists_of_mergeEntries_cons h
    obtain ⟨v, -, rfl⟩ := mergeInto_eq_ok_iff.1 hmerge
    have hset : (t.set k' v).contains k ↔ t.contains k ∨ compare k k' = .eq := by
      change ((t.set k' v).get? k).isSome ↔ (t.get? k).isSome ∨ _
      rw [get?_set]
      by_cases hk : compare k k' = .eq <;> simp [hk]
    rw [ih hrest, hset, or_assoc]
    simp only [List.mem_cons, exists_eq_or_imp]

/-- A row of merges into the empty tally, key by key. -/
theorem hasMerged_of_mergeEntries (h : empty.mergeEntries entries = .ok t) :
    t.HasMerged entries where
  contains_iff k := (contains_iff_of_mergeEntries h k).trans (or_iff_right Bool.false_ne_true)
  get_eq := foldlM_deltasOf h

end Keys

section Again

/-- Entries whose keys come after all keys of a tally are put behind its own. -/
theorem mergeEntries_eq_ok_iff_of_lt
    (hsorted : entries.Pairwise fun a b => compare a.1 b.1 = .lt)
    (hlt : ∀ e ∈ t.entries, ∀ e' ∈ entries, compare e.1 e'.1 = .lt) :
    t.mergeEntries entries = .ok u ↔ ∃ merged, u.entries = t.entries ++ merged ∧
      List.Forall₂ (fun e e' => e'.1 = e.1 ∧ merge neutral e.2 = .ok e'.2) entries merged := by
  induction entries generalizing t with
  | nil =>
    simp only [mergeEntries_nil, Except.ok.injEq, List.forall₂_nil_left_iff, exists_eq_right,
      List.append_nil]
    exact ⟨fun h => h ▸ rfl, fun h => (ext (SortedMap.ext h)).symm⟩
  | cons e rest ih =>
    obtain ⟨k, delta⟩ := e
    obtain ⟨hhead, hrest⟩ := List.pairwise_cons.1 hsorted
    have hbefore : ∀ e ∈ t.entries, compare e.1 k = .lt :=
      fun e he => hlt e he _ List.mem_cons_self
    -- the key is new, so that its value is merged into the neutral one
    have hget : t.get k = neutral := by
      have hnone : t.get? k = none := SortedMap.lookup_eq_none_of_lt hbefore
      rw [get, hnone]
      rfl
    have hset (v : β) : (t.set k v).entries = t.entries ++ [(k, v)] :=
      SortedMap.insertEntry_of_forall_lt hbefore v
    have hlater (v : β) := ih (t := t.set k v) hrest fun e he e' he' => by
      rw [hset, List.mem_append, List.mem_singleton] at he
      rcases he with he | rfl
      · exact hlt e he e' (List.mem_cons_of_mem _ he')
      · exact hhead e' he'
    constructor
    · intro h
      obtain ⟨next, hmerge, hnext⟩ := exists_of_mergeEntries_cons h
      obtain ⟨v, hv, rfl⟩ := mergeInto_eq_ok_iff.1 hmerge
      obtain ⟨merged, hentries, hmerged⟩ := (hlater v).1 hnext
      refine ⟨(k, v) :: merged, ?_, .cons ⟨rfl, hget ▸ hv⟩ hmerged⟩
      rw [hentries, hset, List.append_assoc, List.singleton_append]
    · rintro ⟨_, hentries, hmerged⟩
      cases hmerged with
      | @cons _ e' _ merged hfirst hmerged =>
        obtain ⟨k', v⟩ := e'
        obtain ⟨rfl, hv⟩ := hfirst
        rw [mergeEntries_cons_ok (mergeInto_eq_ok_iff.2 ⟨v, hget ▸ hv, rfl⟩)]
        refine (hlater v).2 ⟨merged, ?_, hmerged⟩
        rw [hentries, hset, List.append_assoc, List.singleton_append]

/-- What an empty tally makes of another one. -/
theorem mergeTally_empty_eq_ok_iff : empty.mergeTally t = .ok u ↔ t.MergedAgain u := by
  have h := mergeEntries_eq_ok_iff_of_lt (t := empty) (u := u) t.map.sorted nofun
  rw [mergeTally]
  refine h.trans ⟨?_, fun hagain => ⟨u.entries, rfl, hagain⟩⟩
  rintro ⟨merged, hentries, hmerged⟩
  obtain rfl : u.entries = merged := hentries
  exact hmerged

/-- Merges leave a tally with values that were merged. -/
theorem isMerged_of_mem (h : t.mergeEntries entries = .ok u) (ht : ∀ e ∈ t.entries, IsMerged e.2) :
    ∀ e ∈ u.entries, IsMerged e.2 := by
  induction entries generalizing t with
  | nil =>
    obtain rfl := Except.ok.inj h
    exact ht
  | cons e rest ih =>
    obtain ⟨next, hmerge, hrest⟩ := exists_of_mergeEntries_cons h
    obtain ⟨v, hv, rfl⟩ := mergeInto_eq_ok_iff.1 hmerge
    have hget : IsMerged (t.get e.1) := by
      cases hvalue : t.get? e.1 with
      | none =>
        rw [get, hvalue]
        exact isMerged_neutral
      | some old =>
        obtain ⟨e', he', rfl⟩ := SortedMap.exists_mem_of_lookup hvalue
        rw [get, hvalue]
        exact ht e' he'
    refine ih hrest fun e' he' => ?_
    rcases eq_or_mem_of_mem_set he' with hnew | ⟨old, hold, heq⟩
    · exact hnew ▸ hget.merge hv
    · exact heq ▸ ht old hold

/-- Where values settle, a tally that was merged from entries is not changed by being merged into
an empty one. -/
theorem mergedAgain_self (hsettles : Settles β) (h : empty.mergeEntries entries = .ok t) :
    t.MergedAgain t := by
  rw [MergedAgain, List.forall₂_same]
  intro e he
  exact ⟨rfl, hsettles _ (isMerged_of_mem h nofun e he)⟩

/-- Where values settle, a tally that was merged from entries is its own snapshot. -/
theorem snapshot_of_settles (hsettles : Settles β) (h : empty.mergeEntries entries = .ok t) :
    t.snapshot = .ok t :=
  mergeTally_empty_eq_ok_iff.2 (mergedAgain_self hsettles h)

end Again

end Tally

end BatchRun
