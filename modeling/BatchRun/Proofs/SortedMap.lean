import Mathlib.Data.List.Permutation
import BatchRun.SortedMap

/-!
# Look-up and change in sorted maps

What look-up says after an insertion or a removal, and how the entries change with it. Where keys
that compare as equal are equal, a map is known by what it says about each key.

## Main results

* `lookup_insertEntry`: look-up after an insertion, also where keys only compare as equal
* `get?_insert`, `get?_erase`: look-up after a change
* `get?_eq_some_iff`: look-up and the list of entries
* `entries_insert_perm`, `entries_erase_perm`: the entries after a change
* `eq_of_get?_eq`: maps that say the same about every key are equal
* `ofList_entries`: a map is the map of its entries
-/

namespace BatchRun.SortedMap

open Std

variable {κ β : Type} [Ord κ]

@[simp] theorem get?_empty (k : κ) : (empty : SortedMap κ β).get? k = none := rfl

@[simp] theorem entries_empty : (empty : SortedMap κ β).entries = [] := rfl

@[simp] theorem size_empty : (empty : SortedMap κ β).size = 0 := rfl

@[simp] theorem length_values (m : SortedMap κ β) : m.values.length = m.size := List.length_map _

theorem isEmpty_iff {m : SortedMap κ β} : m.isEmpty = true ↔ m.entries = [] := by
  simp [isEmpty]

theorem isEmpty_iff_size {m : SortedMap κ β} : m.isEmpty = true ↔ m.size = 0 := by
  simp [isEmpty, size]

theorem ne_of_compare_lt [ReflOrd κ] {k k' : κ} (h : compare k k' = .lt) : k ≠ k' := by
  rintro rfl
  rw [ReflOrd.compare_self] at h
  cases h

theorem nodup_keys [ReflOrd κ] (m : SortedMap κ β) : m.keys.Nodup :=
  List.pairwise_map.2 (m.sorted.imp ne_of_compare_lt)

theorem filter_ne_of_forall {k : κ} {l : List (κ × β)} (h : ∀ e ∈ l, compare k e.1 ≠ .eq) :
    l.filter (fun e => compare k e.1 != .eq) = l :=
  List.filter_eq_self.2 fun e he => by simpa using h e he

theorem insertEntry_perm {k : κ} {v : β} {l : List (κ × β)} (h : ∀ e ∈ l, compare k e.1 ≠ .eq) :
    (insertEntry k v l).Perm ((k, v) :: l) := by
  induction l with
  | nil => exact List.Perm.refl _
  | cons e rest ih =>
    obtain ⟨k', v'⟩ := e
    simp only [insertEntry]
    split
    · exact List.Perm.refl _
    · next heq => exact absurd heq (h _ List.mem_cons_self)
    · exact ((ih fun e he => h e (List.mem_cons_of_mem _ he)).cons _).trans (List.Perm.swap _ _ _)

/-- Changing every value changes the one that is looked up. -/
theorem lookup_map {γ : Type} (f : β → γ) (k : κ) (l : List (κ × β)) :
    lookup k (l.map fun e => (e.1, f e.2)) = (lookup k l).map f := by
  induction l with
  | nil => rfl
  | cons e rest ih =>
    simp only [List.map_cons, lookup]
    split
    · rfl
    · exact ih

theorem get?_mapValues {γ : Type} (f : β → γ) (m : SortedMap κ β) (k : κ) :
    (m.mapValues f).get? k = (m.get? k).map f :=
  lookup_map f k m.entries

/-- Changing every value changes the one that is inserted. -/
theorem insertEntry_map {γ : Type} (f : β → γ) (k : κ) (v : β) (l : List (κ × β)) :
    insertEntry k (f v) (l.map fun e => (e.1, f e.2)) =
      (insertEntry k v l).map fun e => (e.1, f e.2) := by
  induction l with
  | nil => rfl
  | cons e rest ih =>
    simp only [List.map_cons, insertEntry]
    split
    · rfl
    · rfl
    · rw [ih, List.map_cons]

theorem exists_mem_of_lookup {k : κ} {v : β} {l : List (κ × β)} (h : lookup k l = some v) :
    ∃ e ∈ l, e.2 = v := by
  induction l with
  | nil => cases h
  | cons e rest ih =>
    rw [lookup] at h
    split at h
    · exact ⟨e, List.mem_cons_self, Option.some.inj h⟩
    · obtain ⟨e', he', hv⟩ := ih h
      exact ⟨e', List.mem_cons_of_mem _ he', hv⟩

/-- The values after an insertion are the one inserted and values from before. -/
theorem snd_mem_insertEntry {k : κ} {v : β} {e : κ × β} {l : List (κ × β)}
    (h : e ∈ insertEntry k v l) : e.2 = v ∨ ∃ e' ∈ l, e.2 = e'.2 := by
  induction l with
  | nil =>
    obtain rfl := List.mem_singleton.1 h
    exact .inl rfl
  | cons e' rest ih =>
    obtain ⟨k', v'⟩ := e'
    simp only [insertEntry] at h
    split at h
    · rcases List.mem_cons.1 h with rfl | h
      · exact .inl rfl
      · exact .inr ⟨e, h, rfl⟩
    · rcases List.mem_cons.1 h with rfl | h
      · exact .inl rfl
      · exact .inr ⟨e, List.mem_cons_of_mem _ h, rfl⟩
    · rcases List.mem_cons.1 h with rfl | h
      · exact .inr ⟨_, List.mem_cons_self, rfl⟩
      · rcases ih h with heq | ⟨old, hold, heq⟩
        · exact .inl heq
        · exact .inr ⟨old, List.mem_cons_of_mem _ hold, heq⟩

section Compared

variable [TransOrd κ]

/-- Keys that compare as equal have the same value. -/
theorem lookup_congr {k k' : κ} (h : compare k k' = .eq) (l : List (κ × β)) :
    lookup k l = lookup k' l := by
  induction l with
  | nil => rfl
  | cons e rest ih => rw [lookup, lookup, ih, TransCmp.congr_left h]

/-- A key that comes after all others has no value. -/
theorem lookup_eq_none_of_lt {k : κ} {l : List (κ × β)} (h : ∀ e ∈ l, compare e.1 k = .lt) :
    lookup k l = none := by
  induction l with
  | nil => rfl
  | cons e rest ih =>
    obtain ⟨hhead, hrest⟩ := List.forall_mem_cons.1 h
    rw [lookup, OrientedCmp.gt_of_lt hhead, if_neg (by decide), ih hrest]

theorem lookup_insertEntry (k k' : κ) (v : β) (l : List (κ × β)) :
    lookup k' (insertEntry k v l) = if compare k' k = .eq then some v else lookup k' l := by
  induction l with
  | nil => rfl
  | cons e rest ih =>
    obtain ⟨k'', v''⟩ := e
    simp only [insertEntry]
    split
    · rfl
    · next heq =>
      rw [lookup, lookup, TransCmp.congr_right heq]
      split <;> rfl
    · next hgt =>
      rw [lookup, lookup, ih]
      by_cases hk : compare k' k'' = .eq
      · -- the key that is put in comes behind, and compares to another one
        have hne : compare k' k ≠ .eq := fun heq => by
          rw [← TransCmp.congr_left heq, hk] at hgt
          cases hgt
        rw [if_pos hk, if_neg hne, if_pos hk]
      · rw [if_neg hk, if_neg hk]

end Compared

section Lookup

variable [LawfulEqOrd κ]

theorem lookup_cons_self (k : κ) (v : β) (rest : List (κ × β)) :
    lookup k ((k, v) :: rest) = some v := by
  simp [lookup]

theorem lookup_cons_of_ne {k k' : κ} (h : k ≠ k') (v : β) (rest : List (κ × β)) :
    lookup k ((k', v) :: rest) = lookup k rest := by
  simp [lookup, h]

theorem mem_of_lookup {k : κ} {v : β} {l : List (κ × β)} (h : lookup k l = some v) :
    (k, v) ∈ l := by
  induction l with
  | nil => simp [lookup] at h
  | cons e rest ih =>
    obtain ⟨k', v'⟩ := e
    by_cases hk : k = k'
    · subst hk
      rw [lookup_cons_self] at h
      obtain rfl := Option.some.inj h
      exact List.mem_cons_self
    · rw [lookup_cons_of_ne hk] at h
      exact List.mem_cons_of_mem _ (ih h)

/-- What is found when each value is changed by its key. -/
theorem lookup_mapEntries {γ : Type} (f : κ → β → γ) (k : κ) (l : List (κ × β)) :
    lookup k (l.map fun e => (e.1, f e.1 e.2)) = (lookup k l).map (f k) := by
  induction l with
  | nil => rfl
  | cons e rest ih =>
    obtain ⟨k', v⟩ := e
    rw [List.map_cons]
    by_cases hk : k = k'
    · rw [hk, lookup_cons_self, lookup_cons_self, Option.map_some]
    · rw [lookup_cons_of_ne hk, lookup_cons_of_ne hk, ih]

theorem lookup_of_mem {k : κ} {v : β} {l : List (κ × β)}
    (hsorted : l.Pairwise fun a b => compare a.1 b.1 = .lt) (h : (k, v) ∈ l) :
    lookup k l = some v := by
  induction l with
  | nil => cases h
  | cons e rest ih =>
    obtain ⟨hhead, htail⟩ := List.pairwise_cons.1 hsorted
    rcases List.mem_cons.1 h with rfl | h
    · exact lookup_cons_self _ _ _
    · rw [lookup_cons_of_ne (ne_of_compare_lt (hhead _ h)).symm]
      exact ih htail h

theorem get?_eq_some_iff {m : SortedMap κ β} {k : κ} {v : β} :
    m.get? k = some v ↔ (k, v) ∈ m.entries :=
  ⟨mem_of_lookup, lookup_of_mem m.sorted⟩

theorem get?_eq_none_iff {m : SortedMap κ β} {k : κ} :
    m.get? k = none ↔ ∀ v, (k, v) ∉ m.entries := by
  rw [Option.eq_none_iff_forall_ne_some]
  exact forall_congr' fun v => not_congr get?_eq_some_iff

/-- An entry that is there after an insertion is the one inserted or was there before. -/
theorem eq_or_mem_of_mem_insertEntry {k : κ} {v : β} {e : κ × β} {l : List (κ × β)}
    (h : e ∈ insertEntry k v l) : e = (k, v) ∨ e ∈ l := by
  induction l with
  | nil => exact .inl (List.mem_singleton.1 h)
  | cons e' rest ih =>
    obtain ⟨k', v'⟩ := e'
    simp only [insertEntry] at h
    split at h
    · exact List.mem_cons.1 h
    · next heq =>
      obtain rfl := Std.compare_eq_iff_eq.1 heq
      exact (List.mem_cons.1 h).imp_right (List.mem_cons_of_mem _)
    · rcases List.mem_cons.1 h with rfl | h
      · exact .inr List.mem_cons_self
      · exact (ih h).imp_right (List.mem_cons_of_mem _)

theorem get?_erase_self (m : SortedMap κ β) (k : κ) : (m.erase k).get? k = none := by
  rw [get?_eq_none_iff]
  intro v h
  simp [erase] at h

theorem get?_erase_of_ne (m : SortedMap κ β) {k k' : κ} (h : k' ≠ k) :
    (m.erase k).get? k' = m.get? k' := by
  ext v
  simp only [get?_eq_some_iff, erase, List.mem_filter, and_iff_left_iff_imp]
  intro _
  simpa using h.symm

/-- The entry of a key that is there, and the others. -/
theorem entries_erase_perm {m : SortedMap κ β} {k : κ} {v : β} (h : m.get? k = some v) :
    m.entries.Perm ((k, v) :: (m.erase k).entries) := by
  obtain ⟨before, after, hentries⟩ := List.append_of_mem (get?_eq_some_iff.1 h)
  have hsorted := m.sorted
  rw [hentries, List.pairwise_append, List.pairwise_cons] at hsorted
  obtain ⟨-, ⟨hafter, -⟩, hbefore⟩ := hsorted
  -- keys increase, so that only one entry has the key
  have hkeep : (m.erase k).entries = before ++ after := by
    change m.entries.filter _ = _
    rw [hentries, List.filter_append, List.filter_cons_of_neg (by simp)]
    congr 1
    · apply filter_ne_of_forall
      intro e he
      rw [ne_eq, Std.compare_eq_iff_eq]
      exact (ne_of_compare_lt (hbefore e he _ List.mem_cons_self)).symm
    · apply filter_ne_of_forall
      intro e he
      rw [ne_eq, Std.compare_eq_iff_eq]
      exact ne_of_compare_lt (hafter e he)
  rw [hkeep, hentries]
  exact List.perm_middle

theorem size_erase {m : SortedMap κ β} {k : κ} {v : β} (h : m.get? k = some v) :
    m.size = (m.erase k).size + 1 :=
  (entries_erase_perm h).length_eq

end Lookup

section Change

variable [TransOrd κ] [LawfulEqOrd κ]

theorem lookup_insertEntry_self (k : κ) (v : β) (l : List (κ × β)) :
    lookup k (insertEntry k v l) = some v := by
  rw [lookup_insertEntry, if_pos ReflOrd.compare_self]

theorem lookup_insertEntry_of_ne {k k' : κ} (h : k' ≠ k) (v : β) (l : List (κ × β)) :
    lookup k' (insertEntry k v l) = lookup k' l := by
  rw [lookup_insertEntry, if_neg (mt Std.compare_eq_iff_eq.1 h)]

omit [LawfulEqOrd κ] in
/-- A key that is greater than all others comes last. -/
theorem insertEntry_of_forall_lt {k : κ} {l : List (κ × β)} (h : ∀ e ∈ l, compare e.1 k = .lt)
    (v : β) : insertEntry k v l = l ++ [(k, v)] := by
  induction l with
  | nil => rfl
  | cons e rest ih =>
    obtain ⟨hhead, hrest⟩ := List.forall_mem_cons.1 h
    rw [insertEntry, OrientedCmp.gt_of_lt hhead, ih hrest]
    rfl

@[simp] theorem get?_insert_self (m : SortedMap κ β) (k : κ) (v : β) :
    (m.insert k v).get? k = some v :=
  lookup_insertEntry_self k v m.entries

theorem get?_insert_of_ne (m : SortedMap κ β) {k k' : κ} (h : k' ≠ k) (v : β) :
    (m.insert k v).get? k' = m.get? k' :=
  lookup_insertEntry_of_ne h v m.entries

/-- A new key adds its entry to the others. -/
theorem entries_insert_perm {m : SortedMap κ β} {k : κ} (h : m.get? k = none) (v : β) :
    (m.insert k v).entries.Perm ((k, v) :: m.entries) := by
  apply insertEntry_perm
  intro e he heq
  obtain rfl := Std.compare_eq_iff_eq.1 heq
  exact get?_eq_none_iff.1 h e.2 he

theorem size_insert {m : SortedMap κ β} {k : κ} (h : m.get? k = none) (v : β) :
    (m.insert k v).size = m.size + 1 :=
  (entries_insert_perm h v).length_eq

omit [LawfulEqOrd κ] in
/-- Maps with the same entries in any order are equal. -/
theorem eq_of_perm {m n : SortedMap κ β} (h : m.entries.Perm n.entries) : m = n := by
  refine ext (h.eq_of_pairwise ?_ m.sorted n.sorted)
  intro a b _ _ hab hba
  rw [OrientedCmp.gt_of_lt hab] at hba
  cases hba

/-- Maps that say the same about every key have the same entries. -/
theorem eq_of_get?_eq {m n : SortedMap κ β} (h : ∀ k, m.get? k = n.get? k) : m = n := by
  -- both have the same entries, and increasing keys leave only one order for them
  have hmem : ∀ e, e ∈ m.entries ↔ e ∈ n.entries := by
    rintro ⟨k, v⟩
    rw [← get?_eq_some_iff, ← get?_eq_some_iff, h k]
  have hnodup : ∀ l : SortedMap κ β, l.entries.Nodup := fun l =>
    l.sorted.imp fun hlt heq => ne_of_compare_lt hlt (congrArg Prod.fst heq)
  exact eq_of_perm ((List.perm_ext_iff_of_nodup (hnodup m) (hnodup n)).2 hmem)

/-- A map of entries with different keys has these entries. -/
theorem entries_ofList_perm {l : List (κ × β)} (h : (l.map Prod.fst).Nodup) :
    (ofList l).entries.Perm l := by
  -- the fold starts with any map whose keys are none of those to come
  suffices hgeneral : ∀ m : SortedMap κ β, (m.keys ++ l.map Prod.fst).Nodup →
      (l.foldl (fun m e => m.insert e.1 e.2) m).entries.Perm (m.entries ++ l) from
    hgeneral empty h
  clear h
  induction l with
  | nil => simp
  | cons e rest ih =>
    intro m hnodup
    have hnew : m.get? e.1 = none := by
      refine get?_eq_none_iff.2 fun v hv => ?_
      exact (List.nodup_append.1 hnodup).2.2 e.1
        (List.mem_map.2 ⟨_, hv, rfl⟩) e.1 (by simp) rfl
    have hperm := entries_insert_perm hnew e.2
    have hkeys : ((m.insert e.1 e.2).keys ++ rest.map Prod.fst).Perm
        (m.keys ++ (e :: rest).map Prod.fst) := by
      apply ((hperm.map Prod.fst).append_right _).trans
      exact List.perm_middle.symm
    apply (ih (m.insert e.1 e.2) (hkeys.nodup_iff.2 hnodup)).trans
    exact (hperm.append_right rest).trans List.perm_middle.symm

/-- A map is the map of its entries. -/
theorem ofList_entries (m : SortedMap κ β) : ofList m.entries = m :=
  eq_of_perm (entries_ofList_perm m.nodup_keys)

end Change

end BatchRun.SortedMap
