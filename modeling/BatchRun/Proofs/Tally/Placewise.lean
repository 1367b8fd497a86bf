import Mathlib.Data.Set.Lattice
import Mathlib.Order.CompleteLattice.Lemmas
import Mathlib.Order.CompletePartialOrder
import Mathlib.Order.ConditionallyCompleteLattice.Basic
import Mathlib.Order.Lattice.Nat
import Mathlib.Order.Nat
import BatchRun.Proofs.Tally.Exact
import BatchRun.Proofs.Tally.Gathered

/-!
# Merging place by place

Lists, vectors and tallies are merged place by place: what the merge has at a place is the merge
of what the two values have there, a missing item counting as neutral, and it has the places of
both. That says all of the merge, also when it faults: it does not if no place does.

So a law of merging that holds of the items holds of what is built from them. Pairs have two
kinds of items and are treated on their own.

## Main definitions

* `Mergeable.Lawful`: the neutral value is neutral, and merges that finish agree in any order
* `Mergeable.Unordered`: whether merges finish does not depend on the order either
* `Mergeable.Placewise`: values that are merged place by place

## Main results

* `Mergeable.mergeLists_eq_ok_iff`: a merge of lists item by item
* `Tally.mergeEntries_eq_ok_iff`: merges into different keys, in any order
* `Placewise.lawful`, `Placewise.unordered`: the laws pass from items to what is built from them
-/

namespace BatchRun

namespace Mergeable

/-- The laws of merging. -/
class Lawful (α : Type) [Mergeable α] : Prop where
  neutral_merge (a : α) : merge neutral a = .ok a
  merge_neutral (a : α) : merge a neutral = .ok a
  merge_comm {a b c : α} (h : merge a b = .ok c) : merge b a = .ok c
  merge_assoc {a b c ab bc left right : α} (hab : merge a b = .ok ab)
    (hleft : merge ab c = .ok left) (hbc : merge b c = .ok bc) (hright : merge a bc = .ok right) :
    left = right

/-- Two values can be merged into a third in either order. -/
class Unordered (α : Type) [Mergeable α] : Prop where
  merge_swap {a b c ab abc : α} (hfirst : merge a b = .ok ab) (hsecond : merge ab c = .ok abc) :
    ∃ ac, merge a c = .ok ac ∧ merge ac b = .ok abc

theorem settles_of_lawful {α : Type} [Mergeable α] [Lawful α] : Settles α :=
  fun a _ => Lawful.neutral_merge a

section Numbers

variable {bits : Nat}

theorem merge_numbers_comm {least greatest : Int} {a b c : Ranged least greatest}
    (h : a.add b = .ok c) : b.add a = .ok c := by
  rw [add_eq_ok_iff] at h ⊢
  rw [h, Int.add_comm]

theorem merge_numbers_assoc {least greatest : Int} {a b c ab bc left right : Ranged least greatest}
    (hab : a.add b = .ok ab) (hleft : ab.add c = .ok left) (hbc : b.add c = .ok bc)
    (hright : a.add bc = .ok right) : left = right := by
  rw [add_eq_ok_iff] at hab hleft hbc hright
  apply val_injective
  omega

instance : Lawful (Signed bits) where
  neutral_merge := zero_add_eq rfl
  merge_neutral a := merge_numbers_comm (zero_add_eq rfl a)
  merge_comm := merge_numbers_comm
  merge_assoc := merge_numbers_assoc

instance : Lawful (Unsigned bits) where
  neutral_merge := zero_add_eq rfl
  merge_neutral a := merge_numbers_comm (zero_add_eq rfl a)
  merge_comm := merge_numbers_comm
  merge_assoc := merge_numbers_assoc

instance : Unordered (Unsigned bits) where
  merge_swap := by
    intro a b c ab abc hfirst hsecond
    change a.add b = _ at hfirst
    change ab.add c = _ at hsecond
    rw [add_eq_ok_iff] at hfirst hsecond
    -- without `b` the sum is smaller, and no sum is below zero
    have hle : a.val + c.val ≤ Int.pow 2 bits - 1 := by
      have hb := b.least_le
      have habc := abc.le_greatest
      omega
    have hge : 0 ≤ a.val + c.val := Int.add_nonneg a.least_le c.least_le
    refine ⟨⟨a.val + c.val, hge, hle⟩, add_eq_ok_iff.2 rfl, add_eq_ok_iff.2 ?_⟩
    change abc.val = a.val + c.val + b.val
    omega

end Numbers

section Pairs

variable {α β : Type} [Mergeable α] [Mergeable β]

theorem merge_pair_eq_ok_iff {a b c : α × β} :
    merge a b = .ok c ↔ merge a.1 b.1 = .ok c.1 ∧ merge a.2 b.2 = .ok c.2 := by
  obtain ⟨x, y⟩ := c
  simp only [merge]
  split <;> simp_all

instance [Lawful α] [Lawful β] : Lawful (α × β) where
  neutral_merge a :=
    merge_pair_eq_ok_iff.2 ⟨Lawful.neutral_merge a.1, Lawful.neutral_merge a.2⟩
  merge_neutral a :=
    merge_pair_eq_ok_iff.2 ⟨Lawful.merge_neutral a.1, Lawful.merge_neutral a.2⟩
  merge_comm h := by
    obtain ⟨hfst, hsnd⟩ := merge_pair_eq_ok_iff.1 h
    exact merge_pair_eq_ok_iff.2 ⟨Lawful.merge_comm hfst, Lawful.merge_comm hsnd⟩
  merge_assoc hab hleft hbc hright := by
    rw [merge_pair_eq_ok_iff] at hab hleft hbc hright
    exact Prod.ext (Lawful.merge_assoc hab.1 hleft.1 hbc.1 hright.1)
      (Lawful.merge_assoc hab.2 hleft.2 hbc.2 hright.2)

instance [Unordered α] [Unordered β] : Unordered (α × β) where
  merge_swap hfirst hsecond := by
    rw [merge_pair_eq_ok_iff] at hfirst hsecond
    obtain ⟨x, hx, hx'⟩ := Unordered.merge_swap hfirst.1 hsecond.1
    obtain ⟨y, hy, hy'⟩ := Unordered.merge_swap hfirst.2 hsecond.2
    exact ⟨(x, y), merge_pair_eq_ok_iff.2 ⟨hx, hy⟩, merge_pair_eq_ok_iff.2 ⟨hx', hy'⟩⟩

end Pairs

/-- Values that are merged place by place. Their extent says which places they have. -/
structure Placewise (γ S ι α : Type) [Mergeable γ] [Mergeable α] [SemilatticeSup S]
    [OrderBot S] where
  extent : γ → S
  item : γ → ι → α
  eq_of_items {x y : γ} : extent x = extent y → (∀ i, item x i = item y i) → x = y
  extent_neutral : extent neutral = ⊥
  item_neutral (i : ι) : item neutral i = neutral
  merge_eq_ok_iff {x y z : γ} : merge x y = .ok z ↔
    extent z = extent x ⊔ extent y ∧ ∀ i, merge (item x i) (item y i) = .ok (item z i)
  exists_merge {x y : γ} : (∀ i, ∃ c, merge (item x i) (item y i) = .ok c) → ∃ z, merge x y = .ok z

namespace Placewise

variable {γ S ι α : Type} [Mergeable γ] [Mergeable α] [SemilatticeSup S] [OrderBot S]

theorem lawful [Lawful α] (p : Placewise γ S ι α) : Lawful γ where
  neutral_merge a := by
    apply p.merge_eq_ok_iff.2
    refine ⟨by rw [p.extent_neutral, bot_sup_eq], ?_⟩
    intro i
    rw [p.item_neutral, Lawful.neutral_merge]
  merge_neutral a := by
    apply p.merge_eq_ok_iff.2
    refine ⟨by rw [p.extent_neutral, sup_bot_eq], ?_⟩
    intro i
    rw [p.item_neutral, Lawful.merge_neutral]
  merge_comm h := by
    obtain ⟨hextent, hitems⟩ := p.merge_eq_ok_iff.1 h
    apply p.merge_eq_ok_iff.2
    exact ⟨by rw [hextent, sup_comm], fun i => Lawful.merge_comm (hitems i)⟩
  merge_assoc hab hleft hbc hright := by
    rw [p.merge_eq_ok_iff] at hab hleft hbc hright
    apply p.eq_of_items
    · rw [hleft.1, hab.1, hright.1, hbc.1, sup_assoc]
    · intro i
      exact Lawful.merge_assoc (hab.2 i) (hleft.2 i) (hbc.2 i) (hright.2 i)

theorem unordered [Unordered α] (p : Placewise γ S ι α) : Unordered γ where
  merge_swap {a b c ab abc} hfirst hsecond := by
    rw [p.merge_eq_ok_iff] at hfirst hsecond
    have hswap i := Unordered.merge_swap (hfirst.2 i) (hsecond.2 i)
    obtain ⟨ac, hac⟩ := p.exists_merge fun i => (hswap i).imp fun _ h => h.1
    have hplaces := p.merge_eq_ok_iff.1 hac
    refine ⟨ac, hac, p.merge_eq_ok_iff.2 ⟨?_, ?_⟩⟩
    · rw [hsecond.1, hfirst.1, hplaces.1, sup_right_comm]
    · intro i
      obtain ⟨c, hc, hrest⟩ := hswap i
      obtain rfl := Except.ok.inj (hc.symm.trans (hplaces.2 i))
      exact hrest

end Placewise

section Lists

variable {α : Type} [Mergeable α]

/-- The item at a place of a list, neutral behind its end. -/
def itemAt (as : List α) (i : Nat) : α := as.getD i neutral

@[simp] theorem itemAt_nil (i : Nat) : itemAt ([] : List α) i = neutral := rfl

@[simp] theorem itemAt_cons_zero (a : α) (as : List α) : itemAt (a :: as) 0 = a := rfl

@[simp] theorem itemAt_cons_succ (a : α) (as : List α) (i : Nat) :
    itemAt (a :: as) (i + 1) = itemAt as i := rfl

theorem forall_itemAt_iff {P : Nat → Prop} : (∀ i, P i) ↔ P 0 ∧ ∀ i, P (i + 1) :=
  ⟨fun h => ⟨h 0, fun i => h (i + 1)⟩, fun h i => i.casesOn h.1 h.2⟩

/-- Lists of one length with the same items are equal. -/
theorem eq_of_itemAt {as bs : List α} (hlength : as.length = bs.length)
    (hitems : ∀ i, itemAt as i = itemAt bs i) : as = bs := by
  apply List.ext_getElem hlength
  intro i hi hi'
  have hitem := hitems i
  simpa only [itemAt, List.getD_eq_getElem?_getD, List.getElem?_eq_getElem, hi, hi',
    Option.getD_some] using hitem

/-- Lists go on with the merge of their first items. -/
theorem mergeLists_cons_eq_ok_iff {a b : α} {as bs cs : List α} :
    mergeLists (a :: as) (b :: bs) = .ok cs ↔
      ∃ c rest, merge a b = .ok c ∧ mergeLists as bs = .ok rest ∧ c :: rest = cs := by
  cases hitem : merge a b <;> cases hrest : mergeLists as bs <;> simp [mergeLists, hitem, hrest]

/-- A list that is at its end goes on with a neutral item. -/
theorem mergeLists_nil_cons_eq_ok_iff {b : α} {bs cs : List α} :
    mergeLists [] (b :: bs) = .ok cs ↔
      ∃ c rest, merge neutral b = .ok c ∧ mergeLists [] bs = .ok rest ∧ c :: rest = cs := by
  cases hitem : merge neutral b <;> cases hrest : mergeLists [] bs <;>
    simp [mergeLists, hitem, hrest]

variable [Lawful α]

/-- A merge of lists is as long as the longer one, and has the merge of the items at each place,
where a missing one is neutral. -/
theorem mergeLists_eq_ok_iff {as bs cs : List α} : mergeLists as bs = .ok cs ↔
    cs.length = max as.length bs.length ∧
      ∀ i, merge (itemAt as i) (itemAt bs i) = .ok (itemAt cs i) := by
  induction bs generalizing as cs with
  | nil =>
    simp only [mergeLists, itemAt_nil, Lawful.merge_neutral, Except.ok.injEq, List.length_nil,
      Nat.max_zero]
    exact ⟨fun h => by simp [h], fun h => eq_of_itemAt h.1.symm h.2⟩
  | cons b bs ih =>
    cases as with
    | nil =>
      rw [mergeLists_nil_cons_eq_ok_iff]
      cases cs with
      | nil => simp
      | cons c cs =>
        rw [forall_itemAt_iff]
        simp [ih, and_left_comm]
    | cons a as =>
      rw [mergeLists_cons_eq_ok_iff]
      cases cs with
      | nil => simp
      | cons c cs =>
        rw [forall_itemAt_iff]
        simp [ih, and_left_comm]

omit [Lawful α] in
/-- Lists are merged without a fault if the items at each place are. -/
theorem exists_mergeLists {as bs : List α}
    (h : ∀ i, ∃ c, merge (itemAt as i) (itemAt bs i) = .ok c) :
    ∃ cs, mergeLists as bs = .ok cs := by
  induction bs generalizing as with
  | nil => exact ⟨as, by simp only [mergeLists]⟩
  | cons b bs ih =>
    obtain ⟨⟨c, hc⟩, hrest⟩ := forall_itemAt_iff.1 h
    cases as with
    | nil =>
      obtain ⟨cs, hcs⟩ := @ih [] hrest
      exact ⟨c :: cs, mergeLists_nil_cons_eq_ok_iff.2 ⟨c, cs, hc, hcs, rfl⟩⟩
    | cons a as =>
      obtain ⟨cs, hcs⟩ := ih hrest
      exact ⟨c :: cs, mergeLists_cons_eq_ok_iff.2 ⟨c, cs, hc, hcs, rfl⟩⟩

/-- Lists are merged place by place. -/
def listPlaces : Placewise (List α) Nat Nat α where
  extent := List.length
  item := itemAt
  eq_of_items := eq_of_itemAt
  extent_neutral := rfl
  item_neutral _ := rfl
  merge_eq_ok_iff := mergeLists_eq_ok_iff
  exists_merge := exists_mergeLists

instance : Lawful (List α) := listPlaces.lawful

instance [Unordered α] : Unordered (List α) := listPlaces.unordered

end Lists

section Vectors

variable {α : Type} [Mergeable α] {n : Nat}

theorem merge_vectors_eq_ok_iff {as bs cs : Vector α n} :
    merge as bs = .ok cs ↔ ∀ i : Fin n, merge (as.get i) (bs.get i) = .ok (cs.get i) := by
  simp only [merge, vector_mapM_eq_ok_iff, Fin.getElem_fin, Vector.getElem_zip]
  exact Iff.rfl

/-- Vectors are merged place by place. -/
def vectorPlaces : Placewise (Vector α n) PUnit (Fin n) α where
  extent _ := ⊥
  item := Vector.get
  eq_of_items _ h := Vector.ext fun i hi => h ⟨i, hi⟩
  extent_neutral := rfl
  item_neutral i := Vector.getElem_replicate i.2
  merge_eq_ok_iff := by simp [merge_vectors_eq_ok_iff]
  exists_merge h := by
    choose c hc using h
    refine ⟨Vector.ofFn c, merge_vectors_eq_ok_iff.2 fun i => ?_⟩
    rw [hc i]
    exact congrArg _ (Vector.getElem_ofFn i.2).symm

instance [Lawful α] : Lawful (Vector α n) := vectorPlaces.lawful

instance [Unordered α] : Unordered (Vector α n) := vectorPlaces.unordered

end Vectors

end Mergeable

namespace Tally

open Mergeable Std

variable {κ β : Type} [Ord κ] [TransOrd κ] [LawfulEqOrd κ] [Mergeable β]

omit [TransOrd κ] [LawfulEqOrd κ] [Mergeable β] in
theorem contains_eq (t : Tally κ β) (k : κ) : t.contains k = (t.get? k).isSome := rfl

omit [TransOrd κ] [LawfulEqOrd κ] [Mergeable β] in
theorem contains_iff {t : Tally κ β} {k : κ} : t.contains k ↔ ∃ v, t.get? k = some v :=
  Option.isSome_iff_exists

omit [TransOrd κ] [LawfulEqOrd κ] in
theorem get_of_get? {t : Tally κ β} {k : κ} {v : β} (h : t.get? k = some v) : t.get k = v := by
  rw [get, h, Option.getD_some]

theorem get_set_of_ne (t : Tally κ β) {k k' : κ} (h : k' ≠ k) (v : β) :
    (t.set k v).get k' = t.get k' := by
  rw [get, get?_set_of_ne t h, get]

/-- Values that come to different keys are each merged into what the tally has there, and the
other keys stay as they are. Nothing in that depends on the order of the values. -/
theorem mergeEntries_eq_ok_iff {t u : Tally κ β} {entries : List (κ × β)}
    (hnodup : (entries.map Prod.fst).Nodup) : t.mergeEntries entries = .ok u ↔
      (∀ e ∈ entries, ∃ v, merge (t.get e.1) e.2 = .ok v ∧ u.get? e.1 = some v) ∧
        ∀ k ∉ entries.map Prod.fst, u.get? k = t.get? k := by
  induction entries generalizing t with
  | nil =>
    simp only [mergeEntries_nil, Except.ok.injEq, List.map_nil, List.not_mem_nil,
      not_false_eq_true, forall_const, false_imp_iff, implies_true, true_and]
    exact ⟨fun h => by simp [h], fun h => (ext (SortedMap.eq_of_get?_eq h)).symm⟩
  | cons e rest ih =>
    obtain ⟨k, delta⟩ := e
    obtain ⟨hk, hrest⟩ := List.nodup_cons.1 hnodup
    -- the keys to come are not the one that was just changed
    have hne : ∀ e ∈ rest, e.1 ≠ k := fun e he heq =>
      hk (heq ▸ List.mem_map_of_mem he : k ∈ rest.map Prod.fst)
    constructor
    · intro h
      obtain ⟨t', hmerge, hrow⟩ := exists_of_mergeEntries_cons h
      obtain ⟨v, hv, rfl⟩ := mergeInto_eq_ok_iff.1 hmerge
      obtain ⟨hvalues, hothers⟩ := (ih hrest).1 hrow
      refine ⟨List.forall_mem_cons.2 ⟨⟨v, hv, ?_⟩, ?_⟩, ?_⟩
      · rw [hothers k hk, get?_set_self]
      · intro e he
        rw [← get_set_of_ne t (hne e he) v]
        exact hvalues e he
      · intro k' hk'
        obtain ⟨hkk', hk'⟩ := List.ne_and_not_mem_of_not_mem_cons hk'
        rw [hothers k' hk', get?_set_of_ne t hkk']
    · rintro ⟨hvalues, hothers⟩
      obtain ⟨⟨v, hv, huv⟩, hvalues⟩ := List.forall_mem_cons.1 hvalues
      rw [mergeEntries_cons_ok (mergeInto_eq_ok_iff.2 ⟨v, hv, rfl⟩), ih hrest]
      refine ⟨?_, ?_⟩
      · intro e he
        rw [get_set_of_ne t (hne e he) v]
        exact hvalues e he
      · intro k' hk'
        by_cases hkk' : k' = k
        · rw [hkk', huv, get?_set_self]
        · rw [get?_set_of_ne t hkk']
          exact hothers k' (List.not_mem_cons_of_ne_of_not_mem hkk' hk')

/-- Values are merged into different keys without a fault if each of them is. -/
theorem exists_mergeEntries_of_forall {t : Tally κ β} {entries : List (κ × β)}
    (hnodup : (entries.map Prod.fst).Nodup)
    (h : ∀ e ∈ entries, ∃ v, merge (t.get e.1) e.2 = .ok v) :
    ∃ u, t.mergeEntries entries = .ok u := by
  induction entries generalizing t with
  | nil => exact ⟨t, rfl⟩
  | cons e rest ih =>
    obtain ⟨k, delta⟩ := e
    obtain ⟨hk, hrest⟩ := List.nodup_cons.1 hnodup
    obtain ⟨⟨v, hv⟩, h⟩ := List.forall_mem_cons.1 h
    rw [mergeEntries_cons_ok (mergeInto_eq_ok_iff.2 ⟨v, hv, rfl⟩)]
    apply ih hrest
    intro e he
    have hne : e.1 ≠ k := fun heq => hk (heq ▸ List.mem_map_of_mem he : k ∈ rest.map Prod.fst)
    rw [get_set_of_ne t hne]
    exact h e he

section Keys

variable {s t u : Tally κ β} {entries : List (κ × β)} (hperm : entries.Perm t.entries)
include hperm

omit [TransOrd κ] [Mergeable β] in
theorem mem_iff_get? {k : κ} {v : β} : (k, v) ∈ entries ↔ t.get? k = some v := by
  rw [hperm.mem_iff]
  exact SortedMap.get?_eq_some_iff.symm

omit [TransOrd κ] [Mergeable β] in
theorem notMem_keys_iff_get? {k : κ} : k ∉ entries.map Prod.fst ↔ t.get? k = none := by
  simp only [Option.eq_none_iff_forall_ne_some, ne_eq, ← mem_iff_get? hperm]
  simp

omit [TransOrd κ] [Mergeable β] in
theorem nodup_keys : (entries.map Prod.fst).Nodup :=
  (hperm.map _).nodup_iff.2 t.map.nodup_keys

/-- A merge of tallies has the keys of both, and the merge of the values at each key, where a
missing one is neutral. The entries of the second one can come in any order. -/
theorem mergeEntries_eq_ok_iff_of_perm [Lawful β] : s.mergeEntries entries = .ok u ↔
    (∀ k, u.contains k ↔ s.contains k ∨ t.contains k) ∧
      ∀ k, merge (s.get k) (t.get k) = .ok (u.get k) := by
  rw [mergeEntries_eq_ok_iff (nodup_keys hperm)]
  constructor
  · rintro ⟨hvalues, hothers⟩
    rw [← forall_and]
    intro k
    cases ht : t.get? k with
    | none =>
      have hu := hothers k ((notMem_keys_iff_get? hperm).2 ht)
      simp [contains_eq, get, ht, hu, Lawful.merge_neutral]
    | some delta =>
      obtain ⟨v, hmerge, hu⟩ := hvalues (k, delta) ((mem_iff_get? hperm).2 ht)
      rw [get_of_get? ht, get_of_get? hu, hmerge]
      simp [contains_eq, ht, hu]
  · rintro ⟨hkeys, hmerges⟩
    constructor
    · rintro ⟨k, delta⟩ he
      have ht := (mem_iff_get? hperm).1 he
      obtain ⟨v, hu⟩ := contains_iff.1 ((hkeys k).2 (.inr (contains_iff.2 ⟨delta, ht⟩)))
      have hmerge := hmerges k
      rw [get_of_get? ht, get_of_get? hu] at hmerge
      exact ⟨v, hmerge, hu⟩
    · intro k hk
      have ht := (notMem_keys_iff_get? hperm).1 hk
      have hkey := hkeys k
      have hmerge := hmerges k
      -- what the second tally does not have leaves the value of the first one
      simp only [get, ht, Option.getD_none, Lawful.merge_neutral, Except.ok.injEq] at hmerge
      simp only [contains_eq, ht, Option.isSome_none, Bool.false_eq_true, or_false] at hkey
      cases hs : s.get? k <;> cases hu : u.get? k <;> simp_all

theorem exists_mergeEntries_of_perm
    (h : ∀ k, ∃ v, merge (s.get k) (t.get k) = .ok v) : ∃ u, s.mergeEntries entries = .ok u := by
  apply exists_mergeEntries_of_forall (nodup_keys hperm)
  rintro ⟨k, delta⟩ he
  obtain ⟨v, hv⟩ := h k
  rw [get_of_get? ((mem_iff_get? hperm).1 he)] at hv
  exact ⟨v, hv⟩

end Keys

/-- The keys of a tally. -/
def keys (t : Tally κ β) : Set κ := {k | t.contains k}

/-- Tallies with the same keys and the same values are equal. -/
theorem eq_of_keys {s t : Tally κ β} (hkeys : keys s = keys t) (hvalues : ∀ k, s.get k = t.get k) :
    s = t := by
  apply ext
  apply SortedMap.eq_of_get?_eq
  intro k
  have hkey : s.contains k ↔ t.contains k := Set.ext_iff.1 hkeys k
  have hvalue := hvalues k
  change s.get? k = t.get? k
  simp only [contains_eq, get] at hkey hvalue
  cases hs : s.get? k <;> cases ht : t.get? k <;> simp_all

/-- Tallies are merged place by place, each key being a place. -/
def tallyPlaces [Lawful β] : Placewise (Tally κ β) (Set κ) κ β where
  extent := keys
  item := get
  eq_of_items := eq_of_keys
  extent_neutral := Set.eq_empty_of_forall_notMem fun k => nofun
  item_neutral _ := rfl
  merge_eq_ok_iff := by
    intro s t u
    rw [Set.ext_iff]
    exact mergeEntries_eq_ok_iff_of_perm (List.Perm.refl t.entries)
  exists_merge := exists_mergeEntries_of_perm (List.Perm.refl _)

instance [Lawful β] : Lawful (Tally κ β) := tallyPlaces.lawful

instance [Lawful β] [Unordered β] : Unordered (Tally κ β) := tallyPlaces.unordered

end Tally

end BatchRun
