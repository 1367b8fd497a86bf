import Mathlib.Algebra.BigOperators.Group.List.Basic
import Mathlib.Algebra.Group.Pi.Basic
import Mathlib.Algebra.Group.Prod
import Mathlib.Algebra.Group.WithOne.Basic
import Mathlib.Data.List.Forall2
import BatchRun.Proofs.SortedMap
import BatchRun.Proofs.Tally.Merging

/-!
# Exact values

Whole numbers, and what is built from them, stand for amounts that can be added without bounds.
A merge that does not fault is the addition of such amounts, and an amount is that of one value
only. So it does not matter in which order values are merged, nor whether they are merged one by
one or in groups, as long as no merge faults.

Addition of whole numbers within bounds is not associative, because one order may leave the
bounds where another one does not. It is the amounts that can be added in any order.

## Main definitions

* `Mergeable.Exact`: values that stand for amounts
* instances for whole numbers, lists, vectors, pairs and tallies

## Main results

* `Tally.amount_mergeEntries`: merging values into a tally adds their amounts
* `Tally.eq_of_perm`: the order of merges does not matter
* `Tally.snapshot_eq`: a snapshot of exact values has the same values
-/

namespace BatchRun

/-- Values that stand for amounts, which are added by every merge that does not fault. -/
class Mergeable.Exact (α : Type) [Mergeable α] (A : outParam Type) [AddCommMonoid A] where
  amount : α → A
  amount_injective : Function.Injective amount
  amount_neutral : amount Mergeable.neutral = 0
  amount_merge : ∀ {a b c : α}, Mergeable.merge a b = .ok c → amount c = amount a + amount b
  merge_neutral : ∀ a : α, Mergeable.merge Mergeable.neutral a = .ok a

namespace Mergeable

open Exact

section Numbers

variable {least greatest : Int}

theorem val_injective : Function.Injective (Ranged.val : Ranged least greatest → Int) := by
  intro a b h
  cases a
  cases b
  cases h
  rfl

theorem ofInt?_eq_some_iff {n : Int} {a : Ranged least greatest} :
    Ranged.ofInt? n = some a ↔ a.val = n := by
  rw [Ranged.ofInt?]
  constructor
  · intro h
    split at h
    · obtain rfl := Option.some.inj h
      rfl
    · cases h
  · rintro rfl
    exact dif_pos ⟨a.least_le, a.le_greatest⟩

/-- A sum is that of whole numbers, if it is one between the bounds. -/
theorem add_eq_ok_iff {a b c : Ranged least greatest} :
    a.add b = .ok c ↔ c.val = a.val + b.val := by
  rw [← ofInt?_eq_some_iff, Ranged.add]
  cases Ranged.ofInt? (a.val + b.val) with
  | none => simp
  | some d => simp

theorem zero_add_eq {zero : Ranged least greatest} (hzero : zero.val = 0)
    (a : Ranged least greatest) : zero.add a = .ok a := by
  rw [add_eq_ok_iff, hzero, Int.zero_add]

instance {bits : Nat} : Exact (Signed bits) Int where
  amount := Ranged.val
  amount_injective := val_injective
  amount_neutral := rfl
  amount_merge := add_eq_ok_iff.1
  merge_neutral := zero_add_eq rfl

instance {bits : Nat} : Exact (Unsigned bits) Int where
  amount := Ranged.val
  amount_injective := val_injective
  amount_neutral := rfl
  amount_merge := add_eq_ok_iff.1
  merge_neutral := zero_add_eq rfl

end Numbers

variable {α β A B : Type} [Mergeable α] [AddCommMonoid A] [Exact α A] [Mergeable β]
  [AddCommMonoid B] [Exact β B]

instance : Exact (α × β) (A × B) where
  amount a := (amount a.1, amount a.2)
  amount_injective := by
    rintro ⟨a, b⟩ ⟨a', b'⟩ h
    obtain ⟨hfirst, hsecond⟩ := Prod.mk.inj h
    exact Prod.ext (amount_injective hfirst) (amount_injective hsecond)
  amount_neutral := Prod.ext (amount_neutral (α := α)) (amount_neutral (α := β))
  amount_merge := by
    intro a b c h
    simp only [merge] at h
    split at h
    · next hx hy =>
      obtain rfl := Except.ok.inj h
      exact Prod.ext (amount_merge hx) (amount_merge hy)
    · cases h
    · cases h
  merge_neutral := by
    rintro ⟨a, b⟩
    have hfirst : merge (neutral : α × β).1 a = .ok a := merge_neutral a
    have hsecond : merge (neutral : α × β).2 b = .ok b := merge_neutral b
    simp only [merge] at hfirst hsecond ⊢
    rw [hfirst, hsecond]

/-- What an entry that may be missing stands for: a missing one is no entry at all, and differs
from a neutral one. -/
def presence : Option α → WithZero A
  | none => 0
  | some a => (amount a : A)

theorem presence_injective : Function.Injective (presence : Option α → WithZero A) := by
  intro a b h
  cases a with
  | none =>
    cases b with
    | none => rfl
    | some b => exact absurd h.symm WithZero.coe_ne_zero
  | some a =>
    cases b with
    | none => exact absurd h WithZero.coe_ne_zero
    | some b => rw [amount_injective (WithZero.coe_injective h)]

/-- A value is merged into an entry that may be missing. -/
theorem presence_merge {a : Option α} {b c : α} (h : merge (a.getD neutral) b = .ok c) :
    presence (some c) = presence a + presence (some b) := by
  have hamount := amount_merge h
  -- an entry that is missing counts as a neutral one, of amount zero
  cases a with
  | none =>
    rw [Option.getD_none, amount_neutral, zero_add] at hamount
    simp only [presence, hamount, zero_add]
  | some a =>
    rw [Option.getD_some] at hamount
    simp only [presence, hamount, WithZero.coe_add]

/-- Lists are merged item by item; the longer one goes on where the other one ends. -/
theorem presence_mergeLists {as bs cs : List α} (h : mergeLists as bs = .ok cs) (i : Nat) :
    presence cs[i]? = presence as[i]? + presence bs[i]? := by
  -- the cases are those of the two lists; in those left over an item faults
  fun_induction mergeLists as bs generalizing cs i with
  | case1 as =>
    obtain rfl := Except.ok.inj h
    exact (add_zero _).symm
  | case2 b bs c rest hrest hitem ih =>
    obtain rfl := Except.ok.inj h
    cases i with
    | zero => exact presence_merge (a := none) hitem
    | succ i => exact ih hrest i
  | case5 a as b bs c rest hrest hitem ih =>
    obtain rfl := Except.ok.inj h
    cases i with
    | zero => exact presence_merge (a := some a) hitem
    | succ i => exact ih hrest i
  | _ => cases h

instance : Exact (List α) (Nat → WithZero A) where
  amount l i := presence l[i]?
  amount_injective := fun _ _ h => List.ext_getElem? fun i => presence_injective (congrFun h i)
  amount_neutral := rfl
  amount_merge := fun h => funext (presence_mergeLists h)
  merge_neutral := by
    intro bs
    change mergeLists [] bs = .ok bs
    induction bs with
    | nil => rfl
    | cons b bs ih => simp only [mergeLists, merge_neutral, ih]

section Vectors

variable {γ δ : Type} {n : Nat}

/-- A row of operations succeeds if each of them does. -/
theorem mapM_eq_ok_iff {f : γ → Except Fault δ} {l : List γ} {l' : List δ} :
    l.mapM f = .ok l' ↔ List.Forall₂ (fun a b => f a = .ok b) l l' := by
  induction l generalizing l' with
  | nil =>
    rw [List.mapM_nil, List.forall₂_nil_left_iff]
    exact ⟨fun h => (Except.ok.inj h).symm, fun h => by rw [h]; rfl⟩
  | cons a rest ih =>
    rw [List.mapM_cons, List.forall₂_cons_left_iff]
    constructor
    · intro h
      cases hfirst : f a with
      | error fault => rw [hfirst] at h; cases h
      | ok b =>
        cases hrest : rest.mapM f with
        | error fault => rw [hfirst, hrest] at h; cases h
        | ok bs =>
          rw [hfirst, hrest] at h
          exact ⟨b, bs, rfl, ih.1 hrest, (Except.ok.inj h).symm⟩
    · rintro ⟨b, bs, hfirst, hrest, rfl⟩
      rw [hfirst, ih.2 hrest]
      rfl

/-- The same for vectors. -/
theorem vector_mapM_eq_ok_iff {f : γ → Except Fault δ} {xs : Vector γ n} {ys : Vector δ n} :
    xs.mapM f = .ok ys ↔ ∀ i : Fin n, f xs[i] = .ok ys[i] := by
  -- what is known of lists is carried over to vectors
  have hlist : xs.toList.mapM f = (xs.mapM f).map Vector.toList := by
    rw [← Vector.toList_toArray, ← Array.toList_mapM, ← Vector.toArray_mapM]
    cases xs.mapM f <;> rfl
  have hiff : xs.mapM f = .ok ys ↔ xs.toList.mapM f = .ok ys.toList := by
    rw [hlist]
    cases xs.mapM f with
    | error fault => exact ⟨nofun, nofun⟩
    | ok zs =>
      refine ⟨fun h => by rw [Except.ok.inj h]; rfl, ?_⟩
      intro h
      rw [Vector.toList_inj.1 (Except.ok.inj h)]
  rw [hiff, mapM_eq_ok_iff, List.forall₂_iff_get]
  constructor
  · rintro ⟨-, h⟩ i
    simpa using h i (by simp) (by simp)
  · intro h
    refine ⟨by simp, ?_⟩
    intro i hi _
    simpa using h ⟨i, by simpa using hi⟩

instance : Exact (Vector α n) (Fin n → A) where
  amount v i := amount v[i]
  amount_injective := by
    intro v w h
    ext i hi
    exact amount_injective (congrFun h ⟨i, hi⟩)
  amount_neutral := by
    funext i
    simp only [neutral, Fin.getElem_fin, Vector.getElem_replicate]
    exact amount_neutral
  amount_merge := by
    intro v w u h
    funext i
    have hitem := vector_mapM_eq_ok_iff.1 h i
    simp only [Fin.getElem_fin, Vector.getElem_zip] at hitem
    exact amount_merge hitem
  merge_neutral := by
    intro v
    apply vector_mapM_eq_ok_iff.2
    intro i
    simp only [Fin.getElem_fin, Vector.getElem_zip, neutral, Vector.getElem_replicate]
    exact merge_neutral v[i]

end Vectors

end Mergeable

namespace Tally

open Mergeable Mergeable.Exact Std

variable {κ β B : Type} [Ord κ] [TransOrd κ] [LawfulEqOrd κ] [Mergeable β] [AddCommMonoid B]
  [hexact : Exact β B]

/-- What a value stands for that is merged into a key. -/
def single (k : κ) (v : β) : κ → WithZero B :=
  fun k' => if compare k' k = .eq then presence (some v) else 0

/-- What values stand for that are merged into keys. -/
def total (entries : List (κ × β)) : κ → WithZero B :=
  (entries.map fun e => single e.1 e.2).sum

/-- What the values of a tally stand for. -/
def amounts (t : Tally κ β) : κ → WithZero B := fun k => presence (t.get? k)

omit [Mergeable β] in
theorem get?_set_self (t : Tally κ β) (k : κ) (v : β) : (t.set k v).get? k = some v :=
  SortedMap.get?_insert_self t.map k v

omit [Mergeable β] in
theorem get?_set_of_ne (t : Tally κ β) {k k' : κ} (h : k' ≠ k) (v : β) :
    (t.set k v).get? k' = t.get? k' :=
  SortedMap.get?_insert_of_ne t.map h v

theorem amounts_injective : Function.Injective (amounts : Tally κ β → κ → WithZero B) :=
  fun _ _ h => ext (SortedMap.eq_of_get?_eq fun k => presence_injective (congrFun h k))

theorem amounts_mergeInto {t t' : Tally κ β} {k : κ} {delta : β}
    (h : t.mergeInto k delta = .ok t') :
    (amounts t' : κ → WithZero B) = amounts t + single k delta := by
  rw [mergeInto] at h
  cases hmerge : Mergeable.merge (t.get k) delta with
  | error fault => rw [hmerge] at h; cases h
  | ok v =>
    rw [hmerge] at h
    obtain rfl := Except.ok.inj h
    funext k'
    by_cases hk : k' = k
    · subst hk
      simp only [amounts, get?_set_self, Pi.add_apply, single, ReflOrd.compare_self, if_true]
      exact presence_merge hmerge
    · have hne : compare k' k ≠ .eq := fun heq => hk (Std.compare_eq_iff_eq.1 heq)
      simp only [amounts, get?_set_of_ne t hk, Pi.add_apply, single, if_neg hne, add_zero]

/-- Merging values into a tally adds what they stand for. -/
theorem amounts_mergeEntries {t t' : Tally κ β} {entries : List (κ × β)}
    (h : t.mergeEntries entries = .ok t') :
    (amounts t' : κ → WithZero B) = amounts t + total entries := by
  induction entries generalizing t with
  | nil =>
    obtain rfl := Except.ok.inj h
    exact (add_zero _).symm
  | cons e rest ih =>
    obtain ⟨next, hmerge, hrest⟩ := exists_of_mergeEntries_cons h
    rw [ih hrest, amounts_mergeInto hmerge, add_assoc]
    rfl

omit [TransOrd κ] [LawfulEqOrd κ] in
theorem total_eq_of_perm {entries entries' : List (κ × β)} (h : entries.Perm entries') :
    (total entries : κ → WithZero B) = total entries' :=
  (h.map _).sum_eq

omit [TransOrd κ] in
/-- What entries with increasing keys stand for. -/
theorem total_of_sorted {entries : List (κ × β)}
    (h : entries.Pairwise fun a b => compare a.1 b.1 = .lt) (k : κ) :
    (total entries : κ → WithZero B) k = presence (SortedMap.lookup k entries) := by
  induction entries with
  | nil => rfl
  | cons e rest ih =>
    obtain ⟨k', v⟩ := e
    obtain ⟨hhead, htail⟩ := List.pairwise_cons.1 h
    have hsum : (total ((k', v) :: rest) : κ → WithZero B) k = single k' v k + total rest k := by
      simp only [total, List.map_cons, List.sum_cons, Pi.add_apply]
    rw [hsum, ih htail]
    by_cases hk : k = k'
    · subst hk
      -- no later entry has the key again
      have hnone : SortedMap.lookup k rest = none := by
        rw [Option.eq_none_iff_forall_ne_some]
        intro w hw
        exact SortedMap.ne_of_compare_lt (hhead _ (SortedMap.mem_of_lookup hw)) rfl
      simp only [single, ReflOrd.compare_self, if_true, hnone, SortedMap.lookup_cons_self]
      exact add_zero _
    · have hne : compare k k' ≠ .eq := fun heq => hk (Std.compare_eq_iff_eq.1 heq)
      simp only [single, if_neg hne, SortedMap.lookup_cons_of_ne hk, zero_add]

omit [TransOrd κ] in
theorem total_entries (t : Tally κ β) : (total t.entries : κ → WithZero B) = amounts t :=
  funext fun k => total_of_sorted t.map.sorted k

include hexact in
/-- The order in which values are merged does not matter, as long as no merge faults. -/
theorem eq_of_perm {t s s' : Tally κ β} {entries entries' : List (κ × β)}
    (hperm : entries.Perm entries') (h : t.mergeEntries entries = .ok s)
    (h' : t.mergeEntries entries' = .ok s') : s = s' := by
  apply amounts_injective (B := B)
  rw [amounts_mergeEntries h, amounts_mergeEntries h', total_eq_of_perm hperm]

include hexact in
/-- Values are put into keys that are not there without a fault. -/
theorem exists_mergeEntries {t : Tally κ β} {entries : List (κ × β)}
    (hsorted : entries.Pairwise fun a b => compare a.1 b.1 = .lt)
    (hnew : ∀ e ∈ entries, t.get? e.1 = none) : ∃ t', t.mergeEntries entries = .ok t' := by
  induction entries generalizing t with
  | nil => exact ⟨t, rfl⟩
  | cons e rest ih =>
    obtain ⟨k, v⟩ := e
    obtain ⟨hhead, htail⟩ := List.pairwise_cons.1 hsorted
    obtain ⟨hk, hrest⟩ := List.forall_mem_cons.1 hnew
    -- a value that comes to a new key is merged with the neutral one, and stays as it is
    have hget : t.get k = Mergeable.neutral := by rw [get, hk]; rfl
    have hmerge : t.mergeInto k v = .ok (t.set k v) := by
      rw [mergeInto, hget, merge_neutral]
      rfl
    rw [mergeEntries_cons_ok hmerge]
    apply ih htail
    intro e he
    rw [get?_set_of_ne t (SortedMap.ne_of_compare_lt (hhead e he)).symm]
    exact hrest e he

include hexact in
/-- A tally that is merged into an empty one is copied. -/
theorem mergeTally_empty (t : Tally κ β) : empty.mergeTally t = .ok t := by
  -- the merge does not fault, and what comes of it has the same amounts
  obtain ⟨t', h⟩ := exists_mergeEntries (B := B) (t := empty) t.map.sorted fun _ _ => rfl
  have hamounts : (amounts t' : κ → WithZero B) = amounts t := by
    rw [amounts_mergeEntries h]
    exact (zero_add _).trans (total_entries t)
  rw [amounts_injective hamounts] at h
  exact h

instance : Exact (Tally κ β) (κ → WithZero B) where
  amount := amounts
  amount_injective := amounts_injective
  amount_neutral := rfl
  amount_merge := by
    intro a b c h
    rw [amounts_mergeEntries h, total_entries]
  merge_neutral := mergeTally_empty

include hexact in
/-- A snapshot of exact values has the same values. -/
theorem snapshot_eq (t : Tally κ β) : t.snapshot = .ok t := mergeTally_empty t

end Tally

end BatchRun
