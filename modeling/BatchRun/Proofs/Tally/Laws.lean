import BatchRun.Proofs.Tally.InPlace

/-!
# The laws of merging

Payloads are whole numbers, and lists, vectors, pairs and tallies of payloads, to any depth. Each
of these ways to build a type keeps the laws of merging, so that all payloads obey them.

Whether a merge finishes can depend on the order: among signed numbers one order may leave the
bounds where another one does not. If no number is below zero this cannot happen, since what was
merged so far is never more than the whole. Then a row of merges finishes in every order or in
none.

## Main definitions

* `Payload`: the types of payloads, and `Payload.Value`, their values
* `Mergeable.Laws`: what merging obeys, here and in lists and tallies

## Main results

* `Payload.laws_and_folds`: all payloads obey the laws of merging, and those without signed
  numbers are folded in any order
-/

namespace BatchRun

open Std

namespace Mergeable

open InPlace

/-- What merging values obeys, also as items of lists and as values of tallies. -/
structure Laws (α : Type) [Mergeable α] : Prop where
  neutral_merge (a : α) : merge neutral a = .ok a
  merge_neutral (a : α) : merge a neutral = .ok a
  merge_comm (a b : α) : (merge a b).toOption = (merge b a).toOption
  merge_assoc {a b c ab bc left right : α} (hab : merge a b = .ok ab)
    (hleft : merge ab c = .ok left) (hbc : merge b c = .ok bc) (hright : merge a bc = .ok right) :
    left = right
  merge_lists (as bs cs : List α) : merge as bs = .ok cs ↔
    cs.length = max as.length bs.length ∧
      ∀ i, merge (itemAt as i) (itemAt bs i) = .ok (itemAt cs i)
  merge_tallies {κ : Type} [Ord κ] [TransOrd κ] [LawfulEqOrd κ] (s t u : Tally κ α) :
    merge s t = .ok u ↔ (∀ k, u.contains k ↔ s.contains k ∨ t.contains k) ∧
      ∀ k, merge (s.get k) (t.get k) = .ok (u.get k)
  /-- The entries of a tally can be merged in any order. -/
  merge_entries {κ : Type} [Ord κ] [TransOrd κ] [LawfulEqOrd κ] (s t : Tally κ α)
    {entries : List (κ × α)} (hperm : entries.Perm t.entries) :
    (s.mergeEntries entries).toOption = (merge s t).toOption
  mergeAssign_eq (a b c : α) : (mergeAssign b).run a = .ok () c ↔ merge a b = .ok c

variable {α : Type}

/-- Two operations agree if they finish with the same values. -/
theorem toOption_eq_of_ok_iff {x y : Except Fault α} (h : ∀ c, x = .ok c ↔ y = .ok c) :
    x.toOption = y.toOption := by
  cases x with
  | ok c => rw [(h c).1 rfl]
  | error e =>
    cases y with
    | ok c => cases (h c).2 rfl
    | error e' => rfl

variable [Mergeable α]

theorem laws [Lawful α] [LawfulInPlace α] : Laws α where
  neutral_merge := Lawful.neutral_merge
  merge_neutral := Lawful.merge_neutral
  merge_comm _ _ := toOption_eq_of_ok_iff fun _ => ⟨Lawful.merge_comm, Lawful.merge_comm⟩
  merge_assoc := Lawful.merge_assoc
  merge_lists _ _ _ := mergeLists_eq_ok_iff
  merge_tallies _ t _ := Tally.mergeEntries_eq_ok_iff_of_perm (List.Perm.refl t.entries)
  merge_entries _ t _ hperm := toOption_eq_of_ok_iff fun _ =>
    (Tally.mergeEntries_eq_ok_iff_of_perm hperm).trans
      (Tally.mergeEntries_eq_ok_iff_of_perm (List.Perm.refl t.entries)).symm
  mergeAssign_eq _ _ _ := LawfulInPlace.mergeAssign_eq_ok_iff

/-- A row of merges begins with the first one. -/
theorem foldlM_merge_cons_eq_ok_iff {a b v : α} {rest : List α} :
    (b :: rest).foldlM merge a = .ok v ↔
      ∃ ab, merge a b = .ok ab ∧ rest.foldlM merge ab = .ok v := by
  rw [List.foldlM_cons]
  cases merge a b <;> simp [bind, Except.bind]

/-- A row of merges in two parts goes through what the first part leaves. -/
theorem foldlM_merge_append_eq_ok_iff {a v : α} {first second : List α} :
    (first ++ second).foldlM merge a = .ok v ↔
      ∃ b, first.foldlM merge a = .ok b ∧ second.foldlM merge b = .ok v := by
  rw [List.foldlM_append]
  cases first.foldlM merge a <;> simp [bind, Except.bind]

/-- A row of merges that finishes does so in every order, with the same value. -/
theorem foldlM_merge_eq_ok_of_perm [Unordered α] {values values' : List α}
    (hperm : values.Perm values') {a v : α} (h : values.foldlM merge a = .ok v) :
    values'.foldlM merge a = .ok v := by
  induction hperm generalizing a with
  | nil => exact h
  | cons b _ ih =>
    obtain ⟨ab, hab, hrest⟩ := foldlM_merge_cons_eq_ok_iff.1 h
    exact foldlM_merge_cons_eq_ok_iff.2 ⟨ab, hab, ih hrest⟩
  | swap b c rest =>
    -- two neighbours change places, and what comes of both is the same
    obtain ⟨ac, hac, hrest⟩ := foldlM_merge_cons_eq_ok_iff.1 h
    obtain ⟨acb, hacb, hrest⟩ := foldlM_merge_cons_eq_ok_iff.1 hrest
    obtain ⟨ab, hab, habc⟩ := Unordered.merge_swap hac hacb
    exact foldlM_merge_cons_eq_ok_iff.2
      ⟨ab, hab, foldlM_merge_cons_eq_ok_iff.2 ⟨acb, habc, hrest⟩⟩
  | trans _ _ ih ih' => exact ih' (ih h)

end Mergeable

open Mergeable

/-- The types of payloads: whole numbers, and what is built from them. -/
inductive Payload : Type 1 where
  | signed (bits : Nat)
  | unsigned (bits : Nat)
  | list (item : Payload)
  | vector (item : Payload) (length : Nat)
  | pair (first second : Payload)
  | tally (Key : Type) [Ord Key] [TransOrd Key] [LawfulEqOrd Key] (value : Payload)

namespace Payload

/-- The values of a type of payloads. -/
def Value : Payload → Type
  | signed bits => Signed bits
  | unsigned bits => Unsigned bits
  | list item => List item.Value
  | vector item length => Vector item.Value length
  | pair first second => first.Value × second.Value
  | tally Key value => Tally Key value.Value

instance mergeable : (p : Payload) → Mergeable p.Value
  | signed bits => inferInstanceAs (Mergeable (Signed bits))
  | unsigned bits => inferInstanceAs (Mergeable (Unsigned bits))
  | list item =>
    letI := item.mergeable
    inferInstanceAs (Mergeable (List item.Value))
  | vector item length =>
    letI := item.mergeable
    inferInstanceAs (Mergeable (Vector item.Value length))
  | pair first second =>
    letI := first.mergeable
    letI := second.mergeable
    inferInstanceAs (Mergeable (first.Value × second.Value))
  | tally Key value =>
    letI := value.mergeable
    inferInstanceAs (Mergeable (Tally Key value.Value))

/-- Whether none of the numbers that a payload is built from has a sign. -/
def isUnsigned : Payload → Bool
  | signed _ => false
  | unsigned _ => true
  | list item => item.isUnsigned
  | vector item _ => item.isUnsigned
  | pair first second => first.isUnsigned && second.isUnsigned
  | tally _ value => value.isUnsigned

theorem lawful : (p : Payload) → Lawful p.Value
  | signed bits => inferInstanceAs (Lawful (Signed bits))
  | unsigned bits => inferInstanceAs (Lawful (Unsigned bits))
  | list item =>
    have := item.lawful
    inferInstanceAs (Lawful (List item.Value))
  | vector item length =>
    have := item.lawful
    inferInstanceAs (Lawful (Vector item.Value length))
  | pair first second =>
    have := first.lawful
    have := second.lawful
    inferInstanceAs (Lawful (first.Value × second.Value))
  | tally Key value =>
    have := value.lawful
    inferInstanceAs (Lawful (Tally Key value.Value))

theorem lawfulInPlace : (p : Payload) → LawfulInPlace p.Value
  | signed bits => inferInstanceAs (LawfulInPlace (Signed bits))
  | unsigned bits => inferInstanceAs (LawfulInPlace (Unsigned bits))
  | list item =>
    have := item.lawfulInPlace
    inferInstanceAs (LawfulInPlace (List item.Value))
  | vector item length =>
    have := item.lawfulInPlace
    inferInstanceAs (LawfulInPlace (Vector item.Value length))
  | pair first second =>
    have := first.lawfulInPlace
    have := second.lawfulInPlace
    inferInstanceAs (LawfulInPlace (first.Value × second.Value))
  | tally Key value =>
    have := value.lawfulInPlace
    inferInstanceAs (LawfulInPlace (Tally Key value.Value))

/-- What the values of a type of payloads stand for. -/
def Amount : Payload → Type
  | signed _ => Int
  | unsigned _ => Int
  | list item => Nat → WithZero item.Amount
  | vector item length => Fin length → item.Amount
  | pair first second => first.Amount × second.Amount
  | tally Key value => Key → WithZero value.Amount

instance addCommMonoid : (p : Payload) → AddCommMonoid p.Amount
  | signed _ => inferInstanceAs (AddCommMonoid Int)
  | unsigned _ => inferInstanceAs (AddCommMonoid Int)
  | list item =>
    letI := item.addCommMonoid
    inferInstanceAs (AddCommMonoid (Nat → WithZero item.Amount))
  | vector item length =>
    letI := item.addCommMonoid
    inferInstanceAs (AddCommMonoid (Fin length → item.Amount))
  | pair first second =>
    letI := first.addCommMonoid
    letI := second.addCommMonoid
    inferInstanceAs (AddCommMonoid (first.Amount × second.Amount))
  | tally Key value =>
    letI := value.addCommMonoid
    inferInstanceAs (AddCommMonoid (Key → WithZero value.Amount))

instance exact : (p : Payload) → Exact p.Value p.Amount
  | signed bits => inferInstanceAs (Exact (Signed bits) Int)
  | unsigned bits => inferInstanceAs (Exact (Unsigned bits) Int)
  | list item =>
    letI := item.exact
    inferInstanceAs (Exact (List item.Value) (Nat → WithZero item.Amount))
  | vector item length =>
    letI := item.exact
    inferInstanceAs (Exact (Vector item.Value length) (Fin length → item.Amount))
  | pair first second =>
    letI := first.exact
    letI := second.exact
    inferInstanceAs (Exact (first.Value × second.Value) (first.Amount × second.Amount))
  | tally Key value =>
    letI := value.exact
    inferInstanceAs (Exact (Tally Key value.Value) (Key → WithZero value.Amount))

theorem unordered {p : Payload} (h : p.isUnsigned) : Unordered p.Value := by
  induction p with
  | signed bits => cases h
  | unsigned bits => exact inferInstanceAs (Unordered (Unsigned bits))
  | list item ih =>
    have := item.lawful
    have := ih h
    exact inferInstanceAs (Unordered (List item.Value))
  | vector item length ih =>
    have := ih h
    exact inferInstanceAs (Unordered (Vector item.Value length))
  | pair first second ihfirst ihsecond =>
    obtain ⟨hfirst, hsecond⟩ := Bool.and_eq_true_iff.1 h
    have := ihfirst hfirst
    have := ihsecond hsecond
    exact inferInstanceAs (Unordered (first.Value × second.Value))
  | tally Key value ih =>
    have := value.lawful
    have := ih h
    exact inferInstanceAs (Unordered (Tally Key value.Value))

/-- All payloads obey the laws of merging. A row of payloads without signed numbers can be merged
in any order: it finishes with the same value, or in none. -/
theorem laws_and_folds (p : Payload) : Laws p.Value ∧
    (p.isUnsigned → ∀ values values' : List p.Value, values.Perm values' →
      (values.foldlM merge neutral).toOption = (values'.foldlM merge neutral).toOption) := by
  have := p.lawful
  have := p.lawfulInPlace
  refine ⟨laws, ?_⟩
  intro hunsigned values values' hperm
  have := unordered hunsigned
  apply toOption_eq_of_ok_iff
  intro v
  exact ⟨foldlM_merge_eq_ok_of_perm hperm, foldlM_merge_eq_ok_of_perm hperm.symm⟩

/-- Without a sign is a condition: here the numbers leave the bounds in one order only. -/
example :
    (([100, 100, -100].filterMap Ranged.ofInt? : List (Signed 8)).foldlM merge neutral).toOption
      = none ∧
    (([100, -100, 100].filterMap Ranged.ofInt? : List (Signed 8)).foldlM merge neutral).toOption
      = Ranged.ofInt? 100 :=
  ⟨rfl, rfl⟩

/-- Rows of counters of one byte for each key. -/
def histograms : Payload := .tally Nat (.list (.unsigned 8))

/-- A row of counters for one key. -/
def histogram (key : Nat) (counters : List Int) : histograms.Value :=
  let bytes : List (Unsigned 8) := counters.filterMap Ranged.ofInt?
  Tally.ofEntries [(key, bytes)]

/-- Counters of one key are added up to the greatest byte in one order, and so they are in the
other; one more overflows in both. -/
theorem folds_of_histograms : histograms.isUnsigned ∧ Laws histograms.Value ∧
    ([histogram 1 [205], histogram 1 [50, 3]].foldlM merge neutral).toOption
      = some (histogram 1 [255, 3]) ∧
    ([histogram 1 [206], histogram 1 [50, 3]].foldlM merge neutral).toOption = none := by
  obtain ⟨hlaws, hfolds⟩ := laws_and_folds histograms
  refine ⟨rfl, hlaws, ?_, ?_⟩
  · rw [hfolds rfl _ [histogram 1 [50, 3], histogram 1 [205]] (.swap _ _ _)]
    rfl
  · rw [hfolds rfl _ [histogram 1 [50, 3], histogram 1 [206]] (.swap _ _ _)]
    rfl

end Payload

end BatchRun
