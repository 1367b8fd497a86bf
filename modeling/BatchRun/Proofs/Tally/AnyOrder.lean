import Mathlib.Algebra.Order.BigOperators.Group.List
import BatchRun.Proofs.Tally.Concurrent

/-!
# Signed amounts in any order

Amounts with a sign can leave their bounds on the way to a sum that is within them. A row of
merges finishes exactly if, for every key, the sums of all its beginnings are within bounds. All
orders of the same tallies finish exactly if, for every key, what is added in all and what is taken
away in all are within bounds, since some order does all of the one before the other.

So it is not enough that the sums themselves can be told, unless each key is either only added to or
only taken from. Whether a run over such amounts gets through may depend on the order in which its
tasks complete.

## Main definitions

* `Tally.IsSigned`: the numbers of a given width
* `Tally.sumAt`, `Tally.gain`, `Tally.loss`: what tallies have at a key, together, and what is added
  and taken away there
* `Tally.Totals`: a tally that has the keys and the sums of others

## Main results

* `Tally.foldlM_mergeTally_eq_ok_iff`: merges of tallies, key by key
* `Tally.foldlM_add_eq_ok_iff`: a row of additions finishes if no beginning leaves the bounds
* `Tally.mergeTally_in_any_order_iff`: which rows of merges finish, and when all orders do
* `Tally.isSigned_of_one_sign`: keys that are only added to, or only taken from
* `Tally.neverFault_of_signed`: single values that are merged without a fault in any order
-/

namespace BatchRun.Tally

open Std Mergeable

section Folds

variable {κ β : Type} [Ord κ] [TransOrd κ] [LawfulEqOrd κ] [Mergeable β] [Lawful β]
  {t u : Tally κ β} {parts : List (Tally κ β)}

/-- Tallies that are merged one after the other are merged key by key. -/
theorem foldlM_mergeTally_eq_ok_iff : parts.foldlM mergeTally t = .ok u ↔
    (∀ k, u.contains k ↔ t.contains k ∨ ∃ part ∈ parts, part.contains k) ∧
      ∀ k, (parts.map (·.get k)).foldlM merge (t.get k) = .ok (u.get k) := by
  induction parts generalizing t with
  | nil =>
    constructor
    · intro h
      obtain rfl := Except.ok.inj h
      exact ⟨by simp, fun _ => rfl⟩
    · rintro ⟨hkeys, hvalues⟩
      have hsame : keys t = keys u :=
        Set.ext fun k => ((hkeys k).trans (or_iff_left (by simp))).symm
      rw [eq_of_keys hsame fun k => Except.ok.inj (hvalues k)]
      rfl
  | cons part rest ih =>
    have hmerge (t' : Tally κ β) : t.mergeTally part = .ok t' ↔
        (∀ k, t'.contains k ↔ t.contains k ∨ part.contains k) ∧
          ∀ k, merge (t.get k) (part.get k) = .ok (t'.get k) :=
      mergeEntries_eq_ok_iff_of_perm (.refl _)
    simp only [List.foldlM_cons, List.map_cons]
    constructor
    · intro h
      cases hfirst : t.mergeTally part with
      | error fault =>
        rw [hfirst] at h
        cases h
      | ok t' =>
        rw [hfirst] at h
        obtain ⟨hkeys, hvalues⟩ := ih.1 h
        obtain ⟨hkeys', hvalues'⟩ := (hmerge t').1 hfirst
        refine ⟨fun k => ?_, fun k => ?_⟩
        · rw [hkeys, hkeys', List.exists_mem_cons_iff, or_assoc]
        · rw [hvalues' k]
          exact hvalues k
    · rintro ⟨hkeys, hvalues⟩
      -- the first of the merges at each key is what the merge of the first tally needs
      have hsome (k : κ) : ∃ v, merge (t.get k) (part.get k) = .ok v ∧
          (rest.map (·.get k)).foldlM merge v = .ok (u.get k) := by
        have hvalue := hvalues k
        cases hfirst : merge (t.get k) (part.get k) with
        | error fault =>
          rw [hfirst] at hvalue
          cases hvalue
        | ok v =>
          rw [hfirst] at hvalue
          exact ⟨v, rfl, hvalue⟩
      obtain ⟨t', ht'⟩ := exists_mergeEntries_of_perm (.refl part.entries)
        fun k => (hsome k).imp fun _ h => h.1
      have hfirst : t.mergeTally part = .ok t' := ht'
      obtain ⟨hkeys', hvalues'⟩ := (hmerge t').1 hfirst
      rw [hfirst]
      refine ih.2 ⟨fun k => ?_, fun k => ?_⟩
      · rw [hkeys, hkeys', List.exists_mem_cons_iff, or_assoc]
      · obtain ⟨v, hv, hrest⟩ := hsome k
        obtain rfl := Except.ok.inj (hv.symm.trans (hvalues' k))
        exact hrest

end Folds

section Sums

variable {α : Type} {f : α → Int} {as order first : List α}

/-- A row of additions finishes exactly if none of its beginnings leaves the bounds, and then the
sum is exact. -/
theorem foldlM_add_eq_ok_iff {least greatest : Int} {g : α → Ranged least greatest}
    {a b : Ranged least greatest} : (as.map g).foldlM Ranged.add a = .ok b ↔
      (∀ first, first <+: as → least ≤ a.val + (first.map fun x => (g x).val).sum ∧
        a.val + (first.map fun x => (g x).val).sum ≤ greatest) ∧
      b.val = a.val + (as.map fun x => (g x).val).sum := by
  induction as generalizing a with
  | nil =>
    simp only [List.map_nil, List.foldlM_nil, List.prefix_nil, forall_eq, List.sum_nil, add_zero]
    constructor
    · intro h
      obtain rfl := Except.ok.inj h
      exact ⟨⟨a.least_le, a.le_greatest⟩, rfl⟩
    · rintro ⟨-, h⟩
      rw [val_injective h]
      rfl
  | cons x as ih =>
    rw [List.map_cons, List.foldlM_cons]
    simp only [List.map_cons, List.sum_cons, ← Int.add_assoc]
    constructor
    · intro h
      cases hadd : a.add (g x) with
      | error fault =>
        rw [hadd] at h
        cases h
      | ok c =>
        rw [hadd] at h
        obtain ⟨hbounds, hb⟩ := ih.1 h
        rw [add_eq_ok_iff.1 hadd] at hbounds hb
        refine ⟨fun first hfirst => ?_, hb⟩
        -- a beginning is empty or starts with the first addition
        cases first with
        | nil => simpa using ⟨a.least_le, a.le_greatest⟩
        | cons x' first =>
          obtain ⟨rfl, hrest⟩ := List.cons_prefix_cons.1 hfirst
          simpa only [List.map_cons, List.sum_cons, ← Int.add_assoc] using hbounds first hrest
    · rintro ⟨hbounds, hb⟩
      have hnext : least ≤ a.val + (g x).val ∧ a.val + (g x).val ≤ greatest := by
        simpa using hbounds [x] (by simp)
      have hadd : a.add (g x) = .ok ⟨a.val + (g x).val, hnext.1, hnext.2⟩ := add_eq_ok_iff.2 rfl
      rw [hadd]
      refine ih.2 ⟨fun first hfirst => ?_, hb⟩
      simpa only [List.map_cons, List.sum_cons, ← Int.add_assoc] using
        hbounds (x :: first) (List.cons_prefix_cons.2 ⟨rfl, hfirst⟩)

/-- The sum of the amounts above zero. -/
def rise (f : α → Int) (as : List α) : Int := (as.map fun a => max (f a) 0).sum

theorem rise_append (f : α → Int) (as bs : List α) : rise f (as ++ bs) = rise f as + rise f bs := by
  simp [rise]

theorem rise_nonneg (f : α → Int) (as : List α) : 0 ≤ rise f as :=
  List.sum_nonneg (by simp)

theorem sum_le_rise (f : α → Int) (as : List α) : (as.map f).sum ≤ rise f as :=
  List.sum_le_sum fun a _ => le_max_left (f a) 0

theorem rise_of_nonneg (h : ∀ a ∈ as, 0 ≤ f a) : rise f as = (as.map f).sum := by
  rw [rise, List.map_congr_left fun a ha => max_eq_left (h a ha)]

theorem rise_of_nonpos (h : ∀ a ∈ as, f a ≤ 0) : rise f as = 0 := by
  rw [rise, List.map_congr_left fun a ha => max_eq_right (h a ha)]
  simp

theorem rise_of_perm (h : order.Perm as) (f : α → Int) : rise f order = rise f as :=
  (h.map _).sum_eq

/-- No beginning of any order rises further than all amounts above zero do. -/
theorem sum_le_rise_of_prefix (horder : order.Perm as) (hfirst : first <+: order) :
    (first.map f).sum ≤ rise f as := by
  obtain ⟨rest, rfl⟩ := hfirst
  -- what comes behind the beginning can only add to the rise
  have hrise := rise_of_perm horder f
  rw [rise_append] at hrise
  have hle := sum_le_rise f first
  have hrest := rise_nonneg f rest
  omega

/-- Some order rises that far, with the amounts above zero before the others. -/
theorem exists_sum_eq_rise (f : α → Int) (as : List α) :
    ∃ order first, order.Perm as ∧ first <+: order ∧ (first.map f).sum = rise f as := by
  refine ⟨as.filter (fun a => 0 ≤ f a) ++ as.filter (fun a => !decide (0 ≤ f a)),
    as.filter (fun a => 0 ≤ f a), List.filter_append_perm _ _, List.prefix_append _ _, ?_⟩
  induction as with
  | nil => rfl
  | cons a as ih =>
    have hcons : rise f (a :: as) = max (f a) 0 + rise f as := by simp [rise]
    rw [hcons, ← ih, List.filter_cons]
    by_cases ha : 0 ≤ f a
    · simp [ha]
    · simp [ha, (Int.not_le.1 ha).le]

end Sums

section Signed

variable {κ : Type} [Ord κ] {bits : Nat}

/-- Whether a number is one with a sign of a given width. -/
def IsSigned (bits : Nat) (n : Int) : Prop :=
  -Int.pow 2 (bits - 1) ≤ n ∧ n ≤ Int.pow 2 (bits - 1) - 1

/-- What tallies have at a key, together. -/
def sumAt (parts : List (Tally κ (Signed bits))) (k : κ) : Int :=
  (parts.map fun part => (part.get k).val).sum

/-- What is added at a key, together. -/
def gain (parts : List (Tally κ (Signed bits))) (k : κ) : Int :=
  rise (fun part => (part.get k).val) parts

/-- What is taken away at a key, together. -/
def loss (parts : List (Tally κ (Signed bits))) (k : κ) : Int :=
  rise (fun part => -(part.get k).val) parts

/-- A tally that has the keys and the sums of others. -/
structure Totals (parts : List (Tally κ (Signed bits))) (u : Tally κ (Signed bits)) : Prop where
  contains_iff (k : κ) : u.contains k ↔ ∃ part ∈ parts, part.contains k
  get_eq (k : κ) : (u.get k).val = sumAt parts k

variable {parts order : List (Tally κ (Signed bits))} {u : Tally κ (Signed bits)}

theorem Totals.of_perm (hu : Totals order u) (h : order.Perm parts) : Totals parts u where
  contains_iff k := by simp [hu.contains_iff, h.mem_iff]
  get_eq k := (hu.get_eq k).trans (h.map _).sum_eq

theorem sum_neg_eq (parts : List (Tally κ (Signed bits))) (k : κ) :
    (parts.map fun part => -(part.get k).val).sum = -sumAt parts k := by
  induction parts with
  | nil => rfl
  | cons part parts ih =>
    simp only [sumAt, List.map_cons, List.sum_cons] at ih ⊢
    omega

/-- Where what is added and what is taken away are within bounds, no order leaves them. -/
theorem isSigned_of_prefix {first : List (Tally κ (Signed bits))} {k : κ}
    (hgain : IsSigned bits (gain parts k)) (hloss : IsSigned bits (-loss parts k))
    (horder : order.Perm parts) (hfirst : first <+: order) : IsSigned bits (sumAt first k) := by
  have hle : sumAt first k ≤ gain parts k := sum_le_rise_of_prefix horder hfirst
  have hge : (first.map fun part => -(part.get k).val).sum ≤ loss parts k :=
    sum_le_rise_of_prefix horder hfirst
  rw [sum_neg_eq] at hge
  exact ⟨by have := hloss.1; omega, hle.trans hgain.2⟩

/-- Some order comes as far as all that is added, and some other one as far as all that is taken
away. -/
theorem exists_sumAt_eq (parts : List (Tally κ (Signed bits))) (k : κ) :
    (∃ order first, order.Perm parts ∧ first <+: order ∧ sumAt first k = gain parts k) ∧
      ∃ order first, order.Perm parts ∧ first <+: order ∧ sumAt first k = -loss parts k := by
  refine ⟨exists_sum_eq_rise _ parts, ?_⟩
  obtain ⟨order, first, horder, hfirst, hsum⟩ :=
    exists_sum_eq_rise (fun part : Tally κ (Signed bits) => -(part.get k).val) parts
  rw [sum_neg_eq] at hsum
  exact ⟨order, first, horder, hfirst, by rw [loss, ← hsum, Int.neg_neg]⟩

/-- At keys that are only added to, or only taken from, sums that are within bounds are enough. -/
theorem isSigned_of_one_sign {k : κ} (hsum : IsSigned bits (sumAt parts k))
    (hsign : (∀ part ∈ parts, 0 ≤ (part.get k).val) ∨ ∀ part ∈ parts, (part.get k).val ≤ 0) :
    IsSigned bits (gain parts k) ∧ IsSigned bits (-loss parts k) := by
  have hzero : IsSigned bits 0 := by
    -- there are bounds at all, as there is a number between them
    have hneutral := (Mergeable.neutral : Signed bits)
    have hpos : 0 < Int.pow 2 (bits - 1) := Int.pow_pos (by decide)
    exact ⟨by omega, by omega⟩
  rcases hsign with hup | hdown
  · have hloss : loss parts k = 0 := rise_of_nonpos fun part hpart => by
      have := hup part hpart
      omega
    rw [gain, rise_of_nonneg hup, hloss]
    exact ⟨hsum, hzero⟩
  · have hloss : loss parts k = -sumAt parts k := by
      rw [← sum_neg_eq, loss]
      exact rise_of_nonneg fun part hpart => by
        have := hdown part hpart
        omega
    rw [gain, rise_of_nonpos hdown, hloss, Int.neg_neg]
    exact ⟨hzero, hsum⟩

variable [TransOrd κ] [LawfulEqOrd κ]

/-- Tallies in one order are merged without a fault only if no key leaves the bounds on the way,
and then into their sums. -/
theorem foldlM_empty_eq_ok_iff : parts.foldlM mergeTally empty = .ok u ↔
    (∀ first, first <+: parts → ∀ k, IsSigned bits (sumAt first k)) ∧ Totals parts u := by
  have hvalue (k : κ) :
      (parts.map (·.get k)).foldlM merge ((empty : Tally κ (Signed bits)).get k) = .ok (u.get k) ↔
        (∀ first, first <+: parts → IsSigned bits (sumAt first k)) ∧
          (u.get k).val = sumAt parts k := by
    have hzero : ((empty : Tally κ (Signed bits)).get k).val = 0 := rfl
    refine foldlM_add_eq_ok_iff.trans ?_
    simp only [hzero, Int.zero_add]
    rfl
  rw [foldlM_mergeTally_eq_ok_iff]
  simp only [hvalue]
  constructor
  · rintro ⟨hkeys, hvalues⟩
    exact ⟨fun first hfirst k => (hvalues k).1 first hfirst,
      fun k => (hkeys k).trans (or_iff_right nofun), fun k => (hvalues k).2⟩
  · rintro ⟨hbounds, hkeys, hvalues⟩
    exact ⟨fun k => (hkeys k).trans (or_iff_right nofun).symm,
      fun k => ⟨fun first hfirst => hbounds first hfirst k, hvalues k⟩⟩

/-- Where no key leaves the bounds on the way, there is such a tally. -/
theorem exists_foldlM_of_isSigned
    (h : ∀ first, first <+: parts → ∀ k, IsSigned bits (sumAt first k)) :
    ∃ u, parts.foldlM mergeTally empty = .ok u := by
  -- from the end, since what is merged so far is a beginning
  induction parts using List.reverseRecOn with
  | nil => exact ⟨empty, rfl⟩
  | append_singleton parts part ih =>
    obtain ⟨t, ht⟩ := ih fun first hfirst => h first (hfirst.trans (List.prefix_append _ _))
    have hsums := (foldlM_empty_eq_ok_iff.1 ht).2.get_eq
    obtain ⟨u, hu⟩ := exists_mergeEntries_of_perm (s := t) (.refl part.entries) fun k => by
      have hbound := h _ List.prefix_rfl k
      have hsum : sumAt (parts ++ [part]) k = (t.get k).val + (part.get k).val := by
        simp [sumAt, hsums k]
      rw [hsum] at hbound
      exact ⟨⟨_, hbound.1, hbound.2⟩, add_eq_ok_iff.2 rfl⟩
    have hlast : [part].foldlM mergeTally t = .ok u := by
      rw [List.foldlM_cons, mergeTally, hu]
      rfl
    exact ⟨u, by rw [List.foldlM_append, ht]; exact hlast⟩

/-- A row of merges finishes exactly if no key leaves the bounds on the way, and then it gives the
sums. So all orders of the same tallies finish exactly if all that is added and all that is taken
away at each key are within bounds. -/
theorem mergeTally_in_any_order_iff (parts : List (Tally κ (Signed bits))) :
    (∀ order : List (Tally κ (Signed bits)), order.Perm parts →
      ((∃ u, order.foldlM mergeTally empty = .ok u) ↔
        ∀ first, first <+: order → ∀ k, IsSigned bits (sumAt first k)) ∧
      ∀ u, order.foldlM mergeTally empty = .ok u → Totals parts u) ∧
    ((∀ order : List (Tally κ (Signed bits)), order.Perm parts →
        ∃ u, order.foldlM mergeTally empty = .ok u ∧ Totals parts u) ↔
      ∀ k, IsSigned bits (gain parts k) ∧ IsSigned bits (-loss parts k)) := by
  refine ⟨fun order horder => ⟨⟨?_, exists_foldlM_of_isSigned⟩, ?_⟩, ?_, ?_⟩
  · rintro ⟨u, hu⟩
    exact (foldlM_empty_eq_ok_iff.1 hu).1
  · intro u hu
    exact (foldlM_empty_eq_ok_iff.1 hu).2.of_perm horder
  · intro h k
    have hbound {order first : List (Tally κ (Signed bits))} (horder : order.Perm parts)
        (hfirst : first <+: order) : IsSigned bits (sumAt first k) := by
      obtain ⟨u, hu, -⟩ := h order horder
      exact (foldlM_empty_eq_ok_iff.1 hu).1 first hfirst k
    -- the orders that come furthest are among those that finish
    obtain ⟨⟨order, first, horder, hfirst, hgain⟩, order', first', horder', hfirst', hloss⟩ :=
      exists_sumAt_eq parts k
    exact ⟨hgain ▸ hbound horder hfirst, hloss ▸ hbound horder' hfirst'⟩
  · intro h order horder
    obtain ⟨u, hu⟩ := exists_foldlM_of_isSigned fun first (hfirst : first <+: order) k =>
      isSigned_of_prefix (h k).1 (h k).2 horder hfirst
    exact ⟨u, hu, (foldlM_empty_eq_ok_iff.1 hu).2.of_perm horder⟩

/-- Single values are merged in any order too if what is added and what is taken away are within
bounds. -/
theorem neverFault_of_signed {values : List (κ × Signed bits)}
    (h : ∀ k, IsSigned bits (gain (values.map fun e => ofEntries [e]) k) ∧
      IsSigned bits (-loss (values.map fun e => ofEntries [e]) k)) : NeverFault values := by
  intro row hrow
  rw [collect_eq_foldlM]
  exact exists_foldlM_of_isSigned fun first hfirst k =>
    isSigned_of_prefix (h k).1 (h k).2 (hrow.map _) hfirst

end Signed

/-- A number twice, and then another one, all for one key. -/
def twiceAndThen (n m : Signed 8) : List (Tally String (Signed 8)) :=
  [ofEntries [("k", n)], ofEntries [("k", n)], ofEntries [("k", m)]]

theorem get_of_ne {k : String} (hk : k ≠ "k") (n : Signed 8) :
    (ofEntries [("k", n)]).get k = Mergeable.neutral :=
  (get_set_of_ne empty hk n).trans rfl

/-- All sums are numbers of 8 bits, but the merges fault in one order and finish in another. -/
theorem not_mergeTally_in_any_order : ∃ parts : List (Tally String (Signed 8)),
    (∀ k, IsSigned 8 (sumAt parts k)) ∧ parts.foldlM mergeTally empty = .error .sum ∧
      ∃ (order : List (Tally String (Signed 8))) (u : Tally String (Signed 8)),
        order.Perm parts ∧ order.foldlM mergeTally empty = .ok u := by
  refine ⟨twiceAndThen ⟨100, by decide, by decide⟩ ⟨-100, by decide, by decide⟩, fun k => ?_, rfl,
    _, _, (List.Perm.swap _ _ _).cons _, rfl⟩
  by_cases hk : k = "k"
  · rw [hk]
    exact ⟨by decide, by decide⟩
  · simp only [sumAt, twiceAndThen, List.map_cons, List.map_nil, get_of_ne hk]
    exact ⟨by decide, by decide⟩

/-- Of sixty, sixty and minus one hundred, no more than 120 is ever added: no order faults. -/
theorem mergeTally_in_any_order_of_bounded :
    TransOrd String ∧ LawfulEqOrd String ∧
      ∀ order : List (Tally String (Signed 8)),
        order.Perm (twiceAndThen ⟨60, by decide, by decide⟩ ⟨-100, by decide, by decide⟩) →
          ∃ u, order.foldlM mergeTally empty = .ok u ∧ (u.get "k").val = 20 := by
  refine ⟨inferInstance, inferInstance, fun order horder => ?_⟩
  have hbounds := (mergeTally_in_any_order_iff
    (twiceAndThen ⟨60, by decide, by decide⟩ ⟨-100, by decide, by decide⟩)).2.2
  obtain ⟨u, hu, htotals⟩ := hbounds (by
    intro k
    by_cases hk : k = "k"
    · rw [hk]
      exact ⟨⟨by decide, by decide⟩, ⟨by decide, by decide⟩⟩
    · simp only [gain, loss, rise, twiceAndThen, List.map_cons, List.map_nil, get_of_ne hk]
      exact ⟨⟨by decide, by decide⟩, ⟨by decide, by decide⟩⟩) order horder
  exact ⟨u, hu, htotals.get_eq "k"⟩

end BatchRun.Tally
