import Mathlib.Algebra.Order.BigOperators.Group.List
import Mathlib.Algebra.Order.Floor.Ring
import Mathlib.Data.Rat.Floor
import BatchRun.Proofs.Partition.Greedy

/-!
# Exact weights

Rational numbers as weights. Nothing is rounded, so that the weight of a block is the sum of the
weights of its items, and where an item does not fit the block and the item together weigh more
than is allowed.

## Main results

* `Block.IsRow.weight_eq`: the weight of a block of a greedy partition
* `Block.IsRow.eq_singleton`: an item that is too heavy is alone in its block
* `GreedyFrom.closed_at`: why a block was closed
-/

namespace BatchRun

/-- Rational numbers as weights. All of them are finite. -/
instance : Weight ℚ where
  zero := 0
  one := 1
  decidableLT := inferInstance
  decidableLE := inferInstance
  isFinite _ := true
  share total parts := ⌈total / parts⌉
  text := toString

namespace Weight

@[simp] theorem isPositive_iff {w : ℚ} : isPositive w = true ↔ 0 < w := decide_eq_true_iff

@[simp] theorem isOrdinary_iff {w : ℚ} : isOrdinary w = true ↔ 0 ≤ w := by
  change (true && !decide (w < 0)) = true ↔ 0 ≤ w
  simp

@[simp] theorem isFinite_eq (w : ℚ) : isFinite w = true := rfl

theorem least_eq_min (a b : ℚ) : least a b = min a b := by
  change (if b < a then b else a) = min a b
  split
  · next hlt => exact (min_eq_right hlt.le).symm
  · next hle => exact (min_eq_left (not_lt.1 hle)).symm

end Weight

variable {ι κ : Type} {weightOf : ι → ℚ}

/-- The weight of items, all together. -/
def totalWeight (weightOf : ι → ℚ) (items : List ι) : ℚ := (items.map weightOf).sum

theorem totalWeight_append (items more : List ι) :
    totalWeight weightOf (items ++ more) =
      totalWeight weightOf items + totalWeight weightOf more := by
  rw [totalWeight, List.map_append, List.sum_append, totalWeight, totalWeight]

theorem totalWeight_nonneg {items : List ι} (h : ∀ item ∈ items, 0 ≤ weightOf item) :
    0 ≤ totalWeight weightOf items := by
  apply List.sum_nonneg
  simpa using h

/-- In exact arithmetic it makes no difference in which order weights are added. -/
theorem rowWeight_eq_totalWeight (row : List ι) :
    rowWeight weightOf row = totalWeight weightOf row := by
  induction row using List.reverseRecOn with
  | nil => rfl
  | append_singleton row item ih =>
    rw [totalWeight_append, ← ih]
    cases row with
    | nil => simp [rowWeight, totalWeight, Weight.zero]
    | cons first rest =>
      rw [rowWeight_concat weightOf (List.cons_ne_nil first rest)]
      simp [totalWeight]

namespace Block.IsRow

variable [BEq κ] {maxWeight : ℚ} {keyOf : ι → κ} {b : Block ι κ ℚ}

theorem weight_eq (h : b.IsRow maxWeight weightOf keyOf) :
    b.weight = totalWeight weightOf b.items.toList := by
  rw [h.weighed, rowWeight_eq_totalWeight]

/-- A block of several items stays within the greatest weight. -/
theorem totalWeight_le (h : b.IsRow maxWeight weightOf keyOf) :
    totalWeight weightOf b.items.toList ≤ maxWeight ∨ b.items.toList.length = 1 := by
  rcases Nat.lt_or_ge b.items.toList.length 2 with hshort | hlong
  · have := List.length_pos_of_ne_nil b.items_ne_nil
    exact .inr (by omega)
  · rw [← rowWeight_eq_totalWeight]
    exact .inl (h.bounded _ List.prefix_rfl hlong)

theorem weight_nonneg (h : b.IsRow maxWeight weightOf keyOf)
    (hweights : ∀ item ∈ b.items.toList, 0 ≤ weightOf item) : 0 ≤ b.weight := by
  rw [h.weight_eq]
  exact totalWeight_nonneg hweights

/-- No item is heavier than its block. -/
theorem weightOf_le (h : b.IsRow maxWeight weightOf keyOf)
    (hweights : ∀ item ∈ b.items.toList, 0 ≤ weightOf item) {item : ι}
    (hitem : item ∈ b.items.toList) : weightOf item ≤ b.weight := by
  rw [h.weight_eq]
  apply List.single_le_sum
  · simpa using hweights
  · exact List.mem_map_of_mem hitem

/-- An item that is heavier than a block may be is alone in its block. -/
theorem eq_singleton (h : b.IsRow maxWeight weightOf keyOf)
    (hweights : ∀ item ∈ b.items.toList, 0 ≤ weightOf item) {item : ι}
    (hitem : item ∈ b.items.toList) (hheavy : maxWeight < weightOf item) :
    b.items = #[item] := by
  rcases h.totalWeight_le with hbounded | hsingle
  · have hle := h.weightOf_le hweights hitem
    rw [h.weight_eq] at hle
    linarith
  · obtain ⟨other, hother⟩ := List.length_eq_one_iff.1 hsingle
    rw [hother, List.mem_singleton] at hitem
    rw [← Array.toList_inj, hother, hitem]

end Block.IsRow

namespace GreedyFrom

variable [BEq κ] {maxWeight : ℚ} {keyOf : ι → κ} {n : Nat} {items : List ι} {b : Block ι κ ℚ}
  {bs : List (Block ι κ ℚ)}

theorem mem_items {blocks : List (Block ι κ ℚ)}
    (h : GreedyFrom maxWeight weightOf keyOf n items blocks) (hb : b ∈ blocks) {item : ι}
    (hitem : item ∈ b.items.toList) : item ∈ items := by
  rw [← h.lossless]
  exact List.mem_flatMap.2 ⟨b, hb, hitem⟩

theorem append_eq (h : GreedyFrom maxWeight weightOf keyOf n items (b :: bs)) :
    b.items.toList ++ (bs.flatMap fun b => b.items.toList) = items := h.lossless

theorem items_ne_nil (h : GreedyFrom maxWeight weightOf keyOf n items (b :: bs)) : items ≠ [] := by
  rw [← h.append_eq]
  exact List.append_ne_nil_of_left_ne_nil b.items_ne_nil _

theorem totalWeight_eq (h : GreedyFrom maxWeight weightOf keyOf n items (b :: bs)) :
    totalWeight weightOf items =
      b.weight + totalWeight weightOf (bs.flatMap fun b => b.items.toList) := by
  rw [← h.append_eq, totalWeight_append, (h.rows b List.mem_cons_self).weight_eq]

/-- A greedy block was closed at the item behind it, which is of another group or would have been
too much. -/
theorem closed_at (h : GreedyFrom maxWeight weightOf keyOf n items (b :: bs)) {item : ι}
    {rest : List ι} (hrest : (bs.flatMap fun b => b.items.toList) = item :: rest) :
    (b.key == keyOf item) = false ∨ maxWeight < b.weight + weightOf item := by
  cases bs with
  | nil => cases hrest
  | cons c cs =>
    rw [List.flatMap_cons, c.items_eq_cons, List.cons_append] at hrest
    rw [← (List.cons.inj hrest).1]
    exact (List.isChain_cons_cons.1 h.closed).1.imp_right not_le.1

end GreedyFrom

namespace Splitter

/-- A greatest weight above zero is accepted, and the blocks are the greedy partition. -/
theorem exists_of_eq_ok [BEq κ] {maxWeight : ℚ} (hmax : 0 < maxWeight) (weightOf : ι → ℚ)
    (keyOf : ι → κ) (items : List ι) :
    ∃ s, of (items.map some) maxWeight weightOf keyOf = .ok s ∧ s.Drains s.blocks ∧
      IsGreedy maxWeight weightOf keyOf items s.blocks := by
  have hs : of (items.map some) maxWeight weightOf keyOf =
      .ok ⟨items.map some, maxWeight, weightOf, keyOf, none, 0, 0⟩ := if_pos (decide_eq_true hmax)
  exact ⟨_, hs, drains_blocks rfl, blocks_isGreedy hs⟩

end Splitter

end BatchRun
