import BatchRun.Proofs.Partition.Exact

/-!
# No partition has fewer blocks

A greedy block ends where its items and the next one could not be together. Any other way to divide
the items into rows therefore ends its first row no later than the first greedy block ends, its
second row no later than the second one, and so on: the greedy partition stays ahead, and it is
through with the items when the other one is.

What is asked of weights is that sums are exact and that no item weighs less than nothing. Keys are
compared from left to right only, so that the bound holds for any comparison at all; that the blocks
are such rows themselves takes a comparison that is symmetric and transitive. It need not be
reflexive: an item whose key is not even the same as itself has a row of its own.

## Main definitions

* `IsAllowed`: rows of items that may be together
* `IsDivision`: the items divided into such rows

## Main results

* `GreedyFrom.prefix_of_isAllowed`: a greedy block takes all that a row could have taken
* `GreedyFrom.length_le`: the greedy partition stays ahead of any division
* `Splitter.blocks_optimal`: no division has fewer rows than the splitter gives blocks
-/

namespace BatchRun

variable {ι κ : Type} [BEq κ]

/-- A row of items of one group that stays within the greatest weight, or is a single item. -/
structure IsAllowed (maxWeight : ℚ) (weightOf : ι → ℚ) (keyOf : ι → κ) (row : List ι) : Prop where
  grouped : row.Pairwise fun a b => (keyOf a == keyOf b) = true
  bounded : totalWeight weightOf row ≤ maxWeight ∨ row.length = 1

/-- The items, divided into rows of neighbours that are not empty and may be together. -/
structure IsDivision (maxWeight : ℚ) (weightOf : ι → ℚ) (keyOf : ι → κ) (items : List ι)
    (rows : List (List ι)) : Prop where
  lossless : rows.flatten = items
  nonempty : ∀ row ∈ rows, row ≠ []
  allowed : ∀ row ∈ rows, IsAllowed maxWeight weightOf keyOf row

variable {maxWeight : ℚ} {weightOf : ι → ℚ} {keyOf : ι → κ}

/-- What is left of an allowed row when items are taken from its front is a single item, or allowed
for its weight. -/
theorem IsAllowed.of_append {front part : List ι}
    (h : IsAllowed maxWeight weightOf keyOf (front ++ part))
    (hweights : ∀ item ∈ front, 0 ≤ weightOf item) (hpart : part ≠ []) :
    IsAllowed maxWeight weightOf keyOf part where
  grouped := (List.pairwise_append.1 h.grouped).2.1
  bounded := by
    rcases h.bounded with hbounded | hsingle
    · rw [totalWeight_append] at hbounded
      have := totalWeight_nonneg hweights
      exact .inl (by linarith)
    · rw [List.length_append] at hsingle
      have := List.length_pos_of_ne_nil hpart
      exact .inr (by omega)

/-- The items of a greedy block are an allowed row. -/
theorem Block.IsRow.isAllowed [PartialEquivBEq κ] {b : Block ι κ ℚ}
    (h : b.IsRow maxWeight weightOf keyOf) :
    IsAllowed maxWeight weightOf keyOf b.items.toList where
  grouped := by
    have hfirst := h.grouped
    rw [h.keyed] at hfirst
    rw [b.items_eq_cons, List.pairwise_cons]
    refine ⟨hfirst, ?_⟩
    -- both are of the group of the first item
    exact List.pairwise_of_forall_mem_list fun a ha b hb =>
      PartialEquivBEq.trans (PartialEquivBEq.symm (hfirst a ha)) (hfirst b hb)
  bounded := h.totalWeight_le

namespace GreedyFrom

variable {n : Nat} {items : List ι} {b : Block ι κ ℚ} {bs : List (Block ι κ ℚ)}

/-- The first block takes all items that an allowed row could take. -/
theorem prefix_of_isAllowed (h : GreedyFrom maxWeight weightOf keyOf n items (b :: bs))
    {part : List ι} (hweights : ∀ item ∈ part, 0 ≤ weightOf item)
    (hpart : IsAllowed maxWeight weightOf keyOf part) (hfront : part <+: items) :
    part <+: b.items.toList := by
  rcases List.prefix_or_prefix_of_prefix hfront ⟨_, h.append_eq⟩ with hshorter | ⟨more, hlonger⟩
  · exact hshorter
  cases more with
  | nil => exact ⟨[], by rw [← hlonger, List.append_nil, List.append_nil]⟩
  | cons item more =>
    exfalso
    obtain ⟨rest, hrest⟩ := hfront
    rw [← h.append_eq, ← hlonger, List.append_assoc, List.cons_append] at hrest
    have hrow := h.rows b List.mem_cons_self
    rcases h.closed_at (List.append_cancel_left hrest).symm with hkey | hweight
    · -- the row has the first item of the block and this one, which are of one group
      have hgrouped := hpart.grouped
      rw [← hlonger, b.items_eq_cons, List.cons_append, List.pairwise_cons] at hgrouped
      rw [hrow.keyed, hgrouped.1 item (by simp)] at hkey
      cases hkey
    · -- the row has the block and this item, which are too heavy together
      rcases hpart.bounded with hbounded | hsingle
      · have hmore : 0 ≤ totalWeight weightOf more :=
          totalWeight_nonneg fun other hother => hweights other (by rw [← hlonger]; simp [hother])
        rw [← hlonger, List.append_cons, totalWeight_append, totalWeight_append,
          ← hrow.weight_eq] at hbounded
        simp only [totalWeight, List.map_cons, List.map_nil, List.sum_singleton] at hbounded hmore
        linarith
      · have := List.length_pos_of_ne_nil b.items_ne_nil
        rw [← hlonger, List.length_append, List.length_cons] at hsingle
        omega

/-- A greedy partition that is ahead by some items has no more blocks than a division of all items
has rows. -/
theorem length_le {blocks : List (Block ι κ ℚ)}
    (h : GreedyFrom maxWeight weightOf keyOf n items blocks) {rows : List (List ι)}
    {front : List ι} (hrows : ∀ row ∈ rows, IsAllowed maxWeight weightOf keyOf row)
    (hweights : ∀ item ∈ rows.flatten, 0 ≤ weightOf item)
    (hflatten : rows.flatten = front ++ items) : blocks.length ≤ rows.length := by
  -- the induction is on the rows; the items that the partition is ahead by come along
  induction rows generalizing front items n blocks with
  | nil =>
    obtain ⟨-, rfl⟩ := List.append_eq_nil_iff.1 hflatten.symm
    rw [nil_iff.1 h]
    exact Nat.le_refl _
  | cons row rows ih =>
    obtain ⟨hrow, hrest⟩ := List.forall_mem_cons.1 hrows
    rw [List.flatten_cons, List.forall_mem_append] at hweights
    obtain ⟨hweight, hweights⟩ := hweights
    rw [List.flatten_cons, List.append_eq_append_iff] at hflatten
    rcases hflatten with ⟨front', -, hflatten⟩ | ⟨part, rfl, hitems⟩
    · -- the partition is ahead by the whole row
      have := ih h hrest hweights hflatten
      rw [List.length_cons]
      omega
    · cases blocks with
      | nil => exact Nat.zero_le _
      | cons b bs =>
        -- the first block takes what is left of the row, and maybe more
        rw [List.forall_mem_append] at hweight
        obtain ⟨front', hfront⟩ : part <+: b.items.toList := by
          by_cases hpart : part = []
          · exact hpart ▸ List.nil_prefix
          · exact h.prefix_of_isAllowed hweight.2 (hrow.of_append hweight.1 hpart)
              ⟨_, hitems.symm⟩
        have hlossless := h.append_eq
        rw [← hfront, hitems, List.append_assoc] at hlossless
        have := ih h.tail hrest hweights (List.append_cancel_left hlossless).symm
        rw [List.length_cons, List.length_cons]
        omega

end GreedyFrom

namespace Splitter

/-- In exact arithmetic an item that is too heavy is alone in its block, and the items cannot be
divided into fewer rows than there are blocks, which are such rows themselves. -/
theorem blocks_optimal [PartialEquivBEq κ] {items : List ι} (keyOf : ι → κ) (hmax : 0 < maxWeight)
    (hweights : ∀ item ∈ items, 0 ≤ weightOf item) :
    ∃ s, of (items.map some) maxWeight weightOf keyOf = .ok s ∧ s.Drains s.blocks ∧
      (∀ b ∈ s.blocks, ∀ item ∈ b.items, maxWeight < weightOf item → b.items = #[item]) ∧
      IsDivision maxWeight weightOf keyOf items (s.blocks.map fun b => b.items.toList) ∧
      ∀ rows, IsDivision maxWeight weightOf keyOf items rows → s.blocks.length ≤ rows.length := by
  obtain ⟨s, hs, hdrains, hgreedy⟩ := exists_of_eq_ok hmax weightOf keyOf items
  refine ⟨s, hs, hdrains, ?_, ⟨?_, ?_, ?_⟩, ?_⟩
  · intro b hb item hitem hheavy
    have hblock : ∀ item ∈ b.items.toList, 0 ≤ weightOf item :=
      fun other hother => hweights other (hgreedy.mem_items hb hother)
    exact (hgreedy.rows b hb).eq_singleton hblock (Array.mem_toList_iff.2 hitem) hheavy
  · rw [← List.flatMap_def, hgreedy.lossless]
  · rw [List.forall_mem_map]
    exact fun b _ => b.items_ne_nil
  · rw [List.forall_mem_map]
    exact fun b hb => (hgreedy.rows b hb).isAllowed
  · intro rows hrows
    have hflatten : rows.flatten = [] ++ items := hrows.lossless
    exact hgreedy.length_le hrows.allowed (hflatten ▸ hweights) hflatten

/-- An item that is too heavy, and behind it one of another group that weighs nothing. The weights
are sixths, which no binary fraction is. -/
theorem blocks_optimal_of_oversized :
    let weightOf : Nat → ℚ := fun n => [1 / 6, 1 / 3, 7 / 6, 0, 1 / 6].getD n 0
    let keyOf : Nat → Bool := fun n => n < 3
    let s : Splitter Nat Bool ℚ := ⟨(List.range 5).map some, 1 / 2, weightOf, keyOf, none, 0, 0⟩
    (0 : ℚ) < 1 / 2 ∧ (∀ item ∈ List.range 5, 0 ≤ weightOf item) ∧
      of ((List.range 5).map some) (1 / 2) weightOf keyOf = .ok s ∧
      s.blocks.map (·.items) = [#[0, 1], #[2], #[3, 4]] ∧
      ∀ rows, IsDivision (1 / 2) weightOf keyOf (List.range 5) rows → 3 ≤ rows.length := by
  intro weightOf keyOf s
  have hmax : (0 : ℚ) < 1 / 2 := by norm_num
  have hweights : ∀ item ∈ List.range 5, 0 ≤ weightOf item := by decide +kernel
  have hblocks : s.blocks.map (·.items) = [#[0, 1], #[2], #[3, 4]] := by decide +kernel
  obtain ⟨t, ht, -, -, -, hleast⟩ := blocks_optimal keyOf hmax hweights
  obtain rfl := eq_of_of_eq_ok ht
  have hlength : s.blocks.length = 3 := by rw [← List.length_map, hblocks]; rfl
  exact ⟨hmax, hweights, ht, hblocks, fun rows hrows => hlength ▸ hleast rows hrows⟩

end Splitter

end BatchRun
