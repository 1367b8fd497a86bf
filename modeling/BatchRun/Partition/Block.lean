import BatchRun.Partition.Weight
import BatchRun.Workload

/-!
# Blocks

A block is a row of neighbouring items of one group that are worked on together. Its weight is
the sum of its items' weights from the first to the last.
-/

namespace BatchRun

/-- Neighbouring items of one group. -/
structure Block (ι κ W : Type) where
  /-- The position of the block among all blocks of its sequence. -/
  index : Nat
  key : κ
  weight : W
  items : Array ι
  nonempty : 0 < items.size

namespace Block

variable {ι κ W : Type}

/-- A block of one item. -/
def start (index : Nat) (key : κ) (item : ι) (weight : W) : Block ι κ W :=
  ⟨index, key, weight, #[item], by simp⟩

/-- The block with one more item. -/
def push [Add W] (b : Block ι κ W) (item : ι) (weight : W) : Block ι κ W :=
  ⟨b.index, b.key, b.weight + weight, b.items.push item, by simp⟩

/-- The number of items. -/
def size (b : Block ι κ W) : Nat := b.items.size

/-- The label that a failure of the block's task carries. -/
def label [Described κ] [Weight W] (b : Block ι κ W) : String :=
  "block #" ++ toString b.index ++ " group=" ++ Described.describe b.key ++ " items=" ++
    toString b.size ++ " weight=" ++ Weight.text b.weight

/-- A block reports one unit for each item. -/
instance [Described κ] [Weight W] : Workload (Block ι κ W) where
  units := size
  label := label

end Block

end BatchRun
