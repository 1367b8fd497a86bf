import BatchRun.Partition.Block
import BatchRun.Partition.WorkItem

/-!
# Splitting items into blocks

The splitter reads items one by one and puts each into the block that is being filled, as long as
the item belongs to its group and does not take it over the greatest weight. The first item that
does not fit closes the block and starts the next one, so that a single item is all that is ever
read ahead, and an item heavier than the greatest weight ends up in a block of its own.

A source answers each question with an item or with nothing. After its first nothing it is not
asked again, whatever it would answer then.

## Main definitions

* `Splitter`: the block being filled and what the source still answers
* `Splitter.next`: the next block
* `maxBlockWeight`: a greatest weight that is derived from the weight of all items
-/

namespace BatchRun

/-- A source of items that is being split into blocks. -/
structure Splitter (ι κ W : Type) where
  /-- The answers that the source has still to give. -/
  source : List (Option ι)
  maxWeight : W
  weightOf : ι → W
  keyOf : ι → κ
  /-- The block that is being filled. -/
  filling : Option (Block ι κ W)
  /-- Blocks handed out or being filled. -/
  started : Nat
  /-- Items read from the source. -/
  pulled : Nat

namespace Splitter

variable {ι κ ρ W : Type} [Weight W]

/-- A splitter that has read nothing, unless the greatest weight is not above zero. -/
def of (source : List (Option ι)) (maxWeight : W) (weightOf : ι → W) (keyOf : ι → κ) :
    Except RunError (Splitter ι κ W) :=
  if Weight.isPositive maxWeight then
    .ok ⟨source, maxWeight, weightOf, keyOf, none, 0, 0⟩
  else .error (.invalidSetting "max_weight" (.notPositive (Weight.text maxWeight)))

/-- A splitter that goes by weight alone: all items are of one group. -/
def ungrouped (source : List (Option ι)) (maxWeight : W) (weightOf : ι → W) :
    Except RunError (Splitter ι Unit W) :=
  of source maxWeight weightOf fun _ => ()

/-- A splitter of work items by their own weights and keys. -/
def ofItems (source : List (Option (WorkItem W κ ρ))) (maxWeight : W) :
    Except RunError (Splitter (WorkItem W κ ρ) κ W) :=
  of source maxWeight (·.weight) (·.key)

/-- Whether an item goes into a block. -/
def fits [BEq κ] (s : Splitter ι κ W) (b : Block ι κ W) (item : ι) : Bool :=
  b.key == s.keyOf item && decide (b.weight + s.weightOf item ≤ s.maxWeight)

/-- The splitter after it has read an item that starts a block. -/
def begin (s : Splitter ι κ W) (item : ι) : Splitter ι κ W :=
  { s with
    filling := some (.start s.started (s.keyOf item) item (s.weightOf item))
    started := s.started + 1
    pulled := s.pulled + 1 }

/-- The next block, with the answers of the source as far as they are needed. -/
def nextFrom [BEq κ] (s : Splitter ι κ W) :
    List (Option ι) → Option (Block ι κ W) × Splitter ι κ W
  -- after its first nothing the source is asked no more
  | [] | none :: _ => (s.filling, { s with source := [], filling := none })
  | some item :: rest =>
    match s.filling with
    | none => (s.begin item).nextFrom rest
    | some block =>
      if s.fits block item then
        { s with
          filling := some (block.push item (s.weightOf item))
          pulled := s.pulled + 1 }.nextFrom rest
      -- the item that did not fit is not read again: it starts the next block
      else (some block, { s.begin item with source := rest })

/-- The next block, or none when all items are handed out. -/
def next [BEq κ] (s : Splitter ι κ W) : Option (Block ι κ W) × Splitter ι κ W :=
  s.nextFrom s.source

/-- The blocks of the next calls, at most as many as asked for. -/
def take [BEq κ] : Nat → Splitter ι κ W → List (Block ι κ W)
  | 0, _ => []
  | n + 1, s =>
    match s.next with
    | (none, _) => []
    | (some block, s) => block :: take n s

/-- All blocks. There are no more of them than items, and the one being filled. -/
def blocks [BEq κ] (s : Splitter ι κ W) : List (Block ι κ W) := s.take (s.source.length + 1)

end Splitter

/-- A greatest weight for blocks: an even share of the total weight for each of the concurrent
tasks, rounded up, and no more than the cap. A total of zero counts as one. -/
def maxBlockWeight {W : Type} [Weight W] (total : W) (concurrentTasks : Nat) (cap : Option W) :
    Except RunError W :=
  if concurrentTasks = 0 then .error (.invalidSetting "concurrent_tasks" .zero)
  else if !Weight.isOrdinary total then
    .error (.invalidSetting "total_weight" (.notFiniteNonnegative (Weight.text total)))
  else
    let share := Weight.share total concurrentTasks
    -- a total of zero has no positive share
    let weight := if Weight.isPositive share then share else Weight.one
    match cap with
    | none => .ok weight
    | some cap =>
      if Weight.isPositive cap then .ok (Weight.least weight cap)
      else .error (.invalidSetting "weight_cap" (.notPositive (Weight.text cap)))

end BatchRun
