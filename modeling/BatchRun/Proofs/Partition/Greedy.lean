import Mathlib.Data.List.Chain
import BatchRun.Partition.Splitter

/-!
# The greedy partition

The splitter is compared with a description that does not mention it: a partition of the items
into rows of neighbours, in which every row stays within the greatest weight item by item, and no
row could have taken the first item of the next one.

Nothing is asked of weights and keys. Sums may be rounded, comparisons may all fail, and a key
need not equal itself, so that no step may turn "not at most" into "more than".

## Main definitions

* `rowWeight`: the weight of a row, summed from its first item on
* `Block.IsRow`: what a single block of a greedy partition has to be
* `GreedyFrom`, `IsGreedy`: greedy partitions
* `Splitter.Drains`: the blocks of all calls up to the first that gives none

## Main results

* `GreedyFrom.unique`: there is at most one greedy partition
* `Splitter.greedyFrom_take`: a half-filled block and the items that are left
* `Splitter.blocks_greedy_iff`: the splitter hands out the greedy partition and nothing else
-/

namespace BatchRun

variable {ι κ W : Type} [Weight W]

/-- The weight of a row of items, summed from the first item to the last. -/
def rowWeight (weightOf : ι → W) : List ι → W
  | [] => Weight.zero
  | first :: rest => rest.foldl (fun sum item => sum + weightOf item) (weightOf first)

theorem rowWeight_concat (weightOf : ι → W) {row : List ι} (hrow : row ≠ []) (item : ι) :
    rowWeight weightOf (row ++ [item]) = rowWeight weightOf row + weightOf item := by
  obtain ⟨first, rest, rfl⟩ := List.exists_cons_of_ne_nil hrow
  simp [rowWeight, List.foldl_append]

namespace Block

/-- The first item of a block. -/
def first (b : Block ι κ W) : ι :=
  have := b.nonempty
  b.items[0]

omit [Weight W] in
theorem items_eq_cons (b : Block ι κ W) : b.items.toList = b.first :: b.items.toList.tail := by
  obtain ⟨_, _, _, ⟨items⟩, h⟩ := b
  cases items with
  | nil => simp at h
  | cons item rest => rfl

omit [Weight W] in
theorem items_ne_nil (b : Block ι κ W) : b.items.toList ≠ [] := by
  rw [items_eq_cons]
  exact List.cons_ne_nil _ _

omit [Weight W] in
theorem ext_row {b c : Block ι κ W} (hindex : b.index = c.index) (hkey : b.key = c.key)
    (hweight : b.weight = c.weight) (hitems : b.items.toList = c.items.toList) : b = c := by
  obtain ⟨_, _, _, ⟨_⟩, _⟩ := b
  obtain ⟨_, _, _, ⟨_⟩, _⟩ := c
  simp only at hindex hkey hweight hitems
  subst hindex hkey hweight hitems
  rfl

omit [Weight W] in
/-- A block that starts with the items of another one starts with its first item. -/
theorem first_eq_of_append {b c : Block ι κ W} {more : List ι}
    (h : c.items.toList = b.items.toList ++ more) : c.first = b.first := by
  rw [c.items_eq_cons, b.items_eq_cons, List.cons_append] at h
  exact (List.cons.inj h).1

/-- A block as a row of the given items: it has the key of its first item, which is the same as
that of each later one, it weighs what its items weigh, and it stays within the greatest weight
from its second item on. -/
structure IsRow [BEq κ] (maxWeight : W) (weightOf : ι → W) (keyOf : ι → κ) (b : Block ι κ W) :
    Prop where
  keyed : b.key = keyOf b.first
  grouped : ∀ item ∈ b.items.toList.tail, (b.key == keyOf item) = true
  weighed : b.weight = rowWeight weightOf b.items.toList
  bounded : ∀ row, row <+: b.items.toList → 2 ≤ row.length → rowWeight weightOf row ≤ maxWeight

end Block

/-- The blocks are a greedy partition of the items, numbered from `n` on. -/
structure GreedyFrom [BEq κ] (maxWeight : W) (weightOf : ι → W) (keyOf : ι → κ) (n : Nat)
    (items : List ι) (blocks : List (Block ι κ W)) : Prop where
  lossless : (blocks.flatMap fun b => b.items.toList) = items
  numbered : blocks.map (·.index) = List.range' n blocks.length
  rows : ∀ b ∈ blocks, b.IsRow maxWeight weightOf keyOf
  closed : blocks.IsChain fun b c =>
    (b.key == keyOf c.first) = false ∨ ¬ b.weight + weightOf c.first ≤ maxWeight

/-- The blocks are a greedy partition of the items: together they are the items in their order,
each has its position as its index, each is a row, and at every boundary the next block's first
item is of another group or would have been too much. -/
abbrev IsGreedy [BEq κ] (maxWeight : W) (weightOf : ι → W) (keyOf : ι → κ) (items : List ι)
    (blocks : List (Block ι κ W)) : Prop :=
  GreedyFrom maxWeight weightOf keyOf 0 items blocks

section Uniqueness

variable [BEq κ] {maxWeight : W} {weightOf : ι → W} {keyOf : ι → κ} {n : Nat} {items : List ι}

namespace GreedyFrom

theorem nil_iff {blocks : List (Block ι κ W)} :
    GreedyFrom maxWeight weightOf keyOf n [] blocks ↔ blocks = [] := by
  constructor
  · intro h
    cases blocks with
    | nil => rfl
    | cons b rest =>
      have hitems : b.items.toList = [] := by
        have hlossless := h.lossless
        rw [List.flatMap_cons, List.append_eq_nil_iff] at hlossless
        exact hlossless.1
      exact absurd hitems b.items_ne_nil
  · rintro rfl
    exact ⟨rfl, rfl, by simp, List.isChain_nil⟩

/-- The first block has the first number, and the others are numbered from the next one on. -/
theorem numbered_cons {b : Block ι κ W} {rest : List (Block ι κ W)}
    (h : GreedyFrom maxWeight weightOf keyOf n items (b :: rest)) :
    b.index = n ∧ rest.map (·.index) = List.range' (n + 1) rest.length := by
  have hnumbered := h.numbered
  rw [List.map_cons, List.length_cons, List.range'_succ] at hnumbered
  exact List.cons.inj hnumbered

/-- What follows the first block is a greedy partition of its own. -/
theorem tail {b : Block ι κ W} {rest : List (Block ι κ W)}
    (h : GreedyFrom maxWeight weightOf keyOf n items (b :: rest)) :
    GreedyFrom maxWeight weightOf keyOf (n + 1) (rest.flatMap fun c => c.items.toList) rest where
  lossless := rfl
  numbered := h.numbered_cons.2
  rows := fun c hc => h.rows c (List.mem_cons_of_mem _ hc)
  closed := h.closed.tail

/-- A greedy block cannot be a part of another greedy block that starts at the same item: the
item at which it was closed would not have fitted into the other one either. -/
theorem head_not_shorter {b c : Block ι κ W} {bs : List (Block ι κ W)} {more : List ι}
    (hb : GreedyFrom maxWeight weightOf keyOf n items (b :: bs))
    (hc : c.IsRow maxWeight weightOf keyOf) (hshorter : c.items.toList = b.items.toList ++ more)
    (hitems : more <+: bs.flatMap fun b => b.items.toList) : more = [] := by
  cases more with
  | nil => rfl
  | cons item more =>
    exfalso
    obtain ⟨b', bs', rfl⟩ : ∃ b' bs', bs = b' :: bs' := by
      cases bs with
      | nil => simp at hitems
      | cons b' bs' => exact ⟨b', bs', rfl⟩
    have hitem : item = b'.first := by
      rw [List.flatMap_cons, b'.items_eq_cons, List.cons_append, List.cons_prefix_cons] at hitems
      exact hitems.1
    have hrow := hb.rows b List.mem_cons_self
    have hkeys : b.key = c.key := by
      rw [hrow.keyed, hc.keyed, Block.first_eq_of_append hshorter]
    -- the longer block took the item, so that neither reason to close the shorter one holds
    have hfits : b.weight + weightOf item ≤ maxWeight := by
      rw [hrow.weighed, ← rowWeight_concat weightOf b.items_ne_nil]
      refine hc.bounded _ ⟨more, by simp [hshorter]⟩ ?_
      have := List.length_pos_of_ne_nil b.items_ne_nil
      simp only [List.length_append, List.length_cons, List.length_nil]
      omega
    have hsame : (b.key == keyOf item) = true := by
      rw [hkeys]
      apply hc.grouped item
      rw [hshorter, b.items_eq_cons]
      simp
    rcases (List.isChain_cons_cons.1 hb.closed).1 with hkey | hweight
    · rw [← hitem, hsame] at hkey
      exact absurd hkey (by simp)
    · exact hweight (hitem ▸ hfits)

/-- Two greedy partitions of the same items start with the same block. -/
theorem head_eq {b c : Block ι κ W} {bs cs : List (Block ι κ W)}
    (hb : GreedyFrom maxWeight weightOf keyOf n items (b :: bs))
    (hc : GreedyFrom maxWeight weightOf keyOf n items (c :: cs)) : b = c := by
  have happend : b.items.toList ++ (bs.flatMap fun b => b.items.toList) =
      c.items.toList ++ (cs.flatMap fun c => c.items.toList) := by
    have := hb.lossless.trans hc.lossless.symm
    rwa [List.flatMap_cons, List.flatMap_cons] at this
  -- one of the two blocks starts with the items of the other one
  have hitems : b.items.toList = c.items.toList := by
    rcases List.append_eq_append_iff.1 happend with ⟨more, hcb, hrest⟩ | ⟨more, hbc, hrest⟩
    · have hmore := hb.head_not_shorter (hc.rows c List.mem_cons_self) hcb ⟨_, hrest.symm⟩
      rw [hcb, hmore, List.append_nil]
    · have hmore := hc.head_not_shorter (hb.rows b List.mem_cons_self) hbc ⟨_, hrest.symm⟩
      rw [hbc, hmore, List.append_nil]
  have hfirst : b.first = c.first :=
    Block.first_eq_of_append (hitems.trans (List.append_nil _).symm)
  have hrowb := hb.rows b List.mem_cons_self
  have hrowc := hc.rows c List.mem_cons_self
  refine Block.ext_row ?_ ?_ ?_ hitems
  · rw [hb.numbered_cons.1, hc.numbered_cons.1]
  · rw [hrowb.keyed, hrowc.keyed, hfirst]
  · rw [hrowb.weighed, hrowc.weighed, hitems]

/-- A row in front of a greedy partition is one more block, if the first item that follows does not
belong to it. -/
theorem cons {b : Block ι κ W} {item : ι} {bs : List (Block ι κ W)} (hindex : b.index = n)
    (hrow : b.IsRow maxWeight weightOf keyOf)
    (hclosed : (b.key == keyOf item) = false ∨ ¬ b.weight + weightOf item ≤ maxWeight)
    (h : GreedyFrom maxWeight weightOf keyOf (n + 1) (item :: items) bs) :
    GreedyFrom maxWeight weightOf keyOf n (b.items.toList ++ item :: items) (b :: bs) where
  lossless := by rw [List.flatMap_cons, h.lossless]
  numbered := by
    rw [List.map_cons, h.numbered, hindex, List.length_cons, List.range'_succ]
  rows := by
    intro c hc
    rcases List.mem_cons.1 hc with rfl | hc
    · exact hrow
    · exact h.rows c hc
  closed := by
    cases bs with
    | nil => exact List.isChain_singleton _
    | cons c cs =>
      have hfirst : c.first = item := by
        have hlossless := h.lossless
        rw [List.flatMap_cons, c.items_eq_cons, List.cons_append] at hlossless
        exact (List.cons.inj hlossless).1
      exact List.isChain_cons_cons.2 ⟨hfirst ▸ hclosed, h.closed⟩

/-- There is at most one greedy partition. -/
theorem unique {bs cs : List (Block ι κ W)} (hb : GreedyFrom maxWeight weightOf keyOf n items bs)
    (hc : GreedyFrom maxWeight weightOf keyOf n items cs) : bs = cs := by
  induction bs generalizing n items cs with
  | nil =>
    obtain rfl : items = [] := hb.lossless.symm
    exact (nil_iff.1 hc).symm
  | cons b bs ih =>
    cases cs with
    | nil =>
      obtain rfl : items = [] := hc.lossless.symm
      exact nil_iff.1 hb
    | cons c cs =>
      obtain rfl := hb.head_eq hc
      have hrest : (cs.flatMap fun c => c.items.toList) = bs.flatMap fun b => b.items.toList := by
        have := hc.lossless.trans hb.lossless.symm
        rw [List.flatMap_cons, List.flatMap_cons] at this
        exact List.append_cancel_left this
      rw [ih hb.tail (hrest ▸ hc.tail)]

end GreedyFrom

end Uniqueness

namespace Splitter

variable [BEq κ]

/-- The blocks of all calls up to the first that gives none. -/
inductive Drains : Splitter ι κ W → List (Block ι κ W) → Prop
  | done {s s' : Splitter ι κ W} (h : s.next = (none, s')) : Drains s []
  | block {s s' : Splitter ι κ W} {b : Block ι κ W} {rest : List (Block ι κ W)}
      (h : s.next = (some b, s')) (hrest : Drains s' rest) : Drains s (b :: rest)

/-- The splitter with one more item in the block that is being filled. -/
def extend (s : Splitter ι κ W) (b : Block ι κ W) (item : ι) : Splitter ι κ W :=
  { s with filling := some (b.push item (s.weightOf item)), pulled := s.pulled + 1 }

theorem nextFrom_of_fits {s : Splitter ι κ W} {b : Block ι κ W} {item : ι}
    (hfilling : s.filling = some b) (hfits : s.fits b item = true) (rest : List (Option ι)) :
    s.nextFrom (some item :: rest) = (s.extend b item).nextFrom rest := by
  simp only [nextFrom, hfilling, hfits, ↓reduceIte, extend]

theorem nextFrom_of_not_fits {s : Splitter ι κ W} {b : Block ι κ W} {item : ι}
    (hfilling : s.filling = some b) (hfits : s.fits b item = false) (rest : List (Option ι)) :
    s.nextFrom (some item :: rest) = (some b, { s.begin item with source := rest }) := by
  simp only [nextFrom, hfilling, hfits, Bool.false_eq_true, ↓reduceIte]

/-- The outcome of a call does not depend on what the source would have answered otherwise. -/
theorem nextFrom_source (s : Splitter ι κ W) (source answers : List (Option ι)) :
    ({ s with source } : Splitter ι κ W).nextFrom answers = s.nextFrom answers := by
  induction answers generalizing s with
  | nil => rfl
  | cons answer rest ih =>
    cases answer with
    | none => rfl
    | some item =>
      obtain ⟨source', maxWeight, weightOf, keyOf, filling, started, pulled⟩ := s
      cases filling with
      | none => exact ih (begin ⟨source', maxWeight, weightOf, keyOf, none, started, pulled⟩ item)
      | some b =>
        cases hfits :
            fits ⟨source', maxWeight, weightOf, keyOf, some b, started, pulled⟩ b item with
        | true =>
          rw [nextFrom_of_fits rfl hfits, nextFrom_of_fits rfl (hfits ▸ rfl)]
          exact ih (extend ⟨source', maxWeight, weightOf, keyOf, some b, started, pulled⟩ b item)
        | false =>
          rw [nextFrom_of_not_fits rfl hfits, nextFrom_of_not_fits rfl (hfits ▸ rfl)]
          rfl

/-- The splitter with a block that is being filled and the items that are left. -/
def fillingWith (s : Splitter ι κ W) (b : Block ι κ W) (rest : List ι) : Splitter ι κ W :=
  { s with filling := some b, source := rest.map some, started := b.index + 1 }

theorem next_fillingWith_of_fits {s : Splitter ι κ W} {b : Block ι κ W} {item : ι}
    (hfits : s.fits b item = true) (rest : List ι) :
    (s.fillingWith b (item :: rest)).next =
      ((s.extend b item).fillingWith (b.push item (s.weightOf item)) rest).next :=
  (nextFrom_of_fits (s := s.fillingWith b (item :: rest)) rfl hfits _).trans
    (nextFrom_source _ (rest.map some) _).symm

theorem next_fillingWith_of_not_fits {s : Splitter ι κ W} {b : Block ι κ W} {item : ι}
    (hfits : s.fits b item = false) (rest : List ι) :
    (s.fillingWith b (item :: rest)).next =
      (some b, ((s.fillingWith b rest).begin item).fillingWith
        (.start (b.index + 1) (s.keyOf item) item (s.weightOf item)) rest) :=
  nextFrom_of_not_fits (s := s.fillingWith b (item :: rest)) rfl hfits _

/-- Without items that are left the block that is being filled is the last one. -/
theorem take_fillingWith_nil (s : Splitter ι κ W) (b : Block ι κ W) (calls : Nat) :
    (s.fillingWith b []).take (calls + 1) = [b] := by
  cases calls <;> rfl

/-- Calls that start with the same state give the same blocks. -/
theorem take_congr {s t : Splitter ι κ W} (h : s.next = t.next) (calls : Nat) :
    s.take calls = t.take calls := by
  cases calls with
  | zero => rfl
  | succ calls => rw [take, take, h]

theorem take_of_next_some {s s' : Splitter ι κ W} {b : Block ι κ W} (h : s.next = (some b, s'))
    (calls : Nat) : s.take (calls + 1) = b :: s'.take calls := by
  rw [take, h]

section Greedy

variable {maxWeight : W} {weightOf : ι → W} {keyOf : ι → κ}

omit [BEq κ] in
/-- A block of one item is a row: there is no later item to ask anything of. -/
theorem isRow_start [BEq κ] (n : Nat) (item : ι) :
    (Block.start n (keyOf item) item (weightOf item)).IsRow maxWeight weightOf keyOf where
  keyed := rfl
  grouped := by simp [Block.start]
  weighed := rfl
  bounded := by
    intro row hrow hlength
    have := hrow.length_le
    simp only [Block.start, List.length_cons, List.length_nil] at this
    omega

omit [BEq κ] in
/-- A row stays a row when an item goes into it that belongs to it. -/
theorem isRow_push [BEq κ] {b : Block ι κ W} {item : ι} (hrow : b.IsRow maxWeight weightOf keyOf)
    (hkey : (b.key == keyOf item) = true) (hweight : b.weight + weightOf item ≤ maxWeight) :
    (b.push item (weightOf item)).IsRow maxWeight weightOf keyOf := by
  have hitems : (b.push item (weightOf item)).items.toList = b.items.toList ++ [item] := by
    simp [Block.push]
  have hfirst : (b.push item (weightOf item)).first = b.first := Block.first_eq_of_append hitems
  have hsum : rowWeight weightOf (b.items.toList ++ [item]) = b.weight + weightOf item := by
    rw [rowWeight_concat weightOf b.items_ne_nil, hrow.weighed]
  refine ⟨?_, ?_, ?_, ?_⟩
  · rw [hfirst]
    exact hrow.keyed
  · intro later hlater
    rw [hitems, List.tail_append_of_ne_nil b.items_ne_nil, List.mem_append,
      List.mem_singleton] at hlater
    rcases hlater with hold | rfl
    · exact hrow.grouped later hold
    · exact hkey
  · rw [hitems, hsum]
    rfl
  · -- only the whole row is new among its prefixes
    intro row hshorter hlength
    rw [hitems, List.prefix_concat_iff] at hshorter
    rcases hshorter with rfl | hold
    · rw [hsum]
      exact hweight
    · exact hrow.bounded row hold hlength

end Greedy

/-- The blocks of a splitter that is filling a row, with enough calls for the items that are left,
are the greedy partition of that row and those items. -/
theorem greedyFrom_take (s : Splitter ι κ W) (b : Block ι κ W) (rest : List ι) {calls : Nat}
    (hrow : b.IsRow s.maxWeight s.weightOf s.keyOf) (hcalls : rest.length + 1 ≤ calls) :
    GreedyFrom s.maxWeight s.weightOf s.keyOf b.index (b.items.toList ++ rest)
      ((s.fillingWith b rest).take calls) := by
  -- the induction is on the items that are left; the block that is being filled comes along
  induction rest generalizing s b calls with
  | nil =>
    obtain ⟨calls, rfl⟩ := Nat.exists_eq_add_of_le' hcalls
    rw [List.length_nil, Nat.zero_add, take_fillingWith_nil, List.append_nil]
    exact ⟨by simp, rfl, by simpa using hrow, List.isChain_singleton _⟩
  | cons item rest ih =>
    rw [List.length_cons] at hcalls
    cases hfits : s.fits b item with
    | true =>
      -- the item goes into the block, and no call returns
      obtain ⟨hkey, hweight⟩ : (b.key == s.keyOf item) = true ∧
          b.weight + s.weightOf item ≤ s.maxWeight := by
        simpa [fits] using hfits
      have hpushed : GreedyFrom s.maxWeight s.weightOf s.keyOf b.index
          ((b.push item (s.weightOf item)).items.toList ++ rest)
          (((s.extend b item).fillingWith (b.push item (s.weightOf item)) rest).take calls) :=
        ih (s.extend b item) _ (isRow_push hrow hkey hweight) (by omega)
      rw [take_congr (next_fillingWith_of_fits hfits rest)]
      simpa [Block.push] using hpushed
    | false =>
      -- the call returns the block, and the item starts the next one
      obtain ⟨calls, rfl⟩ : ∃ k, calls = k + 1 := ⟨calls - 1, by omega⟩
      have hclosed : (b.key == s.keyOf item) = false ∨
          ¬ b.weight + s.weightOf item ≤ s.maxWeight := by
        simpa only [fits, Bool.and_eq_false_iff, decide_eq_false_iff_not] using hfits
      have hnext : GreedyFrom s.maxWeight s.weightOf s.keyOf (b.index + 1) (item :: rest)
          ((((s.fillingWith b rest).begin item).fillingWith
            (.start (b.index + 1) (s.keyOf item) item (s.weightOf item)) rest).take calls) :=
        ih ((s.fillingWith b rest).begin item) _ (isRow_start _ item) (by omega)
      rw [take_of_next_some (next_fillingWith_of_not_fits hfits rest)]
      exact .cons rfl hrow hclosed hnext

omit [BEq κ] in
/-- A splitter that is not refused has read nothing. -/
theorem eq_of_of_eq_ok {source : List (Option ι)} {maxWeight : W} {weightOf : ι → W}
    {keyOf : ι → κ} {s : Splitter ι κ W} (h : of source maxWeight weightOf keyOf = .ok s) :
    s = ⟨source, maxWeight, weightOf, keyOf, none, 0, 0⟩ := by
  simp only [of] at h
  split at h
  · exact (Except.ok.inj h).symm
  · cases h

/-- All blocks of a new splitter are a greedy partition. -/
theorem blocks_isGreedy {items : List ι} {maxWeight : W} {weightOf : ι → W} {keyOf : ι → κ}
    {s : Splitter ι κ W} (h : of (items.map some) maxWeight weightOf keyOf = .ok s) :
    IsGreedy maxWeight weightOf keyOf items s.blocks := by
  obtain rfl := eq_of_of_eq_ok h
  cases items with
  | nil => exact GreedyFrom.nil_iff.2 rfl
  | cons item rest =>
    -- the first call is as if the first item had been taken before it
    have hfirst : next ⟨some item :: rest.map some, maxWeight, weightOf, keyOf, none, 0, 0⟩ =
        (fillingWith ⟨[], maxWeight, weightOf, keyOf, none, 1, 1⟩
          (.start 0 (keyOf item) item (weightOf item)) rest).next :=
      (nextFrom_source _ (rest.map some) _).symm
    rw [blocks, List.map_cons, List.length_cons, List.length_map, take_congr hfirst]
    exact greedyFrom_take ⟨[], maxWeight, weightOf, keyOf, none, 1, 1⟩
      (.start 0 (keyOf item) item (weightOf item)) rest (isRow_start 0 item) (by omega)

/-- The blocks that a splitter can still give, at most: one for each answer, and the one that is
being filled. -/
def room (s : Splitter ι κ W) : Nat := s.source.length + s.filling.toList.length

/-- Each block that is given leaves less room. -/
theorem room_of_nextFrom {s s' : Splitter ι κ W} {answers : List (Option ι)} {b : Block ι κ W}
    (h : s.nextFrom answers = (some b, s')) :
    s'.room < answers.length + s.filling.toList.length := by
  induction answers generalizing s with
  | nil =>
    obtain ⟨hb, rfl⟩ := Prod.mk.inj h
    simp [room, hb]
  | cons answer rest ih =>
    rw [List.length_cons]
    cases answer with
    | none =>
      obtain ⟨hb, rfl⟩ := Prod.mk.inj h
      simp [room, hb]
    | some item =>
      cases hfilling : s.filling with
      | none =>
        simp only [nextFrom, hfilling] at h
        have := ih h
        simp only [begin, Option.toList_some, List.length_cons, List.length_nil] at this
        simp only [Option.toList_none, List.length_nil]
        omega
      | some c =>
        rw [Option.toList_some, List.length_singleton]
        cases hfits : s.fits c item with
        | true =>
          rw [nextFrom_of_fits hfilling hfits] at h
          have := ih h
          simp only [extend, Option.toList_some, List.length_cons, List.length_nil] at this
          omega
        | false =>
          rw [nextFrom_of_not_fits hfilling hfits] at h
          obtain ⟨-, rfl⟩ := Prod.mk.inj h
          simp [room, begin]

/-- As many calls as there is room for drain the splitter. -/
theorem drains_take (s : Splitter ι κ W) {calls : Nat} (hcalls : s.room ≤ calls) :
    s.Drains (s.take calls) := by
  induction calls generalizing s with
  | zero =>
    apply Drains.done
    simp only [room, Nat.le_zero, Nat.add_eq_zero_iff, List.length_eq_zero_iff,
      Option.toList_eq_nil_iff] at hcalls
    rw [next, hcalls.1, nextFrom, hcalls.2]
  | succ calls ih =>
    rw [take]
    rcases hnext : s.next with ⟨_ | b, s'⟩
    · exact .done hnext
    · have hroom : s'.room < s.room := room_of_nextFrom hnext
      exact .block hnext (ih s' (by omega))

/-- Draining takes no more calls than there are answers, and one. -/
theorem drains_blocks {s : Splitter ι κ W} (h : s.filling = none) : s.Drains s.blocks :=
  drains_take s (by simp [room, h])

/-- A new splitter, drained, gives the one and only greedy partition of its items. -/
theorem blocks_greedy_iff {items : List ι} {maxWeight : W} {weightOf : ι → W} {keyOf : ι → κ}
    {s : Splitter ι κ W} (h : of (items.map some) maxWeight weightOf keyOf = .ok s) :
    s.Drains s.blocks ∧
      ∀ blocks, IsGreedy maxWeight weightOf keyOf items blocks ↔ blocks = s.blocks := by
  have hfilling : s.filling = none := by rw [eq_of_of_eq_ok h]
  refine ⟨drains_blocks hfilling, ?_⟩
  intro blocks
  constructor
  · intro hblocks
    exact hblocks.unique (blocks_isGreedy h)
  · rintro rfl
    exact blocks_isGreedy h

/-- Weights for which comparisons fail: a block whose weight is not a number takes nothing, and
nothing takes an item of such a weight, but an item of infinitely small weight always fits. -/
theorem blocks_greedy_iff_of_odd_weights :
    let weightOf : Nat → Float := fun n => [2.0, 0.0 / 0.0, 1.0, -1.0 / 0.0].getD n 0.0
    let s : Splitter Nat Unit Float :=
      ⟨[0, 1, 2, 3].map some, 3.0, weightOf, fun _ => (), none, 0, 0⟩
    of ([0, 1, 2, 3].map some) 3.0 weightOf (fun _ => ()) = .ok s ∧
      s.blocks.map (·.items) = [#[0], #[1], #[2, 3]] ∧
      s.Drains s.blocks ∧ IsGreedy 3.0 weightOf (fun _ => ()) [0, 1, 2, 3] s.blocks := by
  intro weightOf s
  have hs : of ([0, 1, 2, 3].map some) 3.0 weightOf (fun _ => ()) = .ok s := if_pos (by decide)
  have hgreedy := blocks_greedy_iff hs
  exact ⟨hs, by decide, hgreedy.1, (hgreedy.2 s.blocks).2 rfl⟩

end Splitter

end BatchRun
