import BatchRun.Tally.Basic

/-!
# Shared tallies

A tally that many workers merge into. Every merge into a key is one step, so none is lost; the
merge of a whole tally is a series of such steps, and merges of other workers may come in
between. The tally is reached through handles, and its contents can be taken out through any of
them.
-/

namespace BatchRun

open Std

/-- A tally and the handles through which it is still reached. -/
structure SharedTally (κ β : Type) [Ord κ] where
  tally : Tally κ β
  /-- For each handle in the order of their making, whether it is still there. -/
  handles : List Bool

namespace SharedTally

variable {κ β : Type} [Ord κ]

/-- An empty tally with one handle. -/
def new : SharedTally κ β := ⟨.empty, [true]⟩

/-- Make another handle, and say which. -/
def share (s : SharedTally κ β) : SharedTally κ β × Nat :=
  ({ s with handles := s.handles ++ [true] }, s.handles.length)

variable [TransOrd κ] [Mergeable β]

/-- Merge a value into a key, which is there before its value is merged. The merge is done in place,
so that one that faults leaves the parts before the fault merged. -/
def mergeInto (s : SharedTally κ β) (k : κ) (delta : β) : SharedTally κ β × Option Fault :=
  match s.tally.mergeInto k delta with
  | .ok tally => ({ s with tally }, none)
  | .error fault =>
    let left := Mergeable.InPlace.leaves delta (s.tally.get k)
    ({ s with tally := s.tally.set k left }, some fault)

/-- Merge values into keys, one after the other, up to the first fault. -/
def mergeEntries (s : SharedTally κ β) : List (κ × β) → SharedTally κ β × Option Fault
  | [] => (s, none)
  | (k, delta) :: rest =>
    match s.mergeInto k delta with
    | (s, none) => s.mergeEntries rest
    | (s, some fault) => (s, some fault)

/-- Merge every value of a tally. -/
def mergeTally (s : SharedTally κ β) (t : Tally κ β) : SharedTally κ β × Option Fault :=
  s.mergeEntries t.entries

/-- The contents through the first handle that is still there. -/
def snapshot (s : SharedTally κ β) : Option (Except Fault (Tally κ β)) :=
  if s.handles.any id then some s.tally.snapshot else none

/-- Give a handle up and take the contents out. -/
def takeOut (s : SharedTally κ β) (handle : Nat) : SharedTally κ β × Except Fault (Tally κ β) :=
  ({ s with handles := s.handles.set handle false }, s.tally.snapshot)

end SharedTally

end BatchRun
