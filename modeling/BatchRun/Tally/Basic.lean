import BatchRun.SortedMap
import BatchRun.Tally.Mergeable

/-!
# Tallies

A tally maps keys to values that are merged. Reading a key that was never touched gives the
neutral value, and merging two tallies merges the values key by key. Nothing is ever removed.

A value that comes to a new key is merged into the neutral value, like any other. For numbers
this is visible in one place only: a first `-0.0` becomes `0.0`.

## Main definitions

* `Tally`: keys in increasing order with their values
* `mergeInto`, `mergeTally`, `mergeEntries`: all the ways in which a value reaches a key
-/

namespace BatchRun

open Std

/-- Keys with values that are merged. -/
structure Tally (κ β : Type) [Ord κ] where
  map : SortedMap κ β

namespace Tally

variable {κ β : Type} [Ord κ]

@[ext] theorem ext {s t : Tally κ β} (h : s.map = t.map) : s = t := by
  cases s; cases t; cases h; rfl

instance [DecidableEq κ] [DecidableEq β] : DecidableEq (Tally κ β) := fun s t =>
  if h : s.map = t.map then isTrue (ext h) else isFalse fun e => h (e ▸ rfl)

/-- The tally without keys. -/
def empty : Tally κ β := ⟨.empty⟩

instance : Inhabited (Tally κ β) := ⟨empty⟩

/-- The most keys that room can be made for: seven eighths of the places of the largest table. -/
def mostKeys : Nat := 7 * (UInt64.size / 256) / 8

/-- The tally without keys, after room was made for some. -/
def withRoom (keys : Nat) : Except Fault (Tally κ β) :=
  if mostKeys < keys then .error .keys else .ok empty

/-- The keys with their values, in increasing order of the keys. -/
def entries (t : Tally κ β) : List (κ × β) := t.map.entries

/-- The number of keys. -/
def size (t : Tally κ β) : Nat := t.map.size

/-- Whether no key was touched. -/
def isEmpty (t : Tally κ β) : Bool := t.map.isEmpty

/-- Whether a key was touched. -/
def contains (t : Tally κ β) (k : κ) : Bool := t.map.contains k

/-- The value of a key that was touched. -/
def get? (t : Tally κ β) (k : κ) : Option β := t.map.get? k

/-- The value of a key; neutral if it was never touched. -/
def get [Mergeable β] (t : Tally κ β) (k : κ) : β := (t.get? k).getD Mergeable.neutral

variable [TransOrd κ]

/-- Put a value in place of the one that a key has. -/
def set (t : Tally κ β) (k : κ) (v : β) : Tally κ β := ⟨t.map.insert k v⟩

/-- Entries as they are; of two with one key the later one stays. -/
def ofEntries (entries : List (κ × β)) : Tally κ β := ⟨SortedMap.ofList entries⟩

variable [Mergeable β]

/-- Touch a key, which gets the neutral value if it has none. -/
def touch (t : Tally κ β) (k : κ) : Tally κ β := t.set k (t.get k)

/-- Merge a value into the value of a key. -/
def mergeInto (t : Tally κ β) (k : κ) (delta : β) : Except Fault (Tally κ β) :=
  (Mergeable.merge (t.get k) delta).map (t.set k)

/-- Merge values into keys, one after the other. -/
def mergeEntries (t : Tally κ β) : List (κ × β) → Except Fault (Tally κ β)
  | [] => .ok t
  | (k, delta) :: rest =>
    match t.mergeInto k delta with
    | .ok t => mergeEntries t rest
    | .error e => .error e

/-- Merge every value of another tally. -/
def mergeTally (t other : Tally κ β) : Except Fault (Tally κ β) := t.mergeEntries other.entries

/-- The tally of a list of entries, in which several may have one key. -/
def collect (entries : List (κ × β)) : Except Fault (Tally κ β) := empty.mergeEntries entries

/-- Merge a value in place into the value of a key. A value that comes to a new key is merged into
a neutral one beside the tally, and is put in only then. -/
def mergeIntoInPlace (k : κ) (delta : β) : EStateM Fault (Tally κ β) Unit := fun t =>
  match t.get? k with
  | some v =>
    match Mergeable.InPlace.mergeAssign delta v with
    | .ok () v => .ok () (t.set k v)
    | .error e v => .error e (t.set k v)
  | none =>
    match Mergeable.InPlace.mergeAssign delta Mergeable.neutral with
    | .ok () v => .ok () (t.set k v)
    | .error e _ => .error e t

/-- Tallies are merged key by key, to any depth. -/
instance : Mergeable (Tally κ β) where
  neutral := empty
  merge := mergeTally
  mergeAssign other := other.entries.forM fun e => mergeIntoInPlace e.1 e.2

/-- The contents as a reader of a tally under concurrent use sees them: every value is merged
into an empty tally, once. -/
def snapshot (t : Tally κ β) : Except Fault (Tally κ β) := collect t.entries

end Tally

end BatchRun
