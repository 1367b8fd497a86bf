/-!
# Maps with sorted keys

A finite map, kept as the list of its entries in strictly increasing order of the keys. The
order is part of the type, so two maps with the same entries are equal values, whatever the
order in which they were filled.

## Main definitions

* `SortedMap`: entries in strictly increasing order
* `get?`, `insert`, `erase`, `ofList`: look-up and change
-/

namespace BatchRun

open Std

/-- A finite map as its entries in strictly increasing order of the keys. -/
structure SortedMap (κ β : Type) [Ord κ] where
  entries : List (κ × β)
  sorted : entries.Pairwise fun a b => compare a.1 b.1 = .lt

namespace SortedMap

variable {κ β γ : Type} [Ord κ]

@[ext] theorem ext {m n : SortedMap κ β} (h : m.entries = n.entries) : m = n := by
  cases m; cases n; cases h; rfl

instance [DecidableEq κ] [DecidableEq β] : DecidableEq (SortedMap κ β) := fun m n =>
  if h : m.entries = n.entries then isTrue (ext h) else isFalse fun e => h (e ▸ rfl)

/-- The map without entries. -/
def empty : SortedMap κ β := ⟨[], .nil⟩

instance : Inhabited (SortedMap κ β) := ⟨empty⟩

/-- The number of entries. -/
def size (m : SortedMap κ β) : Nat := m.entries.length

/-- Whether there is no entry. -/
def isEmpty (m : SortedMap κ β) : Bool := m.entries.isEmpty

/-- The keys in increasing order. -/
def keys (m : SortedMap κ β) : List κ := m.entries.map Prod.fst

/-- The values in the order of their keys. -/
def values (m : SortedMap κ β) : List β := m.entries.map Prod.snd

/-- The value beside a key in a list of entries. -/
def lookup (k : κ) : List (κ × β) → Option β
  | [] => none
  | (k', v) :: rest => if compare k k' = .eq then some v else lookup k rest

/-- The value of a key. -/
def get? (m : SortedMap κ β) (k : κ) : Option β := lookup k m.entries

/-- Whether a key has a value. -/
def contains (m : SortedMap κ β) (k : κ) : Bool := (m.get? k).isSome

/-- Entries with one more key, or with a new value beside a key that is there. -/
def insertEntry (k : κ) (v : β) : List (κ × β) → List (κ × β)
  | [] => [(k, v)]
  | (k', v') :: rest =>
    match compare k k' with
    | .lt => (k, v) :: (k', v') :: rest
    | .eq => (k', v) :: rest
    | .gt => (k', v') :: insertEntry k v rest

/-- Insertion brings in no key but the one inserted. -/
theorem mem_insertEntry {k : κ} {v : β} {a : κ × β} {l : List (κ × β)}
    (h : a ∈ insertEntry k v l) : a.1 = k ∨ ∃ b ∈ l, a.1 = b.1 := by
  induction l with
  | nil => simp_all [insertEntry]
  | cons e rest ih =>
    obtain ⟨k', v'⟩ := e
    simp only [insertEntry] at h
    split at h <;> simp only [List.mem_cons] at h
    · rcases h with rfl | rfl | h
      · exact .inl rfl
      · exact .inr ⟨_, List.mem_cons_self, rfl⟩
      · exact .inr ⟨a, List.mem_cons_of_mem _ h, rfl⟩
    · rcases h with rfl | h
      · exact .inr ⟨_, List.mem_cons_self, rfl⟩
      · exact .inr ⟨a, List.mem_cons_of_mem _ h, rfl⟩
    · rcases h with rfl | h
      · exact .inr ⟨_, List.mem_cons_self, rfl⟩
      · rcases ih h with h | ⟨b, hb, hab⟩
        · exact .inl h
        · exact .inr ⟨b, List.mem_cons_of_mem _ hb, hab⟩

/-- Insertion keeps the keys strictly increasing. -/
theorem sorted_insertEntry [TransOrd κ] (k : κ) (v : β) {l : List (κ × β)}
    (h : l.Pairwise fun a b => compare a.1 b.1 = .lt) :
    (insertEntry k v l).Pairwise fun a b => compare a.1 b.1 = .lt := by
  induction l with
  | nil => simp [insertEntry]
  | cons e rest ih =>
    obtain ⟨k', v'⟩ := e
    have hhead := (List.pairwise_cons.1 h).1
    have htail := (List.pairwise_cons.1 h).2
    simp only [insertEntry]
    split
    -- the key goes in front of all others
    · next hlt =>
      refine List.pairwise_cons.2 ⟨fun b hb => ?_, h⟩
      rcases List.mem_cons.1 hb with rfl | hb
      · exact hlt
      · exact TransCmp.lt_trans hlt (hhead b hb)
    · exact List.pairwise_cons.2 ⟨fun b hb => hhead b hb, htail⟩
    -- the key goes in further behind, and the others stay where they are
    · next hgt =>
      refine List.pairwise_cons.2 ⟨fun b hb => ?_, ih htail⟩
      rcases mem_insertEntry hb with hk | ⟨c, hc, hk⟩
      · rw [hk]; exact OrientedCmp.gt_iff_lt.1 hgt
      · rw [hk]; exact hhead c hc

/-- The map with a value for a key, in place of the value it had. -/
def insert [TransOrd κ] (m : SortedMap κ β) (k : κ) (v : β) : SortedMap κ β :=
  ⟨insertEntry k v m.entries, sorted_insertEntry k v m.sorted⟩

/-- The map without a key. -/
def erase (m : SortedMap κ β) (k : κ) : SortedMap κ β :=
  ⟨m.entries.filter fun e => compare k e.1 != .eq, m.sorted.filter _⟩

/-- The map of a list of entries; of two with one key the later one stays. -/
def ofList [TransOrd κ] (l : List (κ × β)) : SortedMap κ β :=
  l.foldl (fun m e => m.insert e.1 e.2) empty

/-- The map with every value changed. -/
def mapValues (f : β → γ) (m : SortedMap κ β) : SortedMap κ γ :=
  ⟨m.entries.map fun e => (e.1, f e.2), m.sorted.map _ fun _ _ h => h⟩

end SortedMap

end BatchRun
