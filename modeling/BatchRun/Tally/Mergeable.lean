import BatchRun.Tally.InPlace

/-!
# Values that can be merged

Partial results are combined by `merge`, which adds numbers and works element by element on
everything that is built from them. `neutral` is what an absent value counts as.

Addition of whole numbers is checked: a sum outside the range of its type is a fault, and so is
the merge of any value that holds it. Floating-point addition never faults.

A value can be merged into another one in place as well. A list is first made as long as the other
one, with neutral items.

## Main definitions

* `Mergeable`: a neutral element and a merge that may fault
* `Ranged`: whole numbers between two bounds
-/

namespace BatchRun

/-- Values with a neutral element and a merge, which can be done in place. -/
class Mergeable (α : Type) extends Mergeable.InPlace α where
  neutral : α
  merge : α → α → Except Fault α

/-- A whole number between two bounds. -/
structure Ranged (least greatest : Int) where
  val : Int
  least_le : least ≤ val
  le_greatest : val ≤ greatest
  deriving DecidableEq

namespace Ranged

variable {least greatest : Int}

/-- A whole number as one between the bounds, if it is. -/
def ofInt? (n : Int) : Option (Ranged least greatest) :=
  if h : least ≤ n ∧ n ≤ greatest then some ⟨n, h.1, h.2⟩ else none

/-- The sum of two numbers, unless it is out of bounds. -/
def add (a b : Ranged least greatest) : Except Fault (Ranged least greatest) :=
  match ofInt? (a.val + b.val) with
  | some c => .ok c
  | none => .error .sum

end Ranged

/-- Signed whole numbers of `2 ^ 63` and less in magnitude, and so on for the other widths. -/
abbrev Signed (bits : Nat) := Ranged (-Int.pow 2 (bits - 1)) (Int.pow 2 (bits - 1) - 1)

/-- Non-negative whole numbers of a given width. -/
abbrev Unsigned (bits : Nat) := Ranged 0 (Int.pow 2 bits - 1)

namespace Mergeable

open InPlace

variable {α β : Type}

private theorem two_pow_pos (bits : Nat) : 0 < Int.pow 2 bits := Int.pow_pos (by decide)

instance {bits : Nat} : Mergeable (Signed bits) where
  neutral := ⟨0, by have := two_pow_pos (bits - 1); omega, by have := two_pow_pos (bits - 1); omega⟩
  merge := Ranged.add
  mergeAssign b := replace (Ranged.add · b)

instance {bits : Nat} : Mergeable (Unsigned bits) where
  neutral := ⟨0, by decide, by have := two_pow_pos bits; omega⟩
  merge := Ranged.add
  mergeAssign b := replace (Ranged.add · b)

instance : Mergeable Float where
  neutral := 0.0
  merge a b := .ok (a + b)
  mergeAssign b := modify (· + b)

instance : Mergeable Float32 where
  neutral := 0.0
  merge a b := .ok (a + b)
  mergeAssign b := modify (· + b)

/-- Merge element by element; what the first list does not have is neutral, and what the second
does not have leaves the first as it is. -/
def mergeLists [Mergeable α] : List α → List α → Except Fault (List α)
  | as, [] => .ok as
  | [], b :: bs =>
    match merge neutral b, mergeLists [] bs with
    | .ok c, .ok cs => .ok (c :: cs)
    | .error e, _ => .error e
    | .ok _, .error e => .error e
  | a :: as, b :: bs =>
    match merge a b, mergeLists as bs with
    | .ok c, .ok cs => .ok (c :: cs)
    | .error e, _ => .error e
    | .ok _, .error e => .error e

/-- A list with neutral items behind it, as far as it is too short. -/
def extend [Mergeable α] (length : Nat) (as : List α) : List α :=
  as ++ List.replicate (length - as.length) neutral

instance [Mergeable α] : Mergeable (List α) where
  neutral := []
  merge := mergeLists
  mergeAssign bs := do
    modify (extend bs.length)
    mergeItems bs

instance [Mergeable α] {n : Nat} : Mergeable (Vector α n) where
  neutral := Vector.replicate n neutral
  merge a b := (a.zip b).mapM fun (x, y) => merge x y
  mergeAssign bs :=
    (List.finRange n).forM fun i =>
      within (·.get i) (fun as a => as.set i a i.2) (mergeAssign (bs.get i))

instance [Mergeable α] [Mergeable β] : Mergeable (α × β) where
  neutral := (neutral, neutral)
  merge a b :=
    match merge a.1 b.1, merge a.2 b.2 with
    | .ok x, .ok y => .ok (x, y)
    | .error e, _ => .error e
    | .ok _, .error e => .error e
  mergeAssign b := do
    within Prod.fst (fun a x => (x, a.2)) (mergeAssign b.1)
    within Prod.snd (fun a y => (a.1, y)) (mergeAssign b.2)

end Mergeable

end BatchRun
