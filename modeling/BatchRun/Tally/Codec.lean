import BatchRun.Json.Access
import BatchRun.Number.Layout
import BatchRun.Tally.Basic

/-!
# Tallies as JSON

The values of tallies can be written as JSON and read back. Numbers with a fractional part and
very wide whole numbers are written as texts, which lose nothing. A tally is written as an
object, and read from a list of entries that are merged one after the other, so that reading can
fault.

## Main definitions

* `Coded`: values that can be written, read and compared
* `Tally.ofJson`, `Tally.toJson`
-/

namespace BatchRun

/-- A number with a fractional part as text. -/
def Json.ofFloat (x : Float) : Json := .text (Number.float64Text .plain x)

/-- A whole number. -/
def Json.ofNat (n : Nat) : Json := .int n

/-- A value, or null where there is none. -/
def Json.orNull {α : Type} (f : α → Json) : Option α → Json
  | none => .null
  | some a => f a

/-- Values that can be written as JSON, read back and compared. Of floating-point numbers the two
zeros are the same, and what is not a number is the same as nothing. -/
class Coded (β : Type) [Mergeable β] where
  ofJson : Json → Except Fault β
  toJson : β → Json
  same : β → β → Bool

namespace Coded

/-- A whole number; of more than 64 bits it is a text. -/
def wholeJson (bits : Nat) (n : Int) : Json := if 64 < bits then .text (toString n) else .int n

/-- Whether two lists hold the same values. -/
def sameAll {β : Type} (same : β → β → Bool) : List β → List β → Bool
  | [], [] => true
  | a :: as, b :: bs => same a b && sameAll same as bs
  | _, _ => false

instance {bits : Nat} : Coded (Signed bits) where
  ofJson j := .ok ((Ranged.ofInt? j.asInt).getD Mergeable.neutral)
  toJson n := wholeJson bits n.val
  same a b := a.val == b.val

instance {bits : Nat} : Coded (Unsigned bits) where
  ofJson j := .ok ((Ranged.ofInt? j.asInt).getD Mergeable.neutral)
  toJson n := wholeJson bits n.val
  same a b := a.val == b.val

instance : Coded Float where
  ofJson j := .ok j.asFloat
  toJson := .ofFloat
  same a b := a == b

instance : Coded Float32 where
  ofJson j := .ok j.asFloat.toFloat32
  toJson x := .text (Number.float32Text .plain x)
  same a b := a == b

variable {β γ : Type} [Mergeable β] [Coded β] [Mergeable γ] [Coded γ]

instance : Coded (List β) where
  ofJson j := j.items.mapM ofJson
  toJson l := .list (l.map toJson)
  same := sameAll same

instance {n : Nat} : Coded (Vector β n) where
  ofJson j := (j.items.mapM ofJson).map fun (l : List β) =>
    Vector.ofFn fun i => (l[i.1]?).getD Mergeable.neutral
  toJson v := .list (v.toList.map toJson)
  same a b := sameAll same a.toList b.toList

instance : Coded (β × γ) where
  ofJson j := do pure (← ofJson (j.item 0), ← ofJson (j.item 1))
  toJson p := .list [toJson p.1, toJson p.2]
  same a b := same a.1 b.1 && same a.2 b.2

/-- Entries with text keys. -/
def entriesOf (j : Json) : Except Fault (List (String × β)) :=
  j.pairs.mapM fun (k, v) => (ofJson v).map fun v => (k, v)

end Coded

namespace Tally

variable {β : Type} [Mergeable β] [Coded β]

/-- A tally from a list of entries. -/
def ofJson (j : Json) : Except Fault (Tally String β) :=
  (Coded.entriesOf j).bind fun entries => collect entries

/-- A tally as an object. -/
def toJson (t : Tally String β) : Json :=
  .record (t.entries.map fun (k, v) => (k, Coded.toJson v))

instance : Coded (Tally String β) where
  ofJson := ofJson
  toJson := toJson
  same a b := Coded.sameAll (fun x y => x.1 == y.1 && Coded.same x.2 y.2) a.entries b.entries

end Tally

end BatchRun
