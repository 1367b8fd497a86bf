import BatchRun.Fault

/-!
# Work in place

A value can be merged into one that stays where it is. Numbers are replaced by their sum; what is
built from them is changed part by part, so that a fault leaves the parts before it merged.

## Main definitions

* `Mergeable.InPlace`: types with a merge in place
* `Mergeable.InPlace.leaves`: what a merge in place leaves, also where it faults
* `replace`, `within`, `mergeItems`: what merges in place are made of
-/

namespace BatchRun

namespace Mergeable

/-- Values into which others can be merged in place. -/
class InPlace (α : Type) where
  mergeAssign : α → EStateM Fault α Unit

open InPlace

variable {α β : Type}

/-- What a merge in place leaves of a value, whether it ends or faults. -/
def InPlace.leaves [InPlace α] (delta a : α) : α :=
  match mergeAssign delta a with
  | .ok () c => c
  | .error _ c => c

/-- Replace a value by what comes of an operation; where that faults the value stays. -/
def replace (f : α → Except Fault α) : EStateM Fault α Unit := fun a =>
  match f a with
  | .ok c => .ok () c
  | .error e => .error e a

/-- Work in place on a part of a value. -/
def within (part : α → β) (put : α → β → α) (work : EStateM Fault β Unit) :
    EStateM Fault α Unit := fun a =>
  match work (part a) with
  | .ok () b => .ok () (put a b)
  | .error e b => .error e (put a b)

/-- Merge items into those at the same places, as long as both lists go on. -/
def mergeItems [InPlace α] : List α → EStateM Fault (List α) Unit
  | [], as => .ok () as
  | _ :: _, [] => .ok () []
  | b :: bs, a :: as =>
    match mergeAssign b a with
    | .error e a => .error e (a :: as)
    | .ok () a =>
      match mergeItems bs as with
      | .error e as => .error e (a :: as)
      | .ok () as => .ok () (a :: as)

end Mergeable

end BatchRun
