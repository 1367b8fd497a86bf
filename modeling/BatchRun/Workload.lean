/-!
# Workloads and descriptions

What a dispatcher sees of a task's arguments: the units it reports when the task is done, and the
label that a failure of the task carries. Arguments may bring further data along, which the
dispatcher does not look at.
-/

namespace BatchRun

/-- Arguments of a task. -/
class Workload (α : Type) where
  units : α → Nat
  label : α → String

/-- Values that can be written out in a label. -/
class Described (α : Type) where
  describe : α → String

instance : Described Unit where
  describe _ := "()"

/-- Further data rides along and changes neither units nor label. -/
instance {α ξ : Type} [Workload α] : Workload (α × ξ) where
  units a := Workload.units a.1
  label a := Workload.label a.1

end BatchRun
