import BatchRun.Json.Access
import BatchRun.Rehearsal.FaultyBroker
import BatchRun.Rehearsal.ScriptedCalculation

/-!
# Scripts as JSON

Scripts of rehearsals are written as JSON values: tasks and what they do, what becomes of signals,
and the stages of calculations.

## Main definitions

* `GroupKey.ofJson`, `WorkItem.ofJson`: items of work
* `ScriptedTask.ofJson`, `ScriptedTask.sourceOf`: tasks, one by one or as blocks of items
* `FaultPlan.ofJson`, `CalculationScript.ofJson`
-/

namespace BatchRun

open Json

mutual

/-- A key. Those that JSON has no kind for are objects. -/
def GroupKey.ofJson : Json → GroupKey
  | .null => .unit
  | .bool b => .bool b
  | .int n => .int n
  | .real x => .real x
  | .text s => .text s
  | .list items => .list (keysOf items)
  | .object [("f", x)] => .real x.asFloat
  | .object [("char", c)] => .char (c.asText.toList.headD ' ')
  | .object [("some", key)] => .some (GroupKey.ofJson key)
  | .object _ => .none

/-- The keys of a list. -/
def keysOf : List Json → List GroupKey
  | [] => []
  | key :: rest => GroupKey.ofJson key :: keysOf rest

end

/-- An item of work whose weight was not looked at. -/
structure RawItem where
  weight : Float
  key : GroupKey
  payload : Json

/-- An item: a list of weight, key and payload, or an object of them. An item without payload has
the given one. -/
def RawItem.ofJson (payload : Json) : Json → RawItem
  | .list items =>
    let j := Json.list items
    ⟨(j.item 0).asFloat, .ofJson (j.item 1), (items[2]?).getD payload⟩
  | j => ⟨j.floatOf "w", .ofJson (j.get "k"), (j.field? "p").getD payload⟩

/-- An item, unless its weight is refused. -/
def WorkItem.ofJson (payload j : Json) : Except RunError (WorkItem Float GroupKey Json) :=
  let raw := RawItem.ofJson payload j
  WorkItem.of raw.weight raw.key raw.payload

/-- Why something failed: messages, outermost first. -/
def Cause.ofJson (j : Json) : Cause := .ofChain j.asTexts

/-- What goes wrong, if anything does. -/
def Mishap.ofJson? (j : Json) : Option Mishap :=
  if j.has "fail" then some (.fails (.ofJson (j.get "fail")))
  else if j.has "panic" then some (.panics (j.get "panic").text?)
  else none

namespace ScriptedTask

/-- A number to count with. -/
def countOf (j : Json) : Count := .ofInt j.asInt

/-- A task; without units it has one. -/
def ofJson (j : Json) : ScriptedTask where
  label := j.textOf "label"
  units := countOf (if j.has "units" then j.get "units" else .int 1)
  gated := j.flag "gate"
  took := j.natOf "sleep_ms"
  scopes := (j.get "scopes").asTexts
  mishap := Mishap.ofJson? j
  result := (j.get "result").given fun result => result.pairs.map fun (k, v) => (k, countOf v)
  tellsTaskNo := j.flag "task_no"

/-- The tasks of blocks of items. -/
def ofBlocks (j : Json) : Except RunError (List ScriptedTask) := do
  let items ← (j.get "items").items.mapM (WorkItem.ofJson .null)
  let splitter ← Splitter.ofItems (items.map some) (j.floatOf "max_weight")
  pure (splitter.blocks.map fun block =>
    let script := ofJson ((j.get "specs").get (toString block.index))
    if j.has "pair" then script.withArgs (block, j.get "pair") else script.withArgs block)

/-- Tasks that are listed, or that come as blocks of items. -/
def sourceOf : Json → Except RunError (List ScriptedTask)
  | .list tasks => .ok (tasks.map ofJson)
  | .object fields => ofBlocks (.object fields)
  | _ => .ok []

/-- Arguments that follow. Blocks come lazily; how many listed tasks follow may be hidden. -/
def pendingOf (hidden : Bool) (j : Json) : Except RunError (Pending ScriptedTask) :=
  let isListed := match j with
    | .object _ => false
    | _ => !hidden
  (sourceOf j).map fun tasks => if isListed then .ofList tasks else .lazy tasks

end ScriptedTask

/-- What is changed in a copy. -/
def Patch.ofJson (j : Json) : Patch where
  replacement := j.field? "raw"
  set := (j.get "set").members
  drop := (j.get "unset").asTexts
  times := (j.get "times").given asNat

/-- What becomes of a signal: copies, or a text with which it is refused. -/
def Delivery.ofJson : Json → Delivery
  | .text reason => .refused reason
  | .list patches => .copies (patches.map .ofJson)
  | _ => .copies [.faithful]

/-- What becomes of the signals of a run. -/
def FaultPlan.ofJson (j : Json) : FaultPlan where
  forTask := (j.get "on").members.map fun (no, d) => (no.toNat?.getD 0, .ofJson d)
  otherwise := .ofJson (j.get "default")
  closeAfter := (j.get "close_after").given asNat
  refuseDeclare := (j.get "refuse_declare").given asText

/-- The stage of a name. -/
def Stage.ofName? (name : String) : Option Stage :=
  [Stage.preExecute, .workItems, .postExecute, .postProcess, .exportOutputs, .cleanUp].find?
    (·.name == name)

/-- A calculation. -/
def CalculationScript.ofJson (j : Json) : CalculationScript where
  name := j.textOf "name"
  items := (j.get "items").items.map fun item => ((item.item 0).asFloat, .ofJson (item.item 1))
  failures := (j.get "fail").members.filterMap fun (name, chain) =>
    (Stage.ofName? name).map fun stage => (stage, .ofJson chain)
  exported := (j.get "exports").asTexts
  mishaps := (j.get "specs").members.filterMap fun (index, spec) =>
    (Mishap.ofJson? spec).map fun mishap => (index.toNat?.getD 0, mishap)
  minimal := j.flag "minimal"

end BatchRun
