import BatchRun.Number.Layout
import BatchRun.Settings.Basic
import BatchRun.Settings.Layer

/-!
# Fitting values to settings

A layer need not give a setting a value of its own kind: truth values and texts can stand for
numbers, numbers for texts, and decimal numbers are rounded where a whole number is wanted. A
value that fits in no way makes all settings unreadable.

## Main definitions

* `fitWhole`, `fitNumber`, `fitText`, `fitOptional`, `fitVariant`: values for single settings
* `ofValue?`: settings from merged layers
-/

namespace BatchRun.Settings

open BatchRun.Number
open BatchRun.Toml (Value)

/-- The truth value that a word stands for, in any case. -/
def wordValue? (text : String) : Option Bool :=
  let word := Text.lowercase text
  if word == "true" || word == "on" || word == "yes" then some true
  else if word == "false" || word == "off" || word == "no" then some false
  else none

/-- A non-negative whole number of 64 bits. A decimal number is rounded, halves away from zero,
and brought into range. -/
def fitWhole : Value → Option Nat
  | .int n => if 0 ≤ n then some n.toNat else none
  | .bool b => some b.toNat
  | .real x => some x.round.toUInt64.toNat
  | .text s =>
    match wordValue? s with
    | some b => some b.toNat
    | none => (wholeNumber? 0 word64Greatest s).map Int.toNat
  | _ => none

/-- A number. -/
def fitNumber : Value → Option Float
  | .real x => some x
  | .int n => some (Float.ofInt n)
  | .bool b => some (if b then 1.0 else 0.0)
  | .text s =>
    match wordValue? s with
    | some b => some (if b then 1.0 else 0.0)
    | none => decimal? s
  | _ => none

/-- A text. -/
def fitText : Value → Option String
  | .text s => some s
  | .bool b => some (if b then "true" else "false")
  | .int n => some (toString n)
  | .real x => some (float64Text .plain x)
  | _ => none

/-- A value that may be missing. -/
def fitOptional {α : Type} (fit : Value → Option α) : Value → Option (Option α)
  | .absent => some none
  | v => (fit v).map some

/-- One of several named variants, by its name in any case or as the only key of a table. -/
def fitVariant {α : Type} (known : List (String × α)) : Value → Option α
  | .text name => named name
  | .table [(name, _)] => named name
  | _ => none
where
  /-- The variant of a name. -/
  named (name : String) : Option α :=
    (known.find? fun e => Text.lowercase e.1 == Text.lowercase name).map (·.2)

/-- A field of a record: its name and how a value goes into the record. -/
structure Fit (ρ : Type) where
  name : String
  store : Value → ρ → Option ρ

/-- A field whose value is fitted and then set. -/
def Fit.of {ρ α : Type} (name : String) (fit : Value → Option α) (set : α → ρ → ρ) : Fit ρ :=
  ⟨name, fun v r => (fit v).map (set · r)⟩

/-- Fit a table, by the names of its entries, or a list, by the order of the fields. -/
def fitRecord {ρ : Type} (fields : List (Fit ρ)) (blank : ρ) : Value → Option ρ
  | .table entries =>
    -- entries that no field asks for do not matter
    fields.foldlM
      (fun r field =>
        match SortedMap.lookup field.name entries with
        | some v => field.store v r
        | none => some r)
      blank
  | .list items => (fields.zip items).foldlM (fun r e => e.1.store e.2 r) blank
  | _ => none

/-- The routing of signals from a value. -/
def fitSignaling : Value → Option Signaling :=
  fitRecord [
    .of "exchange" fitText fun v (s : Signaling) => { s with exchange := v },
    .of "routing_key_prefix" fitText fun v s => { s with routingWord := v },
    .of "signal_timeout_ms" (fitOptional fitWhole) fun v s => { s with timeout := v }]
    .usual

/-- Settings from merged layers; what no layer mentions is as usual. -/
def ofValue? (usualLimit : Nat) : Value → Option (Settings Float) :=
  fitRecord [
    .of "concurrency_limit" fitWhole fun v (s : Settings Float) => { s with limit := v },
    .of "concurrent_tasks" (fitOptional fitWhole) fun v s => { s with concurrentTasks := v },
    .of "max_block_weight" (fitOptional fitNumber) fun v s => { s with maxBlockWeight := v },
    .of "weight_cap" (fitOptional fitNumber) fun v s => { s with weightCap := v },
    .of "execution_mode" (fitVariant ExecutionMode.named) fun v s => { s with mode := v },
    .of "accumulation" (fitVariant Accumulation.named) fun v s => { s with accumulation := v },
    .of "signaling" fitSignaling fun v s => { s with signaling := v }]
    (.usual usualLimit)

end BatchRun.Settings
