import BatchRun.Proofs.Settings.Precedence

/-!
# What single values do not decide

Whether layers can be merged at all depends on their keys and on how tables and lists lie in one
another, and not on the texts, numbers and truth values that settings are taken from: the outline of
what is merged is what the outlines are merged to. So layers that differ in single values only have
the same fault, or none.

## Main definitions

* `outline`: a value with its single values made equal
* `Layer.outline`: the same for the values of a layer

## Main results

* `map_outline_mergeSteps`: outlines are merged like values
* `mergeLayers_eq_error_of_outline`: layers with the same outlines have the same fault
-/

namespace BatchRun.Settings

open BatchRun.Toml (Value)

open SortedMap (lookup insertEntry)

mutual

/-- A value with its single values made equal. Tables and lists stay, and so does what is absent. -/
def outline : Value → Value
  | .table entries => .table (allOutlined entries)
  | .list items => .list (itemsOutlined items)
  | .absent => .absent
  | _ => .bool false

/-- Entries with the outlines of their values. -/
def allOutlined : List (String × Value) → List (String × Value)
  | [] => []
  | (key, v) :: rest => (key, outline v) :: allOutlined rest

/-- The outlines of items. -/
def itemsOutlined : List Value → List Value
  | [] => []
  | v :: rest => outline v :: itemsOutlined rest

end

/-- A layer with the outlines of its values. -/
def Layer.outline (layer : Layer) : Layer := layer.map fun e => (e.1, Settings.outline e.2)

section Merging

variable {v root root' : Value} {layers layers' : List Layer} {fault : Fault}

theorem allOutlined_eq_map (entries : List (String × Value)) :
    allOutlined entries = entries.map fun e => (e.1, outline e.2) := by
  induction entries with
  | nil => rfl
  | cons e rest ih => rw [allOutlined, ih, List.map_cons]

theorem itemsOutlined_eq_map (items : List Value) : itemsOutlined items = items.map outline := by
  induction items with
  | nil => rfl
  | cons v rest ih => rw [itemsOutlined, ih, List.map_cons]

theorem keepsTables_outline : KeepsTables outline where
  table entries := by rw [outline, allOutlined_eq_map]
  other v hv := by
    cases v with
    | table entries => exact absurd rfl (hv entries)
    | absent | bool | int | real | text | list => exact fun _ h => by cases h

theorem itemsOf_outline (v : Value) : itemsOf (outline v) = (itemsOf v).map outline := by
  cases v with
  | list items => exact itemsOutlined_eq_map items
  | absent | bool | int | real | text | table => rfl

theorem outline_mergeEntry (key : String) (v root : Value) :
    outline (mergeEntry key v root) = mergeEntry key (outline v) (outline root) := by
  rw [mergeEntry_eq, mergeEntry_eq, keepsTables_outline.map_table_insertEntry,
    keepsTables_outline.map_mergeOver, keepsTables_outline.part_map,
    keepsTables_outline.entriesOf_map]

theorem map_outline_extended (place : Nat) (items : List Value) :
    (extended place items).map (List.map outline) = extended place (items.map outline) := by
  simp only [extended, List.length_map]
  split_ifs
  · rfl
  · rfl
  · simp only [Except.map, List.map_append, List.map_replicate]
    rfl

/-- Outlines are merged like values. -/
theorem map_outline_mergeSteps (v : Value) (steps : List Step) (root : Value) :
    (mergeSteps v steps root).map outline = mergeSteps (outline v) steps (outline root) := by
  induction steps generalizing root with
  | nil => rfl
  | cons step steps ih =>
    cases step with
    | name key =>
      cases steps with
      | nil => exact congrArg Except.ok (outline_mergeEntry key v root)
      | cons next steps =>
        have hpart : (part key (outline root)).getD .absent =
            outline ((part key root).getD .absent) := by
          rw [keepsTables_outline.part_map]
          cases part key root <;> rfl
        rw [mergeSteps_name_cons, mergeSteps_name_cons, hpart, ← ih]
        cases mergeSteps v (next :: steps) ((part key root).getD .absent) with
        | error fault => rfl
        | ok inner =>
          refine congrArg Except.ok ?_
          rw [keepsTables_outline.map_table_insertEntry, keepsTables_outline.entriesOf_map]
    | position index =>
      rw [mergeSteps_position_cons, mergeSteps_position_cons, itemsOf_outline, List.length_map]
      cases placeOf index (itemsOf root).length with
      | error fault => rfl
      | ok place =>
        simp only [Except.bind, ← map_outline_extended]
        cases extended place (itemsOf root) with
        | error fault => rfl
        | ok items =>
          have hitem : ((items.map outline)[place]?).getD .absent =
              outline (items[place]?.getD .absent) := by
            rw [List.getElem?_map]
            cases items[place]? <;> rfl
          simp only [Except.map, hitem, ← ih]
          cases mergeSteps v steps (items[place]?.getD .absent) with
          | error fault => rfl
          | ok item =>
            refine congrArg Except.ok ?_
            rw [outline, itemsOutlined_eq_map, List.map_set]

theorem map_outline_mergeKeys (layer : Layer) (root : Value) :
    (mergeKeys layer root).map outline = mergeKeys layer.outline (outline root) := by
  induction layer generalizing root with
  | nil => rfl
  | cons e rest ih =>
    rw [mergeKeys, List.foldlM_cons, Layer.outline, List.map_cons, mergeKeys, List.foldlM_cons,
      mergePath, mergePath, ← map_outline_mergeSteps]
    cases mergeSteps e.2 (.name (Path.ofKey e.1).name :: (Path.ofKey e.1).steps) root with
    | error fault => rfl
    | ok root₁ => exact ih root₁

theorem map_outline_mergeLayers (layers : List Layer) (root : Value) :
    (mergeLayers layers root).map outline =
      mergeLayers (layers.map Layer.outline) (outline root) := by
  induction layers generalizing root with
  | nil => rfl
  | cons layer rest ih =>
    rw [mergeLayers, List.foldlM_cons, List.map_cons, mergeLayers, List.foldlM_cons,
      ← map_outline_mergeKeys]
    cases mergeKeys layer root with
    | error fault => rfl
    | ok root₁ => exact ih root₁

/-- Layers with the same outlines have the same fault. -/
theorem mergeLayers_eq_error_of_outline (h : layers.map Layer.outline = layers'.map Layer.outline)
    (hmerge : mergeLayers layers root = .error fault) :
    mergeLayers layers' root = .error fault := by
  have hsame := map_outline_mergeLayers layers root
  rw [h, ← map_outline_mergeLayers layers' root, hmerge] at hsame
  cases hmerge' : mergeLayers layers' root with
  | error fault' =>
    rw [hmerge'] at hsame
    exact hsame.symm
  | ok root' => rw [hmerge'] at hsame; cases hsame

end Merging

end BatchRun.Settings
