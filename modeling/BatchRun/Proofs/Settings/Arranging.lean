import Mathlib.Data.List.Forall2
import BatchRun.Settings.Layer

/-!
# Keys in any order

Arranging changes the order of the keys of tables and nothing else: the entries are the same ones,
with their values arranged. Where they come to lie depends on their keys alone, so that entries with
the same keys are arranged alike, whatever their values are.

## Main results

* `ranked_perm`, `forall₂_ranked`: ranking changes the order, by the keys alone
* `entriesOf_arranged_perm`, `Layer.arranged_perm`: the entries of what is arranged
* `mem_lastOfEach`, `forall₂_lastOfEach`: the variables that are set last, by their keys alone
-/

namespace BatchRun.Settings

open BatchRun.Toml (Value)

variable {rank : String → Nat} {order : Order} {e : String × Value}
  {entries entries' : List (String × Value)}

theorem insertRanked_perm (rank : String → Nat) (e : String × Value)
    (entries : List (String × Value)) : (insertRanked rank e entries).Perm (e :: entries) := by
  induction entries with
  | nil => exact .refl _
  | cons next rest ih =>
    rw [insertRanked]
    split
    · exact .refl _
    · exact (ih.cons next).trans (.swap e next rest)

/-- Ranking leaves out nothing, and brings in nothing. -/
theorem ranked_perm (rank : String → Nat) (entries : List (String × Value)) :
    (ranked rank entries).Perm entries := by
  induction entries with
  | nil => exact .refl _
  | cons e rest ih => exact (insertRanked_perm rank e _).trans (ih.cons e)

theorem allArranged_eq_map (order : Order) (place : List String)
    (entries : List (String × Value)) : allArranged order place entries =
      entries.map fun e => (e.1, arranged order (place ++ [e.1]) e.2) := by
  induction entries with
  | nil => rfl
  | cons e rest ih => rw [allArranged, ih, List.map_cons]

/-- The entries of a table that is arranged are its entries, arranged. -/
theorem entriesOf_arranged_perm (order : Order) (place : List String) (v : Value) :
    (entriesOf (arranged order place v)).Perm
      ((entriesOf v).map fun e => (e.1, arranged order (place ++ [e.1]) e.2)) := by
  cases v with
  | table entries =>
    rw [arranged, entriesOf, entriesOf, ← allArranged_eq_map]
    exact ranked_perm _ _
  | absent | bool | int | real | text | list => exact .refl _

theorem Layer.arranged_perm (layer : Layer) (order : Order) : (layer.arranged order).Perm
    (layer.map fun e => (e.1, Settings.arranged order [e.1] e.2)) := by
  rw [Layer.arranged, allArranged_eq_map]
  exact ranked_perm _ _

/-- The keys that come up are those of the layer. -/
theorem Layer.forall_mem_arranged_iff {p : String → Prop} {layer : Layer} :
    (∀ e ∈ layer.arranged order, p e.1) ↔ ∀ e ∈ layer, p e.1 := by
  constructor
  · exact fun h e he => h (e.1, Settings.arranged order [e.1] e.2)
      ((layer.arranged_perm order).mem_iff.2 (List.mem_map.2 ⟨e, he, rfl⟩))
  · intro h e he
    obtain ⟨e', he', rfl⟩ := List.mem_map.1 ((layer.arranged_perm order).mem_iff.1 he)
    exact h e' he'

section Alike

variable {R : String × Value → String × Value → Prop}

theorem forall₂_insertRanked (hkey : ∀ a b, R a b → a.1 = b.1) {e' : String × Value} (he : R e e')
    (h : List.Forall₂ R entries entries') :
    List.Forall₂ R (insertRanked rank e entries) (insertRanked rank e' entries') := by
  induction h with
  | nil => exact .cons he .nil
  | cons hnext hrest ih =>
    rw [insertRanked, insertRanked, hkey _ _ he, hkey _ _ hnext]
    split
    · exact .cons he (.cons hnext hrest)
    · exact .cons hnext ih

/-- Entries with the same keys are ranked alike. -/
theorem forall₂_ranked (hkey : ∀ a b, R a b → a.1 = b.1) (h : List.Forall₂ R entries entries') :
    List.Forall₂ R (ranked rank entries) (ranked rank entries') := by
  induction h with
  | nil => exact .nil
  | cons he _ ih => exact forall₂_insertRanked hkey he ih

/-- Layers with the same keys come up alike. -/
theorem Layer.forall₂_arranged {layer layer' : Layer} (hkey : ∀ a b, R a b → a.1 = b.1)
    (harranged : ∀ a b, R a b →
      R (a.1, Settings.arranged order [a.1] a.2) (b.1, Settings.arranged order [b.1] b.2))
    (h : List.Forall₂ R layer layer') :
    List.Forall₂ R (layer.arranged order) (layer'.arranged order) := by
  rw [Layer.arranged, Layer.arranged, allArranged_eq_map, allArranged_eq_map]
  refine forall₂_ranked hkey (List.forall₂_map_left_iff.2 (List.forall₂_map_right_iff.2 ?_))
  exact h.imp fun a b hab => harranged a b hab

/-- Of entries with the same keys the same ones are the last with their keys. -/
theorem forall₂_lastOfEach (hkey : ∀ a b, R a b → a.1 = b.1)
    (h : List.Forall₂ R entries entries') :
    List.Forall₂ R (lastOfEach entries) (lastOfEach entries') := by
  -- whether a key comes again is a matter of the keys
  have hany (key : String) {rest rest' : List (String × Value)} (h : List.Forall₂ R rest rest') :
      rest.any (·.1 == key) = rest'.any (·.1 == key) := by
    induction h with
    | nil => rfl
    | cons he _ ih => rw [List.any_cons, List.any_cons, hkey _ _ he, ih]
  induction h with
  | nil => exact .nil
  | cons he hrest ih =>
    rw [lastOfEach, lastOfEach, hkey _ _ he, hany _ hrest]
    split
    · exact ih
    · exact .cons he ih

end Alike

section Last

theorem lastOfEach_sublist (entries : List (String × Value)) :
    (lastOfEach entries).Sublist entries := by
  induction entries with
  | nil => exact .slnil
  | cons e rest ih =>
    rw [lastOfEach]
    split
    · exact ih.cons e
    · exact ih.cons_cons e

/-- An entry stays if none behind it has its key. -/
theorem mem_lastOfEach {before after : List (String × Value)} (h : ∀ a ∈ after, a.1 ≠ e.1) :
    e ∈ lastOfEach (before ++ e :: after) := by
  induction before with
  | nil =>
    have hany : after.any (·.1 == e.1) = false := by simpa using fun a b hb => h (a, b) hb
    rw [List.nil_append, lastOfEach, hany]
    exact List.mem_cons_self
  | cons a before ih =>
    rw [List.cons_append, lastOfEach]
    split
    · exact ih
    · exact List.mem_cons_of_mem _ ih

end Last

end BatchRun.Settings
