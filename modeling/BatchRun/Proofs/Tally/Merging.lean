import BatchRun.Tally.Basic

/-!
# Merging entries one after the other

A row of merges into a tally faults as soon as one of them does. Rows that follow one another are
one row.

## Main results

* `Tally.mergeEntries_append`: a row of merges in two parts
* `Tally.exists_of_mergeEntries_append`: a row without a fault has parts without a fault
-/

namespace BatchRun.Tally

variable {κ β : Type} [Ord κ] [Std.TransOrd κ] [Mergeable β]

@[simp] theorem mergeEntries_nil (t : Tally κ β) : t.mergeEntries [] = .ok t := rfl

theorem mergeEntries_cons_ok {t t' : Tally κ β} {k : κ} {delta : β}
    (h : t.mergeInto k delta = .ok t') (rest : List (κ × β)) :
    t.mergeEntries ((k, delta) :: rest) = t'.mergeEntries rest := by
  simp only [mergeEntries, h]

theorem mergeEntries_cons_error {t : Tally κ β} {k : κ} {delta : β} {fault : Fault}
    (h : t.mergeInto k delta = .error fault) (rest : List (κ × β)) :
    t.mergeEntries ((k, delta) :: rest) = .error fault := by
  simp only [mergeEntries, h]

/-- A row of merges that does not fault begins with one that does not. -/
theorem exists_of_mergeEntries_cons {t u : Tally κ β} {e : κ × β} {rest : List (κ × β)}
    (h : t.mergeEntries (e :: rest) = .ok u) :
    ∃ t', t.mergeInto e.1 e.2 = .ok t' ∧ t'.mergeEntries rest = .ok u := by
  obtain ⟨k, delta⟩ := e
  cases hmerge : t.mergeInto k delta with
  | error fault =>
    rw [mergeEntries_cons_error hmerge] at h
    cases h
  | ok t' => exact ⟨t', rfl, (mergeEntries_cons_ok hmerge rest).symm.trans h⟩

/-- After a row of merges that does not fault comes the next one. -/
theorem mergeEntries_append {t t' : Tally κ β} {first : List (κ × β)}
    (h : t.mergeEntries first = .ok t') (second : List (κ × β)) :
    t.mergeEntries (first ++ second) = t'.mergeEntries second := by
  induction first generalizing t with
  | nil =>
    obtain rfl := Except.ok.inj h
    rfl
  | cons e rest ih =>
    obtain ⟨next, hmerge, hrest⟩ := exists_of_mergeEntries_cons h
    rw [List.cons_append, mergeEntries_cons_ok hmerge, ih hrest]

/-- A row of merges that begins with a fault is a fault. -/
theorem mergeEntries_append_error {t : Tally κ β} {first : List (κ × β)} {fault : Fault}
    (h : t.mergeEntries first = .error fault) (second : List (κ × β)) :
    t.mergeEntries (first ++ second) = .error fault := by
  induction first generalizing t with
  | nil => cases h
  | cons e rest ih =>
    obtain ⟨k, delta⟩ := e
    cases hmerge : t.mergeInto k delta with
    | error fault' =>
      rw [mergeEntries_cons_error hmerge] at h
      rw [List.cons_append, mergeEntries_cons_error hmerge, h]
    | ok next =>
      rw [mergeEntries_cons_ok hmerge] at h
      rw [List.cons_append, mergeEntries_cons_ok hmerge, ih h]

/-- Of merges that do not fault, the first ones do not. -/
theorem exists_of_mergeEntries_append {t u : Tally κ β} {first second : List (κ × β)}
    (h : t.mergeEntries (first ++ second) = .ok u) :
    ∃ merged, t.mergeEntries first = .ok merged ∧ merged.mergeEntries second = .ok u := by
  cases hfirst : t.mergeEntries first with
  | error fault =>
    rw [mergeEntries_append_error hfirst] at h
    cases h
  | ok merged => exact ⟨merged, rfl, (mergeEntries_append hfirst second).symm.trans h⟩

/-- Where no two values fault, no row of merges does. -/
theorem exists_mergeEntries_of_total (htotal : ∀ a b : β, ∃ c, Mergeable.merge a b = .ok c)
    (t : Tally κ β) (entries : List (κ × β)) : ∃ u, t.mergeEntries entries = .ok u := by
  induction entries generalizing t with
  | nil => exact ⟨t, rfl⟩
  | cons e rest ih =>
    obtain ⟨k, delta⟩ := e
    obtain ⟨v, hv⟩ := htotal (t.get k) delta
    have hmerge : t.mergeInto k delta = .ok (t.set k v) := by
      rw [mergeInto, hv]
      rfl
    rw [mergeEntries_cons_ok hmerge]
    exact ih _

/-- Tallies that are merged one after the other are merged value by value. -/
theorem foldlM_mergeTally (t : Tally κ β) (parts : List (Tally κ β)) :
    parts.foldlM mergeTally t = t.mergeEntries (parts.flatMap entries) := by
  induction parts generalizing t with
  | nil => rfl
  | cons part rest ih =>
    rw [List.foldlM_cons, List.flatMap_cons]
    cases hpart : t.mergeEntries part.entries with
    | error fault =>
      rw [mergeTally, hpart, mergeEntries_append_error hpart]
      rfl
    | ok next =>
      rw [mergeTally, hpart, mergeEntries_append hpart, ← ih next]
      rfl

end BatchRun.Tally
