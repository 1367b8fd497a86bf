import Mathlib.Data.Multiset.AddSub
import BatchRun.Proofs.Settings.Merging

/-!
# What layers give at a place

A place is a name at the top, or names that lead into a table in a table. Its value in layers is all
that they give for it, merged in their order: what they give for other places has no influence.

The keys of a layer may come up in any order, and then a place that is mentioned twice may have
either value last. A place that no layer mentions twice has the same value in any order, as far as a
setting is concerned: the same single value, or a table with the same names.

## Main definitions

* `mentions`: the values that a layer gives at a place
* `effective`: the value of a place in layers
* `gist`: what a setting can be taken from in a value
* `Layer.ComesUpAs`: a layer with its keys in some order

## Main results

* `bind_part_mergeAllOver`: tables that are merged, name by name
* `rel_mentions_arranged`: a layer gives the same in any order
* `map_gist_effective`: so the value of a place is the same
-/

namespace BatchRun.Settings

open BatchRun.Toml (Value)

open SortedMap (lookup)

/-- The values that a value gives at a place in it. -/
def valuesAt : List String → Value → List Value
  | [], v => [v]
  | name :: place, v => (given name (entriesOf v)).flatMap (valuesAt place)

/-- The values that a layer gives at a place, in its order. -/
def mentions (place : List String) (layer : Layer) : List Value :=
  match place with
  | [] => []
  | name :: place => (givenBy name layer).flatMap (valuesAt place)

/-- The value of a place in layers, the lowest first. -/
def effective (layers : List Layer) (place : List String) : Option Value :=
  mergeAllOver none (layers.flatMap (mentions place))

/-- What a setting can be taken from in a value: nothing from a list, and the names of a table. -/
def gist : Value → Value
  | .table entries => .table (entries.map fun e => (e.1, .absent))
  | .list _ => .list []
  | v => v

/-- Whether a layer comes up as another one does: with the same keys in some order, and with those
of its tables in some order as well. -/
def Layer.ComesUpAs (layer come : Layer) : Prop := ∃ order, come = layer.arranged order

section Effective

variable {layers below above : List Layer} {layer : Layer} {place : List String} {name : String}
  {vs : List Value} {low : Option Value} {root v : Value}

theorem valuesAt_one (name : String) (v : Value) :
    valuesAt [name] v = given name (entriesOf v) := by
  simp [valuesAt]

theorem mentions_one (name : String) (layer : Layer) :
    mentions [name] layer = givenBy name layer := by
  simp [mentions, valuesAt]

/-- What a layer gives at a place is what its keys give there. -/
theorem mentions_eq_flatMap (place : List String) (layer : Layer) :
    mentions place layer = layer.flatMap fun e => mentions place [e] := by
  cases place with
  | nil => simp [mentions]
  | cons name place =>
    induction layer with
    | nil => rfl
    | cons e rest ih =>
      have happend : givenBy name (e :: rest) = givenBy name [e] ++ givenBy name rest :=
        List.filterMap_append (l := [e])
      rw [List.flatMap_cons, ← ih, mentions, happend, List.flatMap_append]
      rfl

/-- What tables that are merged over one another have at a name is what they give for it. -/
theorem bind_part_mergeAllOver (h : ∀ v ∈ vs, IsTable v) (low : Option Value) (name : String) :
    (mergeAllOver low vs).bind (part name) =
      mergeAllOver (low.bind (part name)) (vs.flatMap (valuesAt [name])) := by
  induction vs generalizing low with
  | nil => rfl
  | cons v vs ih =>
    obtain ⟨⟨entries, rfl⟩, hrest⟩ := List.forall_mem_cons.1 h
    -- where nothing is lower, an empty table is as good
    have hlow : part name (low.getD (.table [])) = low.bind (part name) := by
      cases low <;> rfl
    have hfirst : part name (mergeOver low (.table entries)) =
        mergeAllOver (low.bind (part name)) (given name entries) := by
      rw [mergeOver, part_mergeEntries, hlow]
    rw [List.flatMap_cons, mergeAllOver_append, valuesAt_one, entriesOf, ← hfirst]
    exact ih hrest _

theorem isTable_mergeAllOver (h : ∀ v ∈ vs, IsTable v) (hlow : ∀ u, low = some u → IsTable u) :
    ∀ u, mergeAllOver low vs = some u → IsTable u := by
  induction vs generalizing low with
  | nil => exact hlow
  | cons v vs ih =>
    obtain ⟨⟨entries, rfl⟩, hrest⟩ := List.forall_mem_cons.1 h
    refine ih hrest fun u hu => ?_
    obtain rfl := Option.some.inj hu
    refine isTable_mergeEntries entries ?_
    cases low with
    | none => exact ⟨[], rfl⟩
    | some u => exact hlow u rfl

theorem isTable_mergeAllOver_none (h : ∀ v ∈ vs, IsTable v) :
    ∀ u, mergeAllOver none vs = some u → IsTable u :=
  isTable_mergeAllOver h fun _ hnone => absurd hnone.symm (Option.some_ne_none _)

/-- So do tables of which one has an entry, whatever is lower. -/
theorem isTable_mergeAllOver_of_mem {e : String × Value} {entries : List (String × Value)}
    (h : ∀ v ∈ vs, IsTable v) (hmem : .table (e :: entries) ∈ vs) (low : Option Value) :
    ∀ u, mergeAllOver low vs = some u → IsTable u := by
  obtain ⟨before, after, rfl⟩ := List.append_of_mem hmem
  have hafter : ∀ v ∈ after, IsTable v := fun v hv =>
    h v (List.mem_append_right _ (List.mem_cons_of_mem _ hv))
  rw [mergeAllOver_append]
  change ∀ u, mergeAllOver (some (mergeOver _ (.table (e :: entries)))) after = some u → IsTable u
  refine isTable_mergeAllOver hafter ?_
  rintro u ⟨⟩
  exact isTable_mergeEntries_of_ne_nil (List.cons_ne_nil _ _) _

/-- A value never goes away again. -/
theorem mergeAllOver_eq_none_iff : mergeAllOver low vs = none ↔ low = none ∧ vs = [] := by
  induction vs generalizing low with
  | nil => simp [mergeAllOver]
  | cons v vs ih =>
    have hcons : mergeAllOver low (v :: vs) = mergeAllOver (some (mergeOver low v)) vs := rfl
    simp [hcons, ih]

/-- A place is as usual exactly if no layer gives anything for it. -/
theorem effective_eq_none_iff :
    effective layers place = none ↔ ∀ layer ∈ layers, mentions place layer = [] := by
  rw [effective, mergeAllOver_eq_none_iff, List.flatMap_eq_nil_iff]
  exact and_iff_right rfl

/-- A layer that gives nothing for a place might as well not be there. -/
theorem effective_of_mentions_eq_nil (h : mentions place layer = []) :
    effective (below ++ layer :: above) place = effective (below ++ above) place := by
  rw [effective, effective, List.flatMap_append, List.flatMap_cons, h, List.nil_append,
    List.flatMap_append]

end Effective

/-- Values that are equal, or tables that give something for the same names. -/
def SameNames (v w : Value) : Prop :=
  v = w ∨ (IsTable v ∧ IsTable w) ∧
    ∀ name, given name (entriesOf v) = [] ↔ given name (entriesOf w) = []

section SameNames

variable {v w root root' : Value} {vs ws : List Value} {low low' : Option Value}
  {entries entries' : List (String × Value)} {name key : String}

theorem SameNames.isTable (h : SameNames v w) (hv : IsTable v) : IsTable w := by
  rcases h with rfl | ⟨⟨-, hw⟩, -⟩
  · exact hv
  · exact hw

theorem SameNames.given_eq_nil_iff (h : SameNames v w) (name : String) :
    given name (entriesOf v) = [] ↔ given name (entriesOf w) = [] := by
  rcases h with rfl | ⟨-, hnames⟩
  · exact Iff.rfl
  · exact hnames name

theorem given_eq_nil_iff : given name entries = [] ↔ ∀ e ∈ entries, Text.lowercase e.1 ≠ name := by
  simp [given, List.filterMap_eq_nil_iff]

/-- Each entry gives something, for the lower case of its key. -/
theorem eq_nil_iff_given : entries = [] ↔ ∀ name, given name entries = [] := by
  constructor
  · rintro rfl name
    rfl
  · intro h
    refine List.eq_nil_iff_forall_not_mem.2 fun e he => ?_
    exact given_eq_nil_iff.1 (h (Text.lowercase e.1)) e he rfl

theorem given_table_singleton_eq_nil_iff :
    given name (entriesOf (.table [(key, v)])) = [] ↔ Text.lowercase key ≠ name := by
  simp [entriesOf, given_eq_nil_iff]

/-- A normal value gives something for the names that it has. -/
theorem part_eq_none_iff (h : IsNormal v) : part name v = none ↔ given name (entriesOf v) = [] := by
  obtain ⟨hsorted, hnormal⟩ := isNormal_entriesOf h
  rw [given_eq_toList name hsorted fun e he => (areNormal_iff.1 hnormal e he).1, part]
  cases lookup name (entriesOf v) <;> simp

theorem sameNames_nested (h : SameNames v w) (steps : List Step) :
    SameNames (nested steps v) (nested steps w) := by
  cases steps with
  | nil => exact h
  | cons step steps =>
    cases step with
    | name key =>
      refine .inr ⟨⟨⟨_, rfl⟩, ⟨_, rfl⟩⟩, fun name => ?_⟩
      rw [nested, nested, given_table_singleton_eq_nil_iff, given_table_singleton_eq_nil_iff]
    | position index => exact .inl rfl

/-- Arranging keeps the names of a table. -/
theorem sameNames_arranged (order : Order) (place : List String) (v : Value) :
    SameNames v (arranged order place v) := by
  cases v with
  | table entries =>
    refine .inr ⟨⟨⟨_, rfl⟩, ⟨_, rfl⟩⟩, fun name => ?_⟩
    have hperm := (entriesOf_arranged_perm order place (.table entries)).filterMap fun e =>
      if Text.lowercase e.1 = name then some e.2 else none
    have hnil : given name (entriesOf (arranged order place (.table entries))) = [] ↔ given name
        (entries.map fun e => (e.1, arranged order (place ++ [e.1]) e.2)) = [] :=
      ⟨fun h => List.nil_perm.1 (h ▸ hperm), fun h => List.perm_nil.1 (h ▸ hperm)⟩
    rw [hnil, given_eq_nil_iff, given_eq_nil_iff, List.forall_mem_map]
    rfl
  | absent | bool | int | real | text | list => exact .inl rfl

/-- Merging tables with the same names keeps what is there so, on either side. -/
theorem sameNames_mergeEntries (hroot : SameNames root root') (hnormal : IsNormal root)
    (hnormal' : IsNormal root')
    (hnames : ∀ name, given name entries = [] ↔ given name entries' = []) :
    SameNames (mergeEntries entries root) (mergeEntries entries' root') := by
  have hboth : entries = [] ↔ entries' = [] := by
    rw [eq_nil_iff_given, eq_nil_iff_given]
    exact forall_congr' hnames
  by_cases hnil : entries = []
  -- then both roots stay what they are
  · rw [hnil, hboth.1 hnil, mergeEntries, mergeEntries]
    exact hroot
  -- with entries there is a table on both sides, even where none was before
  · have hnil' : entries' ≠ [] := mt hboth.2 hnil
    refine .inr ⟨⟨isTable_mergeEntries_of_ne_nil hnil root,
      isTable_mergeEntries_of_ne_nil hnil' root'⟩, fun name => ?_⟩
    rw [← part_eq_none_iff (isNormal_mergeEntries entries hnormal),
      ← part_eq_none_iff (isNormal_mergeEntries entries' hnormal'), part_mergeEntries,
      part_mergeEntries, mergeAllOver_eq_none_iff, mergeAllOver_eq_none_iff, hnames,
      part_eq_none_iff hnormal, part_eq_none_iff hnormal', hroot.given_eq_nil_iff]

theorem sameNames_mergeOver (hlow : Option.Rel SameNames low low')
    (hnormal : ∀ u, low = some u → IsNormal u) (hnormal' : ∀ u, low' = some u → IsNormal u)
    (h : SameNames v w) : SameNames (mergeOver low v) (mergeOver low' w) := by
  have hroot : SameNames (low.getD (.table [])) (low'.getD (.table [])) := by
    cases hlow with
    | none => exact .inl rfl
    | some h => exact h
  have hroots {low : Option Value} (h : ∀ u, low = some u → IsNormal u) :
      IsNormal (low.getD (.table [])) := by
    cases low with
    | none => exact ⟨.nil, trivial⟩
    | some u => exact h u rfl
  have htables (entries entries' : List (String × Value))
      (hnames : ∀ name, given name entries = [] ↔ given name entries' = []) :
      SameNames (mergeOver low (.table entries)) (mergeOver low' (.table entries')) :=
    sameNames_mergeEntries hroot (hroots hnormal) (hroots hnormal') hnames
  rcases h with rfl | ⟨⟨⟨entries, rfl⟩, ⟨entries', rfl⟩⟩, hnames⟩
  · cases v with
    | table entries => exact htables entries entries fun _ => Iff.rfl
    | absent | bool | int | real | text | list => exact .inl rfl
  · exact htables entries entries' hnames

/-- A normal table is known by its names, but for its values. -/
theorem gist_eq_of_sameNames (h : SameNames v w) (hv : IsNormal v) (hw : IsNormal w) :
    gist v = gist w := by
  rcases h with rfl | ⟨⟨⟨entries, rfl⟩, ⟨entries', rfl⟩⟩, hnames⟩
  · rfl
  -- the names are in order on both sides, so that it is enough to look each of them up
  · refine congrArg Value.table (eq_of_lookup_eq (List.pairwise_map.2 hv.1)
      (List.pairwise_map.2 hw.1) fun name => ?_)
    have hsame : part name (.table entries) = none ↔ part name (.table entries') = none := by
      rw [part_eq_none_iff hv, part_eq_none_iff hw, hnames]
    have hlookup (entries : List (String × Value)) :
        lookup name (entries.map fun e => (e.1, Value.absent)) =
          (part name (.table entries)).map fun _ => .absent :=
      SortedMap.lookup_map (fun _ => Value.absent) name entries
    rw [hlookup, hlookup]
    revert hsame
    cases part name (.table entries) <;> cases part name (.table entries') <;> simp

theorem rel_mergeAllOver (h : List.Forall₂ SameNames vs ws) (hlow : Option.Rel SameNames low low')
    (hnormal : ∀ u, low = some u → IsNormal u) (hnormal' : ∀ u, low' = some u → IsNormal u) :
    (mergeAllOver low vs).map gist = (mergeAllOver low' ws).map gist := by
  induction h generalizing low low' with
  | nil =>
    cases hlow with
    | none => rfl
    | some h => exact congrArg some (gist_eq_of_sameNames h (hnormal _ rfl) (hnormal' _ rfl))
  | cons hhead _ ih =>
    refine ih (.some (sameNames_mergeOver hlow hnormal hnormal' hhead)) ?_ ?_
    · rintro u ⟨⟩
      exact isNormal_mergeOver _ hnormal
    · rintro u ⟨⟩
      exact isNormal_mergeOver _ hnormal'

end SameNames

section Arranged

variable {α : Type} {place : List String} {layer come : Layer} {layers : List Layer}

/-- Lists that are put together of parts that agree in some order agree in some order. -/
theorem rel_flatMap {R : Value → Value → Prop} {f g : α → List Value} (l : List α)
    (h : ∀ a ∈ l, Multiset.Rel R (f a) (g a)) : Multiset.Rel R (l.flatMap f) (l.flatMap g) := by
  induction l with
  | nil => exact .zero
  | cons a l ih =>
    obtain ⟨hhead, hrest⟩ := List.forall_mem_cons.1 h
    rw [List.flatMap_cons, List.flatMap_cons, ← Multiset.coe_add, ← Multiset.coe_add]
    exact hhead.add (ih hrest)

theorem flatMap_filterMap_ite {β γ : Type} (p : α → Prop) [DecidablePred p] (f : α → β)
    (g : β → List γ) (l : List α) :
    (l.filterMap fun a => if p a then some (f a) else none).flatMap g =
      l.flatMap fun a => if p a then g (f a) else [] := by
  induction l with
  | nil => rfl
  | cons a l ih =>
    by_cases h : p a <;> simp [h, ih]

/-- A value gives the same at a place in any order, but for the order. -/
theorem rel_valuesAt_arranged (order : Order) (q place : List String) (v : Value) :
    Multiset.Rel SameNames (valuesAt place v) (valuesAt place (arranged order q v)) := by
  -- on the place: an inner table is arranged as one at its own place
  induction place generalizing q v with
  | nil => exact .cons (sameNames_arranged order q v) .zero
  | cons name place ih =>
    have hperm := (entriesOf_arranged_perm order q v).flatMap_right fun e =>
      if Text.lowercase e.1 = name then valuesAt place e.2 else []
    rw [valuesAt, valuesAt, given, given, flatMap_filterMap_ite, flatMap_filterMap_ite,
      Multiset.coe_eq_coe.2 hperm, List.flatMap_map]
    refine rel_flatMap _ fun e _ => ?_
    split
    · exact ih _ _
    · exact .zero

theorem rel_valuesAt_nested (order : Order) (q : List String) (steps : List Step) (v : Value)
    (place : List String) : Multiset.Rel SameNames (valuesAt place (nested steps v))
      (valuesAt place (nested steps (arranged order q v))) := by
  -- the tables that a path stands for have one entry each, and only the value has an order
  induction steps generalizing place with
  | nil => exact rel_valuesAt_arranged order q place v
  | cons step steps ih =>
    cases place with
    | nil => exact .cons (sameNames_nested (sameNames_arranged order q v) _) .zero
    | cons name place =>
      cases step with
      | name key =>
        simp only [nested, valuesAt, entriesOf, given, flatMap_filterMap_ite, List.flatMap_cons,
          List.flatMap_nil, List.append_nil]
        split
        · exact ih place
        · exact .zero
      | position index => exact .zero

/-- A layer gives the same at a place in whatever order its keys come up, but for the order. -/
theorem rel_mentions_arranged (order : Order) (place : List String) (layer : Layer) :
    Multiset.Rel SameNames (mentions place layer) (mentions place (layer.arranged order)) := by
  cases place with
  | nil => exact .zero
  | cons name place =>
    have hperm := (layer.arranged_perm order).flatMap_right fun e =>
      if (Path.ofKey e.1).name = name then valuesAt place (nested (Path.ofKey e.1).steps e.2)
        else []
    rw [mentions, mentions, givenBy, givenBy, flatMap_filterMap_ite, flatMap_filterMap_ite,
      Multiset.coe_eq_coe.2 hperm, List.flatMap_map]
    refine rel_flatMap _ fun e _ => ?_
    split
    · exact rel_valuesAt_nested order [e.1] _ _ place
    · exact .zero

theorem forall₂_of_rel {R : Value → Value → Prop} {vs ws : List Value}
    (h : Multiset.Rel R vs ws) (hlength : vs.length ≤ 1) : List.Forall₂ R vs ws := by
  match vs with
  | [] =>
    rw [(Multiset.coe_eq_zero ws).1 (Multiset.rel_zero_left.1 h)]
    exact .nil
  | [v] =>
    have hcons : Multiset.Rel R (v ::ₘ 0) ws := h
    obtain ⟨w, rest, hw, hrest, heq⟩ := Multiset.rel_cons_left.1 hcons
    rw [Multiset.rel_zero_left.1 hrest] at heq
    rw [Multiset.coe_eq_singleton.1 heq]
    exact .cons hw .nil
  | _ :: _ :: _ => simp at hlength

/-- A place that no layer mentions twice has the same value in whatever order the keys of layers
come up, as far as a setting is concerned. -/
theorem map_gist_effective {come : List Layer} (hcome : List.Forall₂ Layer.ComesUpAs layers come)
    (honce : ∀ layer ∈ layers, (mentions place layer).length ≤ 1) :
    (effective layers place).map gist = (effective come place).map gist := by
  have hvalues : List.Forall₂ SameNames (layers.flatMap (mentions place))
      (come.flatMap (mentions place)) := by
    induction hcome with
    | nil => exact .nil
    | cons hlayer _ ih =>
      obtain ⟨order, rfl⟩ := hlayer
      obtain ⟨hhead, hrest⟩ := List.forall_mem_cons.1 honce
      exact List.rel_append (forall₂_of_rel (rel_mentions_arranged order place _) hhead)
        (ih hrest)
  have hnormal (u : Value) (hu : none = some u) : IsNormal u :=
    absurd hu.symm (Option.some_ne_none u)
  exact rel_mergeAllOver hvalues .none hnormal hnormal

/-- A layer that gives nothing but tables for a name does so in any order. -/
theorem Layer.ComesUpAs.isTable {name : String} (h : layer.ComesUpAs come)
    (htables : ∀ v ∈ givenBy name layer, IsTable v) : ∀ v ∈ givenBy name come, IsTable v := by
  obtain ⟨order, rfl⟩ := h
  have hrel := rel_mentions_arranged order [name] layer
  rw [mentions_one, mentions_one] at hrel
  intro w hw
  obtain ⟨v, hv, hsame⟩ := Multiset.exists_mem_of_rel_of_mem (Multiset.rel_flip.2 hrel) hw
  exact hsame.isTable (htables v hv)

end Arranged

end BatchRun.Settings
