import BatchRun.Proofs.Settings.Arranging
import BatchRun.Proofs.SortedMap
import BatchRun.Proofs.Text.Lowercase

/-!
# Merging layers

A layer changes a table name by name: what is merged over the value at a name is all that is given
for that name, in its order, and nothing that is given for another one. A path is a table in a
table. Only a table is merged into what is there; any other value takes its place. A position makes
a list of what is there. What is in lists is left open here, as no setting is taken from one.

A table that was merged is in order, its names are in lower case, and so are those in its tables.
Following its keys once more changes nothing then, unless a key has become a path by its lower case.

## Main definitions

* `mergeOver`: a value that is merged over another one
* `given`: the values that entries give for a name
* `nested`: a path as a table in a table
* `KeepsTables`: changes of values that merging does not notice
* `IsSettled`: keys that stay what they are when they are followed once more
* `emptied`: a value with its lists emptied
* `IsTable`: a value with entries
* `IsNormal`: values whose tables are in order and in lower case

## Main results

* `part_mergeEntries`: what merging does at a name
* `KeepsTables.map_mergeOver`: changing before merging, or after it
* `IsMerged.of_mergeKeys`: what the keys of a layer do, one after the other
* `IsMerged.settle_eq`: following the keys of a merged table once more, in any order
-/

namespace BatchRun.Settings

open BatchRun.Toml (Value)

open SortedMap (lookup insertEntry)

/-- The value at a name of a table. -/
def part (name : String) (root : Value) : Option Value := lookup name (entriesOf root)

/-- What a value becomes that is merged over another one, if there is one. -/
def mergeOver (low : Option Value) : Value → Value
  | .table entries => mergeEntries entries (low.getD (.table []))
  | v => v

/-- Values that are merged over another one, if there is one, in their order. -/
def mergeAllOver (low : Option Value) (vs : List Value) : Option Value :=
  vs.foldl (fun low v => some (mergeOver low v)) low

/-- The values that entries give for a name, in their order. -/
def given (name : String) (entries : List (String × Value)) : List Value :=
  entries.filterMap fun e => if Text.lowercase e.1 = name then some e.2 else none

theorem mergeAllOver_append (low : Option Value) (vs ws : List Value) :
    mergeAllOver low (vs ++ ws) = mergeAllOver (mergeAllOver low vs) ws :=
  List.foldl_append ..

section Entries

variable {name key : String} {v root : Value} {entries : List (String × Value)}

theorem mergeEntry_eq (key : String) (v root : Value) : mergeEntry key v root =
    .table (insertEntry (Text.lowercase key) (mergeOver (part (Text.lowercase key) root) v)
      (entriesOf root)) := by
  cases v <;> simp only [mergeEntry, mergeOver, part]

/-- Where a value is merged in, only the entries that are there matter. -/
theorem mergeEntry_congr {root' : Value} (h : entriesOf root = entriesOf root') :
    mergeEntry key v root = mergeEntry key v root' := by
  rw [mergeEntry_eq, mergeEntry_eq, part, part, h]

theorem part_table_insertEntry (name key : String) (v : Value) :
    part name (.table (insertEntry key v entries)) =
      if name = key then some v else lookup name entries := by
  split
  · next h => rw [h]; exact SortedMap.lookup_insertEntry_self key v entries
  · next h => exact SortedMap.lookup_insertEntry_of_ne h v entries

/-- A value that is merged in at a name changes what is there, and nothing else. -/
theorem part_mergeEntry (name key : String) (v root : Value) : part name (mergeEntry key v root) =
    if name = Text.lowercase key then some (mergeOver (part name root) v) else part name root := by
  rw [mergeEntry_eq, part_table_insertEntry]
  split
  · next h => rw [h]
  · rfl

/-- Entries change at a name what they give for it, and nothing else. -/
theorem part_mergeEntries (name : String) (entries : List (String × Value)) (root : Value) :
    part name (mergeEntries entries root) = mergeAllOver (part name root) (given name entries) := by
  induction entries generalizing root with
  | nil => simp only [mergeEntries, given, mergeAllOver, List.filterMap_nil, List.foldl_nil]
  | cons e rest ih =>
    obtain ⟨key, v⟩ := e
    rw [mergeEntries, ih, part_mergeEntry, given, given, List.filterMap_cons]
    by_cases h : Text.lowercase key = name
    · rw [if_pos h.symm, if_pos h]
      rfl
    · rw [if_neg (Ne.symm h), if_neg h]

end Entries

/-- What is at the end of some steps, as a table in a table. What is in lists is left open. -/
def nested : List Step → Value → Value
  | [], v => v
  | .name key :: steps, v => .table [(key, nested steps v)]
  | .position _ :: _, _ => .list []

/-- Whether a step leads neither in front of a list nor so far behind it that no list could be that
long. -/
def Step.IsCounted : Step → Prop
  | .name _ => True
  | .position index => 0 ≤ index ∧ (index.toNat + 1) * itemBytes ≤ addressableBytes

/-- Whether a key stays what it is when it is followed once more. -/
def IsSettled (key : String) : Prop :=
  Path.ofKey (Path.ofKey key).name = ⟨(Path.ofKey key).name, []⟩

mutual

/-- A value with its lists emptied. -/
def emptied : Value → Value
  | .table entries => .table (allEmptied entries)
  | .list _ => .list []
  | v => v

/-- Entries with the lists in them emptied. -/
def allEmptied : List (String × Value) → List (String × Value)
  | [] => []
  | (key, v) :: rest => (key, emptied v) :: allEmptied rest

end

/-- A value with entries, which may be none. -/
def IsTable (v : Value) : Prop := ∃ entries, v = .table entries

/-- A change of values that leaves tables tables with the same names, and makes no other ones. -/
structure KeepsTables (f : Value → Value) : Prop where
  table : ∀ entries, f (.table entries) = .table (entries.map fun e => (e.1, f e.2))
  other : ∀ v, (∀ entries, v ≠ .table entries) → ∀ entries, f v ≠ .table entries

namespace KeepsTables

variable {f : Value → Value} {key : String} {entries : List (String × Value)} {v : Value}

theorem entriesOf_map (h : KeepsTables f) (v : Value) :
    entriesOf (f v) = (entriesOf v).map fun e => (e.1, f e.2) := by
  have hnone (hv : ∀ entries, v ≠ .table entries) : entriesOf (f v) = [] := by
    have hother := h.other v hv
    revert hother
    cases f v with
    | table entries => exact fun hother => absurd rfl (hother entries)
    | absent | bool | int | real | text | list => exact fun _ => rfl
  cases v with
  | table entries => rw [h.table]; rfl
  | absent | bool | int | real | text | list => exact hnone nofun

theorem part_map (h : KeepsTables f) (name : String) (v : Value) :
    part name (f v) = (part name v).map f := by
  rw [part, h.entriesOf_map, SortedMap.lookup_map, part]

theorem map_table_insertEntry (h : KeepsTables f) (key : String) (v : Value)
    (entries : List (String × Value)) : f (.table (insertEntry key v entries)) =
      .table (insertEntry key (f v) (entries.map fun e => (e.1, f e.2))) := by
  rw [h.table, SortedMap.insertEntry_map]

/-- What is no table takes the place of what is there, and so does what it is changed to. -/
theorem mergeOver_of_other (h : KeepsTables f) (hv : ∀ entries, v ≠ .table entries)
    (low : Option Value) : mergeOver low (f v) = f v := by
  have hother := h.other v hv
  revert hother
  cases f v with
  | table entries => exact fun hother => absurd rfl (hother entries)
  | absent | bool | int | real | text | list => exact fun _ => rfl

mutual

/-- It comes to the same whether values are changed before or after merging. -/
theorem map_mergeOver (h : KeepsTables f) (v : Value) (low : Option Value) :
    f (mergeOver low v) = mergeOver (low.map f) (f v) := by
  cases v with
  | table entries =>
    have hlow : (low.map f).getD (.table []) = f (low.getD (.table [])) := by
      cases low with
      | none => exact (h.table []).symm
      | some u => rfl
    rw [h.table, mergeOver, mergeOver, hlow]
    exact map_mergeEntries h entries _
  | absent | bool | int | real | text | list => exact (h.mergeOver_of_other (by nofun) _).symm

theorem map_mergeEntries (h : KeepsTables f) (entries : List (String × Value)) (root : Value) :
    f (mergeEntries entries root) =
      mergeEntries (entries.map fun e => (e.1, f e.2)) (f root) := by
  cases entries with
  | nil => rw [mergeEntries, List.map_nil, mergeEntries]
  | cons e rest =>
    obtain ⟨key, v⟩ := e
    rw [List.map_cons, mergeEntries, mergeEntries, map_mergeEntries h rest, mergeEntry_eq,
      mergeEntry_eq, h.map_table_insertEntry, map_mergeOver h v, h.part_map, h.entriesOf_map]

end

theorem map_mergeAllOver (h : KeepsTables f) (low : Option Value) (vs : List Value) :
    (mergeAllOver low vs).map f = mergeAllOver (low.map f) (vs.map f) := by
  induction vs generalizing low with
  | nil => rfl
  | cons v vs ih =>
    refine (ih _).trans ?_
    rw [Option.map_some, h.map_mergeOver]
    rfl

end KeepsTables

theorem allEmptied_eq_map (entries : List (String × Value)) :
    allEmptied entries = entries.map fun e => (e.1, emptied e.2) := by
  induction entries with
  | nil => rfl
  | cons e rest ih => rw [allEmptied, ih, List.map_cons]

theorem keepsTables_emptied : KeepsTables emptied where
  table entries := by rw [emptied, allEmptied_eq_map]
  other v hv := by
    cases v with
    | table entries => exact absurd rfl (hv entries)
    | absent | bool | int | real | text | list => exact fun _ h => by cases h

/-- What goes on without an error has begun without one. -/
theorem exists_of_bind_eq_ok {ε α β : Type} {x : Except ε α} {f : α → Except ε β} {b : β}
    (h : x.bind f = .ok b) : ∃ a, x = .ok a ∧ f a = .ok b := by
  cases x with
  | ok a => exact ⟨a, rfl, h⟩
  | error fault => cases h

section Steps

variable {key : String} {steps : List Step} {v root : Value}

theorem mergeSteps_name_cons (key : String) (step : Step) (steps : List Step) (v root : Value) :
    mergeSteps v (.name key :: step :: steps) root =
      (mergeSteps v (step :: steps) ((part key root).getD .absent)).bind fun inner =>
        .ok (.table (insertEntry key inner (entriesOf root))) := by
  rw [mergeSteps]
  · rfl
  · exact nofun

theorem mergeSteps_position_cons (index : Int) (steps : List Step) (v root : Value) :
    mergeSteps v (.position index :: steps) root =
      (placeOf index (itemsOf root).length).bind fun place =>
        (extended place (itemsOf root)).bind fun items =>
          (mergeSteps v steps (items[place]?.getD .absent)).bind fun item =>
            .ok (.list (items.set place item)) := by
  rw [mergeSteps]
  rfl

/-- A path is merged in like a table in a table, but for what is in lists. -/
theorem emptied_mergeSteps {root' : Value} (hkey : Text.lowercase key = key)
    (hsteps : ∀ name, .name name ∈ steps → Text.lowercase name = name)
    (h : mergeSteps v (.name key :: steps) root = .ok root') :
    emptied root' = emptied (mergeEntry key (nested steps v) root) := by
  induction steps generalizing key root root' with
  | nil =>
    obtain rfl := Except.ok.inj h
    rfl
  | cons step steps ih =>
    obtain ⟨inner, hinner, h⟩ := exists_of_bind_eq_ok ((mergeSteps_name_cons ..).symm.trans h)
    obtain rfl := Except.ok.inj h
    have hsame : emptied inner =
        emptied (mergeOver (part key root) (nested (step :: steps) v)) := by
      cases step with
      | name name =>
        -- nothing is there, or a table without entries: it comes to the same
        have hentries (low : Option Value) :
            entriesOf (low.getD .absent) = entriesOf (low.getD (.table [])) := by
          cases low <;> rfl
        rw [ih (hsteps name List.mem_cons_self)
          (fun name hname => hsteps name (List.mem_cons_of_mem _ hname)) hinner,
          mergeEntry_congr (hentries _)]
        simp only [nested, mergeOver, mergeEntries]
      | position index =>
        obtain ⟨place, -, hinner⟩ :=
          exists_of_bind_eq_ok ((mergeSteps_position_cons ..).symm.trans hinner)
        obtain ⟨items, -, hinner⟩ := exists_of_bind_eq_ok hinner
        obtain ⟨item, -, hinner⟩ := exists_of_bind_eq_ok hinner
        obtain rfl := Except.ok.inj hinner
        rfl
    rw [mergeEntry_eq, hkey, keepsTables_emptied.map_table_insertEntry, hsame,
      keepsTables_emptied.map_table_insertEntry]

/-- A path whose positions can be counted is merged in without a fault. -/
theorem exists_mergeSteps (hsteps : ∀ step ∈ steps, step.IsCounted) (v root : Value) :
    ∃ root', mergeSteps v steps root = .ok root' := by
  induction steps generalizing root with
  | nil => exact ⟨v, rfl⟩
  | cons step steps ih =>
    obtain ⟨hstep, hrest⟩ := List.forall_mem_cons.1 hsteps
    cases step with
    | name key =>
      cases steps with
      | nil => exact ⟨_, rfl⟩
      | cons next steps =>
        obtain ⟨inner, hinner⟩ := ih hrest ((part key root).getD .absent)
        exact ⟨_, by rw [mergeSteps_name_cons, hinner]; rfl⟩
    | position index =>
      obtain ⟨hpos, hsize⟩ := hstep
      have hplace : placeOf index (itemsOf root).length = .ok index.toNat := if_pos hpos
      obtain ⟨items, hitems⟩ : ∃ items, extended index.toNat (itemsOf root) = .ok items := by
        rw [extended, if_neg (Nat.not_lt.2 hsize)]
        split <;> exact ⟨_, rfl⟩
      obtain ⟨item, hitem⟩ := ih hrest (items[index.toNat]?.getD .absent)
      refine ⟨.list (items.set index.toNat item), ?_⟩
      simp only [mergeSteps_position_cons, hplace, hitems, hitem, Except.bind]

/-- What is merged in at a path comes to the name in front. -/
theorem exists_of_mergePath {path : Path} {root' : Value} (h : mergePath path v root = .ok root')
    (hlower : Text.lowercase path.name = path.name) :
    ∃ inner, root' = .table (insertEntry path.name inner (entriesOf root)) := by
  obtain ⟨key, steps⟩ := path
  rw [mergePath] at h
  cases steps with
  | nil =>
    obtain rfl := Except.ok.inj h
    exact ⟨_, by rw [mergeEntry_eq, hlower]⟩
  | cons step steps =>
    obtain ⟨inner, -, h⟩ := exists_of_bind_eq_ok ((mergeSteps_name_cons ..).symm.trans h)
    exact ⟨inner, (Except.ok.inj h).symm⟩

end Steps

section Paths

/-- The names of the steps behind a name are in lower case. -/
theorem lowercase_of_mem_readSteps {bound : Nat} {cs : List Char} {steps : List Step}
    (h : readSteps bound cs = some steps) {name : String} (hname : .name name ∈ steps) :
    Text.lowercase name = name := by
  fun_induction readSteps bound cs generalizing steps with
  | case1 => cases h
  | case2 =>
    obtain rfl := Option.some.inj h
    cases hname
  | case3 => cases h
  | case4 =>
    rename_i ih
    obtain ⟨steps, hsteps, rfl⟩ := Option.map_eq_some_iff.1 h
    rcases List.mem_cons.1 hname with heq | hname
    · rw [Step.name.inj heq, Text.lowercase_lowercase]
    · exact ih hsteps hname
  | case5 =>
    rename_i ih
    obtain ⟨steps, hsteps, rfl⟩ := Option.map_eq_some_iff.1 h
    rcases List.mem_cons.1 hname with heq | hname
    · cases heq
    · exact ih hsteps hname
  | case6 => cases h
  | case7 => cases h

theorem Path.lowercase_name (key : String) :
    Text.lowercase (Path.ofKey key).name = (Path.ofKey key).name := by
  simp only [Path.ofKey]
  split <;> exact Text.lowercase_lowercase _

theorem Path.lowercase_of_mem_steps {key name : String}
    (h : .name name ∈ (Path.ofKey key).steps) : Text.lowercase name = name := by
  simp only [Path.ofKey] at h
  split at h
  · next steps hsteps =>
    split at hsteps
    · cases hsteps
    · exact lowercase_of_mem_readSteps hsteps h
  · cases h

end Paths

/-- Entries whose names are in strictly increasing order. -/
abbrev InOrder (entries : List (String × Value)) : Prop :=
  entries.Pairwise fun a b => compare a.1 b.1 = .lt

mutual

/-- Values whose tables are in order, with names in lower case. What is in a list does not
matter. -/
def IsNormal : Value → Prop
  | .table entries => InOrder entries ∧ AreNormal entries
  | _ => True

/-- Entries with names in lower case and with such values. -/
def AreNormal : List (String × Value) → Prop
  | [] => True
  | (key, v) :: rest => Text.lowercase key = key ∧ IsNormal v ∧ AreNormal rest

end

section Normal

variable {key : String} {v root : Value} {entries acc : List (String × Value)}

theorem areNormal_iff :
    AreNormal entries ↔ ∀ e ∈ entries, Text.lowercase e.1 = e.1 ∧ IsNormal e.2 := by
  induction entries with
  | nil => simp [AreNormal]
  | cons e rest ih => simp [AreNormal, ih, and_assoc]

theorem isNormal_entriesOf (h : IsNormal root) : IsNormal (.table (entriesOf root)) := by
  cases root with
  | table entries => exact h
  | absent | bool | int | real | text | list => exact ⟨.nil, trivial⟩

theorem isNormal_of_part (h : IsNormal root) (hpart : part key root = some v) : IsNormal v :=
  (areNormal_iff.1 (isNormal_entriesOf h).2 _ (SortedMap.mem_of_lookup hpart)).2

/-- A normal value at a name in lower case. -/
theorem isNormal_insertEntry (h : IsNormal root) (hkey : Text.lowercase key = key)
    (hv : IsNormal v) : IsNormal (.table (insertEntry key v (entriesOf root))) := by
  obtain ⟨hsorted, hnormal⟩ := isNormal_entriesOf h
  refine ⟨SortedMap.sorted_insertEntry key v hsorted, areNormal_iff.2 fun e he => ?_⟩
  rcases SortedMap.eq_or_mem_of_mem_insertEntry he with rfl | he
  · exact ⟨hkey, hv⟩
  · exact areNormal_iff.1 hnormal e he

mutual

theorem isNormal_mergeOver (v : Value) {low : Option Value} (h : ∀ u, low = some u → IsNormal u) :
    IsNormal (mergeOver low v) := by
  cases v with
  | table entries =>
    refine isNormal_mergeEntries entries ?_
    cases low with
    | none => exact ⟨.nil, trivial⟩
    | some u => exact h u rfl
  | absent | bool | int | real | text | list => trivial

/-- Merging keeps tables normal, whatever is merged in. -/
theorem isNormal_mergeEntries (entries : List (String × Value)) {root : Value}
    (h : IsNormal root) : IsNormal (mergeEntries entries root) := by
  cases entries with
  | nil => rwa [mergeEntries]
  | cons e rest =>
    obtain ⟨key, v⟩ := e
    rw [mergeEntries, mergeEntry_eq]
    refine isNormal_mergeEntries rest (isNormal_insertEntry h (Text.lowercase_lowercase key) ?_)
    exact isNormal_mergeOver v fun u hu => isNormal_of_part h hu

end

theorem isTable_mergeEntries (entries : List (String × Value)) (h : IsTable root) :
    IsTable (mergeEntries entries root) := by
  induction entries generalizing root with
  | nil => rwa [mergeEntries]
  | cons e rest ih =>
    rw [mergeEntries, mergeEntry_eq]
    exact ih ⟨_, rfl⟩

/-- Where there is an entry, a table comes of anything. -/
theorem isTable_mergeEntries_of_ne_nil (h : entries ≠ []) (root : Value) :
    IsTable (mergeEntries entries root) := by
  obtain ⟨e, rest, rfl⟩ := List.exists_cons_of_ne_nil h
  rw [mergeEntries, mergeEntry_eq]
  exact isTable_mergeEntries rest ⟨_, rfl⟩

/-- Entries in order and in lower case give for a name the one value that is there. -/
theorem given_eq_toList (name : String) (hsorted : InOrder entries)
    (hlower : ∀ e ∈ entries, Text.lowercase e.1 = e.1) :
    given name entries = (lookup name entries).toList := by
  induction entries with
  | nil => rfl
  | cons e rest ih =>
    obtain ⟨key, v⟩ := e
    obtain ⟨hhead, hsorted⟩ := List.pairwise_cons.1 hsorted
    obtain ⟨hkey, hlower⟩ := List.forall_mem_cons.1 hlower
    have hrest := ih hsorted hlower
    rw [given] at hrest ⊢
    rw [List.filterMap_cons, hkey, hrest]
    by_cases heq : name = key
    · subst heq
      have hnone : lookup name rest = none := Option.eq_none_iff_forall_ne_some.2 fun u hu =>
        SortedMap.ne_of_compare_lt (hhead _ (SortedMap.mem_of_lookup hu)) rfl
      rw [if_pos rfl, hnone, SortedMap.lookup_cons_self]
      rfl
    · rw [if_neg (Ne.symm heq), SortedMap.lookup_cons_of_ne heq]

/-- So they do in whatever order their keys come up. -/
theorem given_arranged (name : String) (order : Order) (place : List String)
    (hsorted : InOrder entries) (hlower : ∀ e ∈ entries, Text.lowercase e.1 = e.1) :
    given name (entriesOf (arranged order place (.table entries))) =
      ((lookup name entries).map (arranged order (place ++ [name]))).toList := by
  have hsorted' : InOrder (entries.map fun e => (e.1, arranged order (place ++ [e.1]) e.2)) :=
    List.pairwise_map.2 hsorted
  have hvalues : given name (entries.map fun e => (e.1, arranged order (place ++ [e.1]) e.2)) =
      ((lookup name entries).map (arranged order (place ++ [name]))).toList := by
    rw [given_eq_toList name hsorted' (List.forall_mem_map.2 hlower)]
    exact congrArg Option.toList
      (SortedMap.lookup_mapEntries (fun key => arranged order (place ++ [key])) name entries)
  have hperm : (given name (entriesOf (arranged order place (.table entries)))).Perm
      ((lookup name entries).map (arranged order (place ++ [name]))).toList :=
    hvalues ▸ (entriesOf_arranged_perm order place (.table entries)).filterMap _
  cases hfound : lookup name entries with
  | none =>
    rw [hfound] at hperm
    exact List.perm_nil.1 hperm
  | some u =>
    rw [hfound] at hperm
    exact List.perm_singleton.1 hperm

theorem eq_of_lookup_eq {entries' : List (String × Value)} (hsorted : InOrder entries)
    (hsorted' : InOrder entries') (h : ∀ name, lookup name entries = lookup name entries') :
    entries = entries' := by
  have hmaps : (⟨entries, hsorted⟩ : SortedMap String Value) = ⟨entries', hsorted'⟩ :=
    SortedMap.eq_of_get?_eq h
  exact congrArg SortedMap.entries hmaps

mutual

/-- A normal value is what it is merged to, in whatever order its keys come up. -/
theorem mergeOver_none_arranged (v : Value) (h : IsNormal v) (order : Order)
    (place : List String) : mergeOver none (arranged order place v) = v := by
  cases v with
  | table entries =>
    have hvalues := mergeOver_none_allArranged entries h.2 order
    have hgiven (name : String) := given_arranged name order place h.1
      fun e he => (areNormal_iff.1 h.2 e he).1
    obtain ⟨keys, hkeys⟩ : ∃ keys, arranged order place (.table entries) = .table keys := ⟨_, rfl⟩
    rw [hkeys] at hgiven ⊢
    obtain ⟨merged, hmerged⟩ : IsTable (mergeOver none (.table keys)) :=
      isTable_mergeEntries keys ⟨[], rfl⟩
    have hnormal : IsNormal (.table merged) := hmerged ▸ isNormal_mergeOver (.table keys) nofun
    rw [hmerged]
    refine congrArg Value.table (eq_of_lookup_eq hnormal.1 h.1 fun name => ?_)
    -- each name is given once, and its value is what it is merged to
    have hpart : part name (.table merged) =
        mergeAllOver none ((lookup name entries).map (arranged order (place ++ [name]))).toList := by
      rw [← hmerged, ← hgiven]
      exact part_mergeEntries name keys (.table [])
    refine hpart.trans ?_
    cases hfound : lookup name entries with
    | none => rfl
    | some u => exact congrArg some (hvalues _ (SortedMap.mem_of_lookup hfound) _)
  | absent | bool | int | real | text | list => rfl

theorem mergeOver_none_allArranged (entries : List (String × Value)) (h : AreNormal entries)
    (order : Order) :
    ∀ e ∈ entries, ∀ place, mergeOver none (arranged order place e.2) = e.2 := by
  cases entries with
  | nil => exact nofun
  | cons e rest =>
    obtain ⟨key, v⟩ := e
    obtain ⟨-, hv, hrest⟩ := h
    exact List.forall_mem_cons.2 ⟨fun place => mergeOver_none_arranged v hv order place,
      mergeOver_none_allArranged rest hrest order⟩

end

/-- Keys that are names are merged in like the entries of a table. -/
theorem mergeKeys_of_settled (h : ∀ e ∈ entries, Path.ofKey e.1 = ⟨e.1, []⟩) (root : Value) :
    mergeKeys entries root = .ok (mergeEntries entries root) := by
  induction entries generalizing root with
  | nil => rw [mergeEntries]; rfl
  | cons e rest ih =>
    obtain ⟨hhead, hrest⟩ := List.forall_mem_cons.1 h
    have hfirst : mergePath (Path.ofKey e.1) e.2 root = .ok (mergeEntry e.1 e.2 root) := by
      rw [hhead]
      rfl
    rw [mergeKeys, List.foldlM_cons, hfirst, mergeEntries]
    exact ih hrest _

/-- What is merged in at the end of some steps leaves a normal table, or a list. -/
theorem isNormal_mergeSteps {steps : List Step} {root' : Value} (hsteps : steps ≠ [])
    (hlower : ∀ name, .name name ∈ steps → Text.lowercase name = name) (h : IsNormal root)
    (hmerge : mergeSteps v steps root = .ok root') : IsNormal root' := by
  induction steps generalizing root root' with
  | nil => exact absurd rfl hsteps
  | cons step steps ih =>
    cases step with
    | name key =>
      cases steps with
      | nil =>
        obtain rfl := Except.ok.inj hmerge
        rw [← show mergeEntries [(key, v)] root = mergeEntry key v root by simp only [mergeEntries]]
        exact isNormal_mergeEntries _ h
      | cons next steps =>
        obtain ⟨inner, hinner, hmerge⟩ :=
          exists_of_bind_eq_ok ((mergeSteps_name_cons ..).symm.trans hmerge)
        obtain rfl := Except.ok.inj hmerge
        refine isNormal_insertEntry h (hlower key List.mem_cons_self) ?_
        refine ih (List.cons_ne_nil _ _)
          (fun name hname => hlower name (List.mem_cons_of_mem _ hname)) ?_ hinner
        cases hpart : part key root with
        | none => trivial
        | some u => exact isNormal_of_part h hpart
    -- what is in a list does not matter
    | position index =>
      obtain ⟨place, -, hmerge⟩ :=
        exists_of_bind_eq_ok ((mergeSteps_position_cons ..).symm.trans hmerge)
      obtain ⟨items, -, hmerge⟩ := exists_of_bind_eq_ok hmerge
      obtain ⟨item, -, hmerge⟩ := exists_of_bind_eq_ok hmerge
      obtain rfl := Except.ok.inj hmerge
      trivial

end Normal

/-- What a layer gives for a name, in its order; a path gives a table in a table. -/
def givenBy (name : String) (layer : Layer) : List Value :=
  layer.filterMap fun e =>
    if (Path.ofKey e.1).name = name then some (nested (Path.ofKey e.1).steps e.2) else none

/-- A table that was merged from layers whose keys stay what they are. -/
structure IsMerged (root : Value) : Prop where
  normal : IsNormal root
  settled : ∀ e ∈ entriesOf root, Path.ofKey e.1 = ⟨e.1, []⟩

section Layers

variable {layer : Layer} {root root' : Value} {key : String}

/-- What a key does that stays what it is. -/
theorem IsMerged.of_mergePath {v : Value} (h : IsMerged root) (hkey : IsSettled key)
    (hmerge : mergePath (Path.ofKey key) v root = .ok root') :
    IsMerged root' ∧ ∀ name, (part name root').map emptied =
      mergeAllOver ((part name root).map emptied)
        ((givenBy name [(key, v)]).map emptied) := by
  have hlower := Path.lowercase_name key
  obtain ⟨inner, rfl⟩ := exists_of_mergePath hmerge hlower
  refine ⟨⟨?_, fun e he => ?_⟩, fun name => ?_⟩
  · refine isNormal_mergeSteps (List.cons_ne_nil _ _) (fun name hname => ?_) h.normal hmerge
    rcases List.mem_cons.1 hname with heq | hname
    · rw [Step.name.inj heq, hlower]
    · exact Path.lowercase_of_mem_steps hname
  · rcases SortedMap.eq_or_mem_of_mem_insertEntry he with rfl | he
    · exact hkey
    · exact h.settled e he
  · have hsame := emptied_mergeSteps hlower (fun _ => Path.lowercase_of_mem_steps) hmerge
    rw [← keepsTables_emptied.part_map, hsame, keepsTables_emptied.part_map, part_mergeEntry,
      hlower, givenBy, List.filterMap_cons]
    split
    · next heq =>
      rw [if_pos heq.symm]
      exact congrArg some (keepsTables_emptied.map_mergeOver _ _)
    · next hne => rw [if_neg (Ne.symm hne)]; rfl

/-- What keys do that stay what they are: they are merged in name by name. -/
theorem IsMerged.of_mergeKeys (h : IsMerged root) (hlayer : ∀ e ∈ layer, IsSettled e.1)
    (hmerge : mergeKeys layer root = .ok root') :
    IsMerged root' ∧ ∀ name, (part name root').map emptied =
      mergeAllOver ((part name root).map emptied) ((givenBy name layer).map emptied) := by
  induction layer generalizing root with
  | nil =>
    obtain rfl := Except.ok.inj hmerge
    exact ⟨h, fun _ => rfl⟩
  | cons e rest ih =>
    obtain ⟨hhead, hrest⟩ := List.forall_mem_cons.1 hlayer
    obtain ⟨root₁, hpath, hmerge⟩ := exists_of_bind_eq_ok hmerge
    obtain ⟨hmerged, hpart⟩ := h.of_mergePath hhead hpath
    obtain ⟨hmerged', hpart'⟩ := ih hmerged hrest hmerge
    refine ⟨hmerged', fun name => ?_⟩
    have happend : givenBy name (e :: rest) = givenBy name [e] ++ givenBy name rest :=
      @List.filterMap_append _ _ [e] rest _
    rw [hpart' name, hpart name, happend, List.map_append, mergeAllOver_append]

/-- Keys whose positions can be counted are merged in without a fault. -/
theorem exists_mergeKeys (h : ∀ e ∈ layer, ∀ step ∈ (Path.ofKey e.1).steps, step.IsCounted)
    (root : Value) : ∃ root', mergeKeys layer root = .ok root' := by
  induction layer generalizing root with
  | nil => exact ⟨root, rfl⟩
  | cons e rest ih =>
    obtain ⟨hhead, hrest⟩ := List.forall_mem_cons.1 h
    obtain ⟨root₁, hpath⟩ := exists_mergeSteps
      (List.forall_mem_cons.2 ⟨trivial, hhead⟩ :
        ∀ step ∈ .name (Path.ofKey e.1).name :: (Path.ofKey e.1).steps, step.IsCounted) e.2 root
    obtain ⟨root₂, hmerge⟩ := ih hrest root₁
    refine ⟨root₂, ?_⟩
    rw [mergeKeys, List.foldlM_cons, mergePath, hpath]
    exact hmerge

/-- Following the keys of a merged table once more changes nothing, in whatever order they come
up. -/
theorem IsMerged.settle_eq (h : IsMerged root) (order : Order) :
    settle order root = .ok (.table (entriesOf root)) := by
  have hsame := mergeOver_none_arranged _ (isNormal_entriesOf h.normal) order []
  have hkeys : ∀ e ∈ Layer.arranged (entriesOf root) order, Path.ofKey e.1 = ⟨e.1, []⟩ :=
    Layer.forall_mem_arranged_iff (p := fun key => Path.ofKey key = ⟨key, []⟩).2 h.settled
  rw [settle, mergeLayer, mergeKeys_of_settled hkeys]
  exact congrArg _ hsame

end Layers

end BatchRun.Settings
