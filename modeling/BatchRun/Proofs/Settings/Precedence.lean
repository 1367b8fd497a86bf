import BatchRun.Proofs.Settings.Mentions
import BatchRun.Settings.Load

/-!
# Which layer decides

Each of the nine settings is at a place, a name at the top or one in the routing of signals. What
layers give for other places has no influence on it. The highest layer that gives anything for a
place decides, whatever lower layers give, and where no layer gives anything the setting is as
usual. Settings are loaded exactly if each of the nine values fits and all of them together are
accepted, unless a position in a key ends in a fault.

A table is merged into what lower layers give, also where a setting should be. So an empty table
decides nothing, and a table over another one comes together with it: a mode that is written as the
only key of a table does not shadow one that is written so in a lower layer.

The keys of a layer come up in any order. All this holds of the layers as they come up, whatever the
order is, where the last mention of a place in a layer is one that may come last. It holds of the
layers as they are given as well, where none of them mentions a setting twice.

## Main definitions

* `comeUp`: layers as they come up on a host
* `Decides`: values that decide over what is lower
* `Fitted`: settings that come from the values of the nine places
* `Layered`: what is to be known of settings from layers

## Main results

* `ofValue?_eq_some_iff`: which settings a table gives
* `effective_eq_mergeOver`: the highest layer that mentions a place
* `Layered.of_comeUp`: where the order is of no account
* `loadDirectory_layered`: settings from a directory
-/

namespace BatchRun.Settings

open BatchRun.Toml (Value)

open SortedMap (lookup)

/-- What a setting is taken from: the value that was found, if it fits, or what is usual. -/
def Taken {α : Type} (fit : Value → Option α) (usual : α) (found : Option Value) (x : α) : Prop :=
  found.elim (some usual) fit = some x

/-- Settings that come from the values of the nine places. -/
structure Fitted (usualLimit : Nat) (find : List String → Option Value) (s : Settings Float) :
    Prop where
  limit : Taken fitWhole usualLimit (find ["concurrency_limit"]) s.limit
  concurrentTasks :
    Taken (fitOptional fitWhole) none (find ["concurrent_tasks"]) s.concurrentTasks
  maxBlockWeight :
    Taken (fitOptional fitNumber) none (find ["max_block_weight"]) s.maxBlockWeight
  weightCap : Taken (fitOptional fitNumber) none (find ["weight_cap"]) s.weightCap
  mode : Taken (fitVariant ExecutionMode.named) .auto (find ["execution_mode"]) s.mode
  accumulation :
    Taken (fitVariant Accumulation.named) .controlNode (find ["accumulation"]) s.accumulation
  exchange :
    Taken fitText Signaling.usual.exchange (find ["signaling", "exchange"]) s.signaling.exchange
  routingWord : Taken fitText Signaling.usual.routingWord
    (find ["signaling", "routing_key_prefix"]) s.signaling.routingWord
  timeout :
    Taken (fitOptional fitWhole) none (find ["signaling", "signal_timeout_ms"]) s.signaling.timeout

/-- The value at a place of a table. -/
def partAt : List String → Value → Option Value
  | [], v => some v
  | name :: place, v => (part name v).bind (partAt place)

theorem partAt_one (name : String) (v : Value) : partAt [name] v = part name v := by
  simp [partAt]

theorem partAt_two (outer name : String) (v : Value) :
    partAt [outer, name] v = (part outer v).bind (part name) := by
  simp [partAt]

section Fitting

variable {ρ α : Type} {name : String} {fit : Value → Option α} {set : α → ρ → ρ} {r s : ρ}
  {usual : α} {fields : List (Fit ρ)} {entries : List (String × Value)}

/-- A record is fitted field by field. -/
theorem fitRecord_cons_eq_some_iff (h : set usual r = r) :
    fitRecord (.of name fit set :: fields) r (.table entries) = some s ↔
      ∃ x, Taken fit usual (lookup name entries) x ∧
        fitRecord fields (set x r) (.table entries) = some s := by
  simp only [fitRecord, List.foldlM_cons, Fit.of, Taken]
  cases lookup name entries with
  | none => simp [h]
  | some v => cases hfit : fit v <;> simp [hfit]

theorem fitRecord_nil_eq_some_iff : fitRecord [] r (.table entries) = some s ↔ r = s := by
  simp [fitRecord]

theorem fitSignaling_eq_some_iff {s : Signaling} : fitSignaling (.table entries) = some s ↔
    Taken fitText Signaling.usual.exchange (lookup "exchange" entries) s.exchange ∧
      Taken fitText Signaling.usual.routingWord (lookup "routing_key_prefix" entries)
        s.routingWord ∧
      Taken (fitOptional fitWhole) none (lookup "signal_timeout_ms" entries) s.timeout := by
  constructor
  · intro h
    obtain ⟨exchange, hexchange, h⟩ := (fitRecord_cons_eq_some_iff rfl).1 h
    obtain ⟨word, hword, h⟩ := (fitRecord_cons_eq_some_iff rfl).1 h
    obtain ⟨timeout, htimeout, h⟩ := (fitRecord_cons_eq_some_iff rfl).1 h
    obtain rfl := fitRecord_nil_eq_some_iff.1 h
    exact ⟨hexchange, hword, htimeout⟩
  · rintro ⟨hexchange, hword, htimeout⟩
    refine (fitRecord_cons_eq_some_iff rfl).2 ⟨_, hexchange, ?_⟩
    refine (fitRecord_cons_eq_some_iff rfl).2 ⟨_, hword, ?_⟩
    refine (fitRecord_cons_eq_some_iff rfl).2 ⟨_, htimeout, ?_⟩
    exact fitRecord_nil_eq_some_iff.2 rfl

/-- The routing of signals is taken from three places. -/
theorem taken_signaling_iff {found : Option Value} (h : ∀ v, found = some v → IsTable v)
    {s : Signaling} : Taken fitSignaling .usual found s ↔
      Taken fitText Signaling.usual.exchange (found.bind (part "exchange")) s.exchange ∧
        Taken fitText Signaling.usual.routingWord (found.bind (part "routing_key_prefix"))
          s.routingWord ∧
        Taken (fitOptional fitWhole) none (found.bind (part "signal_timeout_ms")) s.timeout := by
  cases found with
  | none =>
    obtain ⟨exchange, word, timeout⟩ := s
    simp [Taken, Signaling.usual]
  | some v =>
    obtain ⟨entries, rfl⟩ := h v rfl
    exact fitSignaling_eq_some_iff

/-- The settings that a table gives are taken from nine places. -/
theorem ofValue?_eq_some_iff {usualLimit : Nat} {s : Settings Float}
    (h : ∀ v, lookup "signaling" entries = some v → IsTable v) :
    ofValue? usualLimit (.table entries) = some s ↔
      Fitted usualLimit (fun place => partAt place (.table entries)) s := by
  have htop (name : String) : partAt [name] (.table entries) = lookup name entries :=
    partAt_one ..
  have hinner (name : String) : partAt ["signaling", name] (.table entries) =
      (lookup "signaling" entries).bind (part name) :=
    partAt_two ..
  -- one field after the other, in the order of the record
  constructor
  · intro hs
    obtain ⟨limit, hlimit, hs⟩ := (fitRecord_cons_eq_some_iff rfl).1 hs
    obtain ⟨tasks, htasks, hs⟩ := (fitRecord_cons_eq_some_iff rfl).1 hs
    obtain ⟨weight, hweight, hs⟩ := (fitRecord_cons_eq_some_iff rfl).1 hs
    obtain ⟨cap, hcap, hs⟩ := (fitRecord_cons_eq_some_iff rfl).1 hs
    obtain ⟨mode, hmode, hs⟩ := (fitRecord_cons_eq_some_iff rfl).1 hs
    obtain ⟨accumulation, haccumulation, hs⟩ := (fitRecord_cons_eq_some_iff rfl).1 hs
    obtain ⟨signaling, hsignaling, hs⟩ := (fitRecord_cons_eq_some_iff rfl).1 hs
    obtain rfl := fitRecord_nil_eq_some_iff.1 hs
    obtain ⟨hexchange, hword, htimeout⟩ := (taken_signaling_iff h).1 hsignaling
    constructor <;> simp only [htop, hinner] <;> assumption
  · rintro ⟨hlimit, htasks, hweight, hcap, hmode, haccumulation, hexchange, hword, htimeout⟩
    simp only [htop, hinner] at *
    refine (fitRecord_cons_eq_some_iff rfl).2 ⟨_, hlimit, ?_⟩
    refine (fitRecord_cons_eq_some_iff rfl).2 ⟨_, htasks, ?_⟩
    refine (fitRecord_cons_eq_some_iff rfl).2 ⟨_, hweight, ?_⟩
    refine (fitRecord_cons_eq_some_iff rfl).2 ⟨_, hcap, ?_⟩
    refine (fitRecord_cons_eq_some_iff rfl).2 ⟨_, hmode, ?_⟩
    refine (fitRecord_cons_eq_some_iff rfl).2 ⟨_, haccumulation, ?_⟩
    refine (fitRecord_cons_eq_some_iff rfl).2
      ⟨_, (taken_signaling_iff h).2 ⟨hexchange, hword, htimeout⟩, ?_⟩
    exact fitRecord_nil_eq_some_iff.2 rfl

end Fitting

/-- The places of the nine settings. -/
def places : List (List String) :=
  [["concurrency_limit"], ["concurrent_tasks"], ["max_block_weight"], ["weight_cap"],
    ["execution_mode"], ["accumulation"], ["signaling", "exchange"],
    ["signaling", "routing_key_prefix"], ["signaling", "signal_timeout_ms"]]

section Congr

variable {α : Type} {fit : Value → Option α} {usual x : α} {found found' : Option Value}

/-- Only what a setting can be taken from matters to a fit that takes nothing else. -/
theorem Taken.congr (hfit : ∀ v, fit (gist v) = fit v) (h : found.map gist = found'.map gist)
    (hx : Taken fit usual found x) : Taken fit usual found' x := by
  have hsame (found : Option Value) :
      (found.map gist).elim (some usual) fit = found.elim (some usual) fit := by
    cases found with
    | none => rfl
    | some v => exact hfit v
  rw [Taken] at hx ⊢
  rw [← hsame, ← h, hsame, hx]

theorem fitWhole_gist (v : Value) : fitWhole (gist v) = fitWhole v := by
  cases v <;> rfl

theorem fitNumber_gist (v : Value) : fitNumber (gist v) = fitNumber v := by
  cases v <;> rfl

theorem fitText_gist (v : Value) : fitText (gist v) = fitText v := by
  cases v <;> rfl

theorem fitOptional_gist (h : ∀ v, fit (gist v) = fit v) (v : Value) :
    fitOptional fit (gist v) = fitOptional fit v := by
  cases v with
  | absent | bool | int | real | text => rfl
  | list items => exact congrArg (Option.map some) (h (.list items))
  | table entries => exact congrArg (Option.map some) (h (.table entries))

theorem fitVariant_gist (known : List (String × α)) (v : Value) :
    fitVariant known (gist v) = fitVariant known v := by
  cases v with
  | table entries =>
    match entries with
    | [] | [_] | _ :: _ :: _ => rfl
  | absent | bool | int | real | text | list => rfl

theorem gist_emptied (v : Value) : gist (emptied v) = gist v := by
  cases v with
  | table entries =>
    rw [keepsTables_emptied.table, gist, gist, List.map_map]
    rfl
  | absent | bool | int | real | text | list => rfl

/-- What is in lists is nothing that a setting can be taken from. -/
theorem map_gist_of_emptied (h : found.map emptied = found'.map emptied) :
    found.map gist = found'.map gist := by
  have hsame (found : Option Value) : found.map gist = (found.map emptied).map gist := by
    cases found with
    | none => rfl
    | some v => exact congrArg some (gist_emptied v).symm
  rw [hsame, h, ← hsame]

/-- Settings depend on nothing but what they can be taken from at the nine places. -/
theorem Fitted.congr {usualLimit : Nat} {find find' : List String → Option Value}
    {s : Settings Float}
    (h : ∀ place ∈ places, (find place).map gist = (find' place).map gist)
    (hs : Fitted usualLimit find s) : Fitted usualLimit find' s where
  limit := hs.limit.congr fitWhole_gist (h ["concurrency_limit"] (by decide))
  concurrentTasks := hs.concurrentTasks.congr (fitOptional_gist fitWhole_gist)
    (h ["concurrent_tasks"] (by decide))
  maxBlockWeight := hs.maxBlockWeight.congr (fitOptional_gist fitNumber_gist)
    (h ["max_block_weight"] (by decide))
  weightCap := hs.weightCap.congr (fitOptional_gist fitNumber_gist)
    (h ["weight_cap"] (by decide))
  mode := hs.mode.congr (fitVariant_gist _) (h ["execution_mode"] (by decide))
  accumulation := hs.accumulation.congr (fitVariant_gist _) (h ["accumulation"] (by decide))
  exchange := hs.exchange.congr fitText_gist (h ["signaling", "exchange"] (by decide))
  routingWord := hs.routingWord.congr fitText_gist
    (h ["signaling", "routing_key_prefix"] (by decide))
  timeout := hs.timeout.congr (fitOptional_gist fitWhole_gist)
    (h ["signaling", "signal_timeout_ms"] (by decide))

end Congr

section Layers

variable {layers : List Layer} {root root' v : Value}

/-- Layers as they come up on a host, the lowest first. -/
def comeUp (host : Host) (layers : List Layer) : List Layer :=
  layers.zipIdx.map fun e => e.1.arranged (host.orders e.2)

theorem forall₂_comeUp (host : Host) (layers : List Layer) :
    List.Forall₂ Layer.ComesUpAs layers (comeUp host layers) := by
  have hfrom (n : Nat) : List.Forall₂ Layer.ComesUpAs layers
      ((layers.zipIdx n).map fun e => e.1.arranged (host.orders e.2)) := by
    induction layers generalizing n with
    | nil => exact .nil
    | cons layer rest ih => exact .cons ⟨host.orders n, rfl⟩ (ih (n + 1))
  exact hfrom 0

theorem comeUp_append (host : Host) (layers : List Layer) (layer : Layer) :
    comeUp host (layers ++ [layer]) =
      comeUp host layers ++ [layer.arranged (host.orders layers.length)] := by
  rw [comeUp, List.zipIdx_append, List.map_append, comeUp, Nat.zero_add]
  rfl

theorem exists_of_mem_comeUp {host : Host} {come : Layer} (h : come ∈ comeUp host layers) :
    ∃ layer ∈ layers, layer.ComesUpAs come := by
  obtain ⟨e, he, rfl⟩ := List.mem_map.1 h
  exact ⟨e.1, List.fst_mem_of_mem_zipIdx he, host.orders e.2, rfl⟩

theorem isTable_of_emptied {u : Value} (h : emptied u = emptied v) (hu : IsTable u) :
    IsTable v := by
  obtain ⟨entries, rfl⟩ := hu
  cases v with
  | table entries' => exact ⟨entries', rfl⟩
  | absent | bool | int | real | text | list => cases h

/-- What layers are merged to, the lowest first, with their keys in the order in which they are
given. -/
def mergeLayers (layers : List Layer) (root : Value) : Except Fault Value :=
  layers.foldlM (fun root layer => mergeKeys layer root) root

theorem foldlM_mergeRead (host : Host) (layers : List Layer) (root : Value) :
    ((layers.map .ok).zipIdx.foldlM (fun root e => mergeRead (host.orders e.2) root e.1) root) =
      (mergeLayers (comeUp host layers) root).mapError .faulted := by
  have hfrom (n : Nat) :
      (((layers.map .ok).zipIdx n).foldlM (fun root e => mergeRead (host.orders e.2) root e.1)
        root) = (mergeLayers ((layers.zipIdx n).map fun e => e.1.arranged (host.orders e.2))
          root).mapError .faulted := by
    induction layers generalizing n root with
    | nil => rfl
    | cons layer rest ih =>
      rw [List.map_cons, List.zipIdx_cons, List.foldlM_cons, List.zipIdx_cons, List.map_cons,
        mergeLayers, List.foldlM_cons]
      change ((mergeKeys (layer.arranged (host.orders n)) root).mapError Failure.faulted).bind _ =
        ((mergeKeys (layer.arranged (host.orders n)) root).bind _).mapError _
      cases mergeKeys (layer.arranged (host.orders n)) root with
      | error fault => rfl
      | ok root₁ => exact ih root₁ (n + 1)
  exact hfrom 0

/-- What layers do whose keys stay what they are: they are merged in name by name. -/
theorem IsMerged.of_mergeLayers (h : IsMerged root)
    (hlayers : ∀ layer ∈ layers, ∀ e ∈ layer, IsSettled e.1)
    (hmerge : mergeLayers layers root = .ok root') :
    IsMerged root' ∧ ∀ name, (part name root').map emptied =
      mergeAllOver ((part name root).map emptied)
        ((layers.flatMap (givenBy name)).map emptied) := by
  induction layers generalizing root with
  | nil =>
    obtain rfl := Except.ok.inj hmerge
    exact ⟨h, fun _ => rfl⟩
  | cons layer rest ih =>
    obtain ⟨hhead, hrest⟩ := List.forall_mem_cons.1 hlayers
    obtain ⟨root₁, hlayer, hmerge⟩ := exists_of_bind_eq_ok hmerge
    obtain ⟨hmerged, hpart⟩ := h.of_mergeKeys hhead hlayer
    obtain ⟨hmerged', hpart'⟩ := ih hmerged hrest hmerge
    refine ⟨hmerged', fun name => ?_⟩
    rw [hpart' name, hpart name, List.flatMap_cons, List.map_append, mergeAllOver_append]

/-- Layers whose positions can be counted are merged without a fault. -/
theorem exists_mergeLayers
    (h : ∀ layer ∈ layers, ∀ e ∈ layer, ∀ step ∈ (Path.ofKey e.1).steps, step.IsCounted)
    (root : Value) : ∃ root', mergeLayers layers root = .ok root' := by
  induction layers generalizing root with
  | nil => exact ⟨root, rfl⟩
  | cons layer rest ih =>
    obtain ⟨hhead, hrest⟩ := List.forall_mem_cons.1 h
    obtain ⟨root₁, hlayer⟩ := exists_mergeKeys hhead root
    obtain ⟨root₂, hmerge⟩ := ih hrest root₁
    refine ⟨root₂, ?_⟩
    rw [mergeLayers, List.foldlM_cons, hlayer]
    exact hmerge

theorem partAt_emptied (place : List String) (v : Value) :
    partAt place (emptied v) = (partAt place v).map emptied := by
  induction place generalizing v with
  | nil => rfl
  | cons name place ih =>
    rw [partAt, partAt, keepsTables_emptied.part_map, Option.map_bind, Option.bind_map]
    exact Option.bind_congr fun u _ => ih u

/-- The value at a place of what layers give, name by name. -/
def placed (layers : List Layer) : List String → Option Value
  | [] => none
  | name :: place => (mergeAllOver none (layers.flatMap (givenBy name))).bind (partAt place)

/-- The table that layers give has at each place the value that they give there name by name, but
for what is in lists. -/
theorem partAt_eq_placed
    (hpart : ∀ name, (part name root).map emptied =
      (mergeAllOver none (layers.flatMap (givenBy name))).map emptied)
    {place : List String} (hplace : place ≠ []) :
    (partAt place root).map emptied = (placed layers place).map emptied := by
  have hbind (found : Option Value) (place : List String) :
      (found.bind (partAt place)).map emptied = (found.map emptied).bind (partAt place) := by
    cases found with
    | none => rfl
    | some v => exact (partAt_emptied place v).symm
  cases place with
  | nil => exact absurd rfl hplace
  | cons name place => rw [partAt, placed, hbind, hbind, hpart]

theorem placed_one (layers : List Layer) (name : String) :
    placed layers [name] = effective layers [name] := by
  rw [placed, effective, funext (mentions_one name)]
  exact Option.bind_fun_some _

/-- Where layers give nothing but tables for the routing of signals, the value of a place is what
they give for that place alone. -/
theorem placed_eq_effective
    (hsignaling : ∀ v ∈ layers.flatMap (givenBy "signaling"), IsTable v) :
    ∀ place ∈ places, placed layers place = effective layers place := by
  have htwo (name : String) :
      placed layers ["signaling", name] = effective layers ["signaling", name] := by
    rw [placed, funext (partAt_one name), bind_part_mergeAllOver hsignaling, effective,
      List.flatMap_assoc]
    rfl
  simp only [places, List.forall_mem_cons]
  have hone (name : String) := placed_one layers name
  have hnil : ∀ place ∈ ([] : List (List String)), placed layers place = effective layers place :=
    List.forall_mem_nil _
  exact ⟨hone _, hone _, hone _, hone _, hone _, hone _, htwo _, htwo _, htwo _, hnil⟩

theorem ne_nil_of_mem_places {place : List String} (h : place ∈ places) : place ≠ [] := by
  rintro rfl
  revert h
  decide

end Layers

/-- A layer whose keys stay what they are and that gives nothing but tables for the routing of
signals. -/
structure IsPlain (layer : Layer) : Prop where
  keys : ∀ e ∈ layer, IsSettled e.1
  signaling : ∀ v ∈ givenBy "signaling" layer, IsTable v

theorem IsPlain.of_comesUpAs {layer come : Layer} (h : IsPlain layer)
    (hcome : layer.ComesUpAs come) : IsPlain come where
  keys := by
    obtain ⟨order, rfl⟩ := hcome
    exact Layer.forall_mem_arranged_iff.2 h.keys
  signaling := hcome.isTable h.signaling

/-- A layer that mentions none of the settings twice. -/
def MentionsOnce (layer : Layer) : Prop :=
  ∀ place ∈ places, (mentions place layer).length ≤ 1

instance (layer : Layer) : Decidable (MentionsOnce layer) :=
  inferInstanceAs (Decidable (∀ place ∈ places, (mentions place layer).length ≤ 1))

/-- Whether a value decides over what is lower. Any value does but a table; a table with entries
does over anything but a table. -/
def Decides (low : Option Value) (v : Value) : Prop :=
  IsTable v → v ≠ .table [] ∧ ∀ u, low = some u → ¬IsTable u

/-- What is to be known of settings from layers, the lowest first. -/
structure Layered (usualLimit : Nat) (layers : List Layer)
    (outcome : Except Failure (Settings Float)) : Prop where
  /-- There is a fault only if some key has a position in front of a list or too far behind it. -/
  faulted : ∀ fault, outcome = .error (.faulted fault) →
    ∃ layer ∈ layers, ∃ e ∈ layer, ∃ step ∈ (Path.ofKey e.1).steps, ¬step.IsCounted
  /-- If there is none, there are settings exactly if the values of their places fit and are
  accepted together. -/
  loaded : (∀ fault, outcome ≠ .error (.faulted fault)) → ∀ s, outcome = .ok s ↔
    Fitted usualLimit (effective layers) s ∧ s.validate = .ok ()
  /-- A place is as usual exactly if no layer mentions it. -/
  usual : ∀ place, effective layers place = none ↔ ∀ layer ∈ layers, mentions place layer = []
  /-- The highest layer that mentions a place decides, with the last value that it gives there, as
  if that were alone. -/
  decided : ∀ place below layer above before v, layers = below ++ layer :: above →
    (∀ higher ∈ above, mentions place higher = []) → mentions place layer = before ++ [v] →
    Decides (mergeAllOver (effective below place) before) v →
    effective layers place = some (mergeOver none v)
  /-- A layer that does not mention a place has no influence on it. -/
  untouched : ∀ place below layer above, layers = below ++ layer :: above →
    mentions place layer = [] → effective layers place = effective (below ++ above) place

/-- Settings that were fitted, if they are accepted. -/
def accepted (found : Option (Settings Float)) : Except Failure (Settings Float) :=
  match found with
  | none => throw (.refused (.settingsUnreadable .misfit))
  | some settings => do
    settings.validate.mapError .refused
    pure settings

section Accepted

variable {found : Option (Settings Float)} {s settings : Settings Float}

theorem accepted_some (settings : Settings Float) : accepted (some settings) =
    match settings.validate with
    | .ok _ => .ok settings
    | .error error => .error (.refused error) := by
  change (settings.validate.mapError Failure.refused).bind (fun _ => .ok settings) = _
  cases settings.validate <;> rfl

theorem accepted_eq_ok_iff : accepted found = .ok s ↔ found = some s ∧ s.validate = .ok () := by
  cases found with
  | none => exact ⟨nofun, nofun⟩
  | some settings =>
    have hok : accepted (some settings) = .ok s ↔ settings = s ∧ settings.validate = .ok () := by
      rw [accepted_some]
      cases settings.validate <;> simp
    rw [hok, Option.some_inj]
    exact and_congr_right fun h => by rw [h]

theorem accepted_ne_faulted (fault : Fault) : accepted found ≠ .error (.faulted fault) := by
  cases found with
  | none => nofun
  | some settings =>
    rw [accepted_some]
    cases settings.validate <;> nofun

end Accepted

section Loading

variable {host : Host} {usualLimit : Nat} {layers : List Layer} {place : List String}

/-- A value that decides is there as if it were alone. -/
theorem mergeOver_eq_of_decides {low : Option Value} {v : Value} (h : Decides low v) :
    mergeOver low v = mergeOver none v := by
  cases v with
  | table entries =>
    obtain ⟨hentries, hlow⟩ := h ⟨entries, rfl⟩
    cases entries with
    | nil => exact absurd rfl hentries
    | cons e rest =>
      -- an entry is merged into the entries that are there, and there are none
      have hsame : entriesOf (low.getD (.table [])) = entriesOf (.table []) := by
        cases low with
        | none => rfl
        | some u =>
          cases u with
          | table entries => exact absurd ⟨entries, rfl⟩ (hlow _ rfl)
          | absent | bool | int | real | text | list => rfl
      simp only [mergeOver, mergeEntries, mergeEntry_congr hsame, Option.getD_none]
  | absent | bool | int | real | text | list => rfl

/-- The last value of the highest layer that gives any decides. -/
theorem effective_eq_mergeOver {below above : List Layer} {layer : Layer} {before : List Value}
    {v : Value} (habove : ∀ higher ∈ above, mentions place higher = [])
    (hlayer : mentions place layer = before ++ [v])
    (hv : Decides (mergeAllOver (effective below place) before) v) :
    effective (below ++ layer :: above) place = some (mergeOver none v) := by
  rw [effective, List.flatMap_append, List.flatMap_cons, List.flatMap_eq_nil_iff.2 habove, hlayer,
    List.append_nil, ← List.append_assoc, mergeAllOver_append, mergeAllOver_append]
  exact congrArg some (mergeOver_eq_of_decides hv)

/-- What settings from layers are fitted to and accepted. -/
theorem ofLayers_eq (host : Host) (usualLimit : Nat) (layers : List (Except RunError Layer)) :
    ofLayers host usualLimit layers =
      ((layers ++ [Except.ok (ofVariables host.bindings)]).zipIdx.foldlM
        (fun root (e : Except RunError Layer × Nat) => mergeRead (host.orders e.2) root e.1)
        (.table [])).bind fun merged =>
          ((settle (host.orders (layers ++ [Except.ok (ofVariables host.bindings)]).length)
            merged).mapError Failure.faulted).bind fun root =>
              accepted (ofValue? usualLimit root) :=
  rfl

/-- Settings from layers are accepted. -/
theorem validate_of_ofLayers {layers : List (Except RunError Layer)} {s : Settings Float}
    (h : ofLayers host usualLimit layers = .ok s) : s.validate = .ok () := by
  rw [ofLayers_eq] at h
  obtain ⟨merged, -, h⟩ := exists_of_bind_eq_ok h
  obtain ⟨root, -, h⟩ := exists_of_bind_eq_ok h
  exact (accepted_eq_ok_iff.1 h).2

theorem map_ok_append (layers : List Layer) (bindings : List (String × String)) :
    layers.map Except.ok ++ [.ok (ofVariables bindings)] =
      (layers ++ [ofVariables bindings]).map (.ok : Layer → Except RunError Layer) := by
  rw [List.map_append]
  rfl

/-- Layers whose keys stay what they are come to a table that has at each name what they give for
it, and settings are fitted to that table: following its keys once more changes nothing. -/
theorem ofLayers_of_mergeLayers {root : Value}
    (hkeys : ∀ layer ∈ layers ++ [ofVariables host.bindings], ∀ e ∈ layer, IsSettled e.1)
    (hmerge : mergeLayers (comeUp host (layers ++ [ofVariables host.bindings])) (.table []) =
      .ok root) :
    ofLayers host usualLimit (layers.map .ok) =
        accepted (ofValue? usualLimit (.table (entriesOf root))) ∧
      ∀ name, (part name root).map emptied = (mergeAllOver none
        ((comeUp host (layers ++ [ofVariables host.bindings])).flatMap
          (givenBy name))).map emptied := by
  have hcome : ∀ come ∈ comeUp host (layers ++ [ofVariables host.bindings]), ∀ e ∈ come,
      IsSettled e.1 := by
    intro come hcome
    obtain ⟨layer, hlayer, order, rfl⟩ := exists_of_mem_comeUp hcome
    exact Layer.forall_mem_arranged_iff.2 (hkeys layer hlayer)
  have hempty : IsMerged (.table []) := ⟨⟨.nil, trivial⟩, nofun⟩
  obtain ⟨hroot, hmerged⟩ := hempty.of_mergeLayers hcome hmerge
  refine ⟨?_, fun name => ?_⟩
  · rw [ofLayers_eq, map_ok_append, foldlM_mergeRead, hmerge]
    change ((settle _ root).mapError Failure.faulted).bind _ = _
    rw [hroot.settle_eq]
    rfl
  · exact (hmerged name).trans (keepsTables_emptied.map_mergeAllOver none _).symm

/-- Settings from layers that cannot be merged are not loaded. -/
theorem ofLayers_of_fault {fault : Fault}
    (h : mergeLayers (comeUp host (layers ++ [ofVariables host.bindings])) (.table []) =
      .error fault) :
    ofLayers host usualLimit (layers.map .ok) = .error (.faulted fault) := by
  rw [ofLayers_eq, map_ok_append, foldlM_mergeRead, h]
  rfl

/-- A table that has a table for the routing of signals, or nothing, is fitted place by place. -/
theorem ofValue?_of_placed {all : List Layer} {root : Value}
    (hpart : ∀ name, (part name root).map emptied =
      (mergeAllOver none (all.flatMap (givenBy name))).map emptied)
    (hsignaling : ∀ u, mergeAllOver none (all.flatMap (givenBy "signaling")) = some u → IsTable u)
    (s : Settings Float) :
    ofValue? usualLimit (.table (entriesOf root)) = some s ↔ Fitted usualLimit (placed all) s := by
  have htable (v : Value) (hv : lookup "signaling" (entriesOf root) = some v) : IsTable v := by
    have hsame := hpart "signaling"
    rw [part, hv] at hsame
    obtain ⟨u, hu, heq⟩ := Option.map_eq_some_iff.1 hsame.symm
    exact isTable_of_emptied heq (hsignaling u hu)
  -- a table and its entries have the same parts
  have hentries : ∀ name, (part name (.table (entriesOf root))).map emptied =
      (mergeAllOver none (all.flatMap (givenBy name))).map emptied := hpart
  have hplaces : ∀ place ∈ places, (partAt place (.table (entriesOf root))).map gist =
      (placed all place).map gist := fun place hplace =>
    map_gist_of_emptied (partAt_eq_placed hentries (ne_nil_of_mem_places hplace))
  rw [ofValue?_eq_some_iff htable]
  exact ⟨.congr hplaces, .congr fun place hplace => (hplaces place hplace).symm⟩

/-- Plain layers come to a table that has at each place the value of that place, and the settings
are fitted to that table; or there is a fault while they are merged. -/
theorem ofLayers_cases (h : ∀ layer ∈ layers ++ [ofVariables host.bindings], IsPlain layer) :
    (∃ fault, mergeLayers (comeUp host (layers ++ [ofVariables host.bindings])) (.table []) =
          .error fault ∧
        ofLayers host usualLimit (layers.map .ok) = .error (.faulted fault)) ∨
      ∃ found, ofLayers host usualLimit (layers.map .ok) = accepted found ∧
        ∀ s, found = some s ↔
          Fitted usualLimit (effective (comeUp host (layers ++ [ofVariables host.bindings]))) s := by
  cases hmerge : mergeLayers (comeUp host (layers ++ [ofVariables host.bindings])) (.table []) with
  | error fault => exact .inl ⟨fault, rfl, ofLayers_of_fault hmerge⟩
  | ok root =>
    have hcome : ∀ come ∈ comeUp host (layers ++ [ofVariables host.bindings]), IsPlain come := by
      intro come hmem
      obtain ⟨layer, hlayer, hcome⟩ := exists_of_mem_comeUp hmem
      exact (h layer hlayer).of_comesUpAs hcome
    have htables : ∀ v ∈ (comeUp host (layers ++ [ofVariables host.bindings])).flatMap
        (givenBy "signaling"), IsTable v := fun v hv => by
      obtain ⟨come, hmem, hv⟩ := List.mem_flatMap.1 hv
      exact (hcome come hmem).signaling v hv
    obtain ⟨haccepted, hpart⟩ :=
      ofLayers_of_mergeLayers (fun layer hlayer => (h layer hlayer).keys) hmerge
    refine .inr ⟨_, haccepted, fun s => ?_⟩
    rw [ofValue?_of_placed hpart (isTable_mergeAllOver_none htables)]
    have hplaces := placed_eq_effective htables
    exact ⟨.congr fun place hplace => by rw [hplaces place hplace],
      .congr fun place hplace => by rw [hplaces place hplace]⟩

/-- Settings from plain layers are those of the highest layers that mention their places, as the
layers come up. -/
theorem ofLayers_layered (h : ∀ layer ∈ layers ++ [ofVariables host.bindings], IsPlain layer) :
    Layered usualLimit (comeUp host (layers ++ [ofVariables host.bindings]))
      (ofLayers host usualLimit (layers.map .ok)) where
  faulted fault hfault := by
    by_contra hcounted
    push Not at hcounted
    obtain ⟨root, hroot⟩ := exists_mergeLayers hcounted (.table [])
    rcases ofLayers_cases h with ⟨fault', hmerge, -⟩ | ⟨found, hfound, -⟩
    · rw [hmerge] at hroot
      cases hroot
    · rw [hfound] at hfault
      exact accepted_ne_faulted fault hfault
  loaded hnone s := by
    rcases ofLayers_cases h with ⟨fault, -, hfault⟩ | ⟨found, hfound, hfitted⟩
    · exact absurd hfault (hnone fault)
    · rw [hfound, accepted_eq_ok_iff, hfitted]
  usual place := effective_eq_none_iff
  decided place below layer above before v hlayers habove hlayer hv := by
    rw [hlayers]
    exact effective_eq_mergeOver habove hlayer hv
  untouched place below layer above hlayers hlayer := by
    rw [hlayers]
    exact effective_of_mentions_eq_nil hlayer

/-- Where no layer mentions a setting twice, the order in which the layers come up is of no
account. -/
theorem Layered.of_comeUp {outcome : Except Failure (Settings Float)}
    (h : Layered usualLimit (comeUp host layers) outcome)
    (honce : ∀ layer ∈ layers, MentionsOnce layer) : Layered usualLimit layers outcome where
  faulted fault hfault := by
    by_contra hcounted
    push Not at hcounted
    obtain ⟨layer, hlayer, e, he, step, hstep, hnot⟩ := h.faulted fault hfault
    obtain ⟨read, hread, order, rfl⟩ := exists_of_mem_comeUp hlayer
    exact hnot (Layer.forall_mem_arranged_iff
      (p := fun key => ∀ step ∈ (Path.ofKey key).steps, step.IsCounted).2
        (hcounted read hread) e he step hstep)
  loaded hnone s := by
    rw [h.loaded hnone]
    have hsame : ∀ place ∈ places, (effective layers place).map gist =
        (effective (comeUp host layers) place).map gist := fun place hplace =>
      map_gist_effective (forall₂_comeUp host layers)
        fun layer hlayer => honce layer hlayer place hplace
    exact and_congr_left fun _ =>
      ⟨.congr fun place hplace => (hsame place hplace).symm, .congr hsame⟩
  usual place := effective_eq_none_iff
  decided place below layer above before v hlayers habove hlayer hv := by
    rw [hlayers]
    exact effective_eq_mergeOver habove hlayer hv
  untouched place below layer above hlayers hlayer := by
    rw [hlayers]
    exact effective_of_mentions_eq_nil hlayer

/-- The ways in which settings come to be held. -/
inductive Held (host : Host) (usualLimit : Nat) (loaded : Loaded) : Prop
  | ofDirectory {directory : Option String} {environment : String}
      (h : loadDirectory host usualLimit directory environment = .ok loaded)
  | ofFile {path : String} (h : loadFile host usualLimit path = .ok loaded)
  | ofHost (h : global host usualLimit = .ok loaded)

theorem loadDirectory_eq (host : Host) (usualLimit : Nat) (directory : Option String)
    (environment : String) : loadDirectory host usualLimit directory environment =
      (ofLayers host usualLimit
        (["dispatch.toml", "dispatch." ++ environment ++ ".toml"].map fun name =>
          optionalLayer host (Path.joined (directory.getD (usualDirectory host)) name))).bind
        fun settings => .ok ⟨settings, environment, directory.getD (usualDirectory host)⟩ :=
  rfl

theorem validate_usual (hlimit : 0 < usualLimit) :
    (Settings.usual usualLimit : Settings Float).validate = .ok () := by
  have hsignaling : checkSignaling .usual = .ok () := rfl
  simp [Settings.validate, Settings.usual, hlimit.ne', checkWeight, hsignaling, bind, Except.bind]

theorem validate_of_loadDirectory {directory : Option String} {environment : String}
    {loaded : Loaded} (h : loadDirectory host usualLimit directory environment = .ok loaded) :
    loaded.settings.validate = .ok () := by
  rw [loadDirectory_eq] at h
  obtain ⟨settings, hsettings, h⟩ := exists_of_bind_eq_ok h
  obtain rfl := Except.ok.inj h
  exact validate_of_ofLayers hsettings

theorem Held.validate_eq_ok {loaded : Loaded} (h : Held host usualLimit loaded)
    (hlimit : 0 < usualLimit) : loaded.settings.validate = .ok () := by
  cases h with
  | ofDirectory h => exact validate_of_loadDirectory h
  | ofFile h =>
    rw [loadFile] at h
    split at h
    · cases h
    · obtain ⟨settings, hsettings, h⟩ := exists_of_bind_eq_ok h
      obtain rfl := Except.ok.inj h
      exact validate_of_ofLayers hsettings
  | ofHost h =>
    rw [global] at h
    cases hload : load host usualLimit with
    | ok found =>
      rw [hload] at h
      obtain rfl := Except.ok.inj h
      exact validate_of_loadDirectory hload
    | error why =>
      cases why with
      -- the usual settings are held in place of those that are refused
      | refused error =>
        rw [hload] at h
        obtain rfl := Except.ok.inj h
        exact validate_usual hlimit
      | faulted fault => rw [hload] at h; cases h

/-- Settings from a directory are those of its layers. -/
theorem map_settings_loadDirectory (directory : Option String) (environment : String)
    {base overlay : Layer}
    (hbase : optionalLayer host
      (Path.joined (directory.getD (usualDirectory host)) "dispatch.toml") = .ok base)
    (hoverlay : optionalLayer host (Path.joined (directory.getD (usualDirectory host))
      ("dispatch." ++ environment ++ ".toml")) = .ok overlay) :
    (loadDirectory host usualLimit directory environment).map (·.settings) =
      ofLayers host usualLimit ([base, overlay].map .ok) := by
  rw [loadDirectory_eq, List.map_cons, List.map_cons, List.map_nil, hbase, hoverlay]
  change Except.map _ ((ofLayers host usualLimit [.ok base, .ok overlay]).bind _) =
    ofLayers host usualLimit [.ok base, .ok overlay]
  cases ofLayers host usualLimit [.ok base, .ok overlay] <;> rfl

/-- Settings from a directory whose layers are plain are those of the highest layers that mention
their places, in whatever order the keys of the layers come up, and that order is of no account
where no layer mentions a setting twice. However settings are loaded, only accepted ones are
held. -/
theorem loadDirectory_layered (directory : Option String) (environment : String)
    {base overlay : Layer}
    (hbase : optionalLayer host
      (Path.joined (directory.getD (usualDirectory host)) "dispatch.toml") = .ok base)
    (hoverlay : optionalLayer host (Path.joined (directory.getD (usualDirectory host))
      ("dispatch." ++ environment ++ ".toml")) = .ok overlay)
    (hplain : ∀ layer ∈ [base, overlay, ofVariables host.bindings], IsPlain layer)
    (hlimit : 0 < usualLimit) :
    Layered usualLimit (comeUp host [base, overlay, ofVariables host.bindings])
        ((loadDirectory host usualLimit directory environment).map (·.settings)) ∧
      ((∀ layer ∈ [base, overlay, ofVariables host.bindings], MentionsOnce layer) →
        Layered usualLimit [base, overlay, ofVariables host.bindings]
          ((loadDirectory host usualLimit directory environment).map (·.settings))) ∧
      ∀ loaded, Held host usualLimit loaded → loaded.settings.validate = .ok () := by
  have hlayered : Layered usualLimit (comeUp host [base, overlay, ofVariables host.bindings])
      ((loadDirectory host usualLimit directory environment).map (·.settings)) := by
    have hlayers : [base, overlay] ++ [ofVariables host.bindings] =
        [base, overlay, ofVariables host.bindings] :=
      rfl
    rw [map_settings_loadDirectory directory environment hbase hoverlay, ← hlayers]
    exact ofLayers_layered hplain
  exact ⟨hlayered, hlayered.of_comeUp, fun loaded hheld => hheld.validate_eq_ok hlimit⟩

/-- A file that can be read is a layer. -/
theorem optionalLayer_of_text {path text : String} {names : List String} {layer : Layer}
    (hpath : host.resolve path = some names) (htext : host.textAt? names = some text)
    (hformat : hasFormat path = true) (hlayer : Toml.read? text = some layer) :
    optionalLayer host path = .ok layer := by
  have hread : host.read? path = some text := by
    rw [Host.read?, hpath]
    exact htext
  have hfile : host.isFile path = true := by
    rw [Host.isFile, hread]
    rfl
  have hbind : (some text).bind Toml.read? = some layer := hlayer
  rw [optionalLayer, if_pos hfile, if_pos hformat, fileLayer, hread, hformat, hbind]
  rfl

end Loading

mutual

/-- Whether two values are alike. Decimal numbers and lists are not compared. -/
def alike : Value → Value → Bool
  | .bool a, .bool b => a == b
  | .int a, .int b => a == b
  | .text a, .text b => a == b
  | .table a, .table b => allAlike a b
  | _, _ => false

/-- Whether two rows of entries are alike. -/
def allAlike : List (String × Value) → List (String × Value) → Bool
  | [], [] => true
  | (key, v) :: rest, (key', v') :: rest' => key == key' && alike v v' && allAlike rest rest'
  | _, _ => false

end

mutual

theorem eq_of_alike (v w : Value) (h : alike v w = true) : v = w := by
  cases v <;> cases w <;> simp only [alike, beq_iff_eq, Bool.false_eq_true] at h
  case table.table a b => rw [eq_of_allAlike a b h]
  all_goals rw [h]

theorem eq_of_allAlike (a b : List (String × Value)) (h : allAlike a b = true) : a = b := by
  cases a with
  | nil =>
    cases b with
    | nil => rfl
    | cons => cases h
  | cons e rest =>
    obtain ⟨key, v⟩ := e
    cases b with
    | nil => cases h
    | cons e rest' =>
      obtain ⟨key', v'⟩ := e
      simp only [allAlike, Bool.and_eq_true, beq_iff_eq] at h
      rw [h.1.1, eq_of_alike v v' h.1.2, eq_of_allAlike rest rest' h.2]

end

/-- What is found is known by comparing it. -/
theorem eq_some_of_alike {found : Option Layer} {layer : Layer}
    (h : found.any (allAlike · layer) = true) : found = some layer := by
  cases found with
  | none => cases h
  | some entries => rw [eq_of_allAlike entries layer h]

/-- A host with a file for all environments, one for tests, and variables. -/
def testHost (base overlay : String) (bindings : List (String × String))
    (orders : Nat → Order) : Host where
  files := [(["config", "dispatch.toml"], base), (["config", "dispatch.test.toml"], overlay)]
  directories := []
  bindings := bindings
  current := []
  orders := orders

/-- All keys come up as they are given. -/
def asGiven : Nat → Order := fun _ _ _ => 0

/-- All keys come up as they are given, but for one that comes behind the others. -/
def withLast (last : String) : Nat → Order := fun _ _ key => if key = last then 1 else 0

section TestHost

variable {base overlay : String} {bindings : List (String × String)} {orders : Nat → Order}
  {layer : Layer}

theorem resolve_testHost {path : String} {names : List String} (hempty : path.isEmpty = false)
    (hparts : Path.parts path = names) :
    (testHost base overlay bindings orders).resolve path =
      (testHost base overlay bindings orders).follow [] names := by
  -- the host is at its root, where absolute paths start anyway
  have hstart : (if Path.isAbsolute path then [] else (testHost base overlay bindings orders).current) =
      [] :=
    ite_self []
  rw [Host.resolve, hempty, hparts, hstart]
  rfl

theorem base_testHost (h : Toml.read? base = some layer) :
    optionalLayer (testHost base overlay bindings orders) (Path.joined "config" "dispatch.toml") =
      .ok layer := by
  have hparts : Path.parts "config/dispatch.toml" = ["config", "dispatch.toml"] := by
    simp +decide [Path.parts, String.splitOn, String.splitOnAux]
  have hjoined : Path.joined "config" "dispatch.toml" = "config/dispatch.toml" := by
    decide +kernel
  rw [hjoined]
  exact optionalLayer_of_text (resolve_testHost rfl hparts) rfl (by decide +kernel) h

theorem overlay_testHost (h : Toml.read? overlay = some layer) :
    optionalLayer (testHost base overlay bindings orders)
      (Path.joined "config" ("dispatch." ++ "test" ++ ".toml")) = .ok layer := by
  have hparts : Path.parts "config/dispatch.test.toml" = ["config", "dispatch.test.toml"] := by
    simp +decide [Path.parts, String.splitOn, String.splitOnAux]
  have hjoined : Path.joined "config" ("dispatch." ++ "test" ++ ".toml") =
      "config/dispatch.test.toml" := by
    decide +kernel
  rw [hjoined]
  exact optionalLayer_of_text (resolve_testHost rfl hparts) rfl (by decide +kernel) h

/-- A mode that there is not, and an exchange. -/
def jobsText : String := "execution_mode = \"fast\"\n[signaling]\nexchange = \"jobs\"\n"

def jobsLayer : Layer :=
  [("execution_mode", .text "fast"), ("signaling", .table [("exchange", .text "jobs")])]

/-- A mode that there is. -/
def threadsText : String := "execution_mode = \"threads\"\n"

def threadsLayer : Layer := [("execution_mode", .text "threads")]

/-- A word in front of routing keys. -/
def taskBindings : List (String × String) := [("DISPATCH__SIGNALING__ROUTING_KEY_PREFIX", "task")]

theorem read_jobsText : Toml.read? jobsText = some jobsLayer :=
  eq_some_of_alike (by decide +kernel)

theorem read_threadsText : Toml.read? threadsText = some threadsLayer :=
  eq_some_of_alike (by decide +kernel)

/-- The mode that there is shadows the one that there is not, and the exchange stays as a variable
gives the word in front of routing keys. -/
theorem layered_testHost :
    ∃ host : Host, ∃ base overlay : Layer,
      optionalLayer host (Path.joined "config" "dispatch.toml") = .ok base ∧
      optionalLayer host (Path.joined "config" ("dispatch." ++ "test" ++ ".toml")) = .ok overlay ∧
      (∀ layer ∈ [base, overlay, ofVariables host.bindings], IsPlain layer) ∧
      (∀ layer ∈ [base, overlay, ofVariables host.bindings], MentionsOnce layer) ∧ 0 < 2 ∧
      mentions ["execution_mode"] base = [.text "fast"] ∧
      (loadDirectory host 2 (some "config") "test").map (·.settings) =
        .ok ⟨2, none, none, none, .threads, .controlNode, ⟨"jobs", "task", none⟩⟩ := by
  have htask : ofVariables taskBindings = [("signaling.routing_key_prefix", .text "task")] := rfl
  have hplain : ∀ layer ∈ [jobsLayer, threadsLayer, ofVariables taskBindings], IsPlain layer := by
    simp only [htask, List.forall_mem_cons]
    exact ⟨⟨List.forall_mem_cons.2 ⟨rfl, List.forall_mem_cons.2 ⟨rfl, nofun⟩⟩,
        fun v hv => ⟨_, List.mem_singleton.1 hv⟩⟩,
      ⟨List.forall_mem_cons.2 ⟨rfl, nofun⟩, fun v hv => (List.not_mem_nil hv).elim⟩,
      ⟨List.forall_mem_cons.2 ⟨rfl, nofun⟩, fun v hv => ⟨_, List.mem_singleton.1 hv⟩⟩, nofun⟩
  have honce : ∀ layer ∈ [jobsLayer, threadsLayer, ofVariables taskBindings],
      MentionsOnce layer := by
    rw [htask]
    decide +kernel
  have hcounted : ∀ layer ∈ [jobsLayer, threadsLayer, ofVariables taskBindings], ∀ e ∈ layer,
      ∀ step ∈ (Path.ofKey e.1).steps, step.IsCounted := by
    simp only [htask, jobsLayer, threadsLayer, List.forall_mem_cons]
    refine ⟨⟨nofun, nofun, nofun⟩, ⟨nofun, nofun⟩, ⟨fun step hstep => ?_, nofun⟩, nofun⟩
    rw [List.mem_singleton.1 hstep]
    trivial
  refine ⟨testHost jobsText threadsText taskBindings asGiven, _, _, base_testHost read_jobsText,
    overlay_testHost read_threadsText, hplain, honce, by decide, rfl, ?_⟩
  obtain ⟨-, hlayered, -⟩ := loadDirectory_layered (some "config") "test"
    (base_testHost read_jobsText) (overlay_testHost read_threadsText) hplain (by decide : 0 < 2)
  refine ((hlayered honce).loaded (fun fault hfault => ?_) _).2
    ⟨⟨?_, ?_, ?_, ?_, ?_, ?_, ?_, ?_, ?_⟩, rfl⟩
  · obtain ⟨layer, hlayer, e, he, step, hstep, hnot⟩ := (hlayered honce).faulted fault hfault
    exact hnot (hcounted layer hlayer e he step hstep)
  -- each place has its value by evaluation
  all_goals rfl

/-- A table with one of the modes. -/
def modeText (name : String) : String := "[execution_mode]\n" ++ name ++ " = 1\n"

def modeLayer (name : String) : Layer := [("execution_mode", .table [(name, .int 1)])]

/-- A position in front of a list, where there is none. -/
def positionText : String := "\"x[-1]\" = 1\n"

def positionLayer : Layer := [("x[-1]", .int 1)]

/-- A key that is a path in lower case only: the sign for kelvins is no letter of a name. -/
def kelvinText : String := "\"signaling.routing_\u212aey_prefix\" = \"base\"\n"

def kelvinLayer : Layer := [("signaling.routing_\u212aey_prefix", .text "base")]

/-- A mode as a text, and another one as the only key of a table. -/
def modeBindings : List (String × String) :=
  [("DISPATCH__EXECUTION_MODE", "threads"), ("DISPATCH__EXECUTION_MODE__SEQUENTIAL", "1")]

theorem exists_ok_of_beq {β : Type} [BEq β] [LawfulBEq β]
    {outcome : Except Failure (Settings Float)} {f : Settings Float → β} {b : β}
    (h : (match outcome with
      | .ok s => f s == b
      | .error _ => false) = true) : ∃ s, outcome = .ok s ∧ f s = b := by
  cases outcome with
  | ok s => exact ⟨s, rfl, beq_iff_eq.1 h⟩
  | error why => cases h

/-- A mode that is given with a table does not shadow another one: the keys of both tables come
together, and no mode has two names. A position in front of a list is a fault even if no setting is
mentioned. A key that is a path in lower case only is followed when all layers are in, and what it
gives is shadowed or not as the keys of the merged table come up. Of two variables that mention one
setting the last to come up decides, and either may be the last. -/
theorem not_layered :
    (∃ host : Host, ∃ base overlay : Layer, ∃ v : Value,
      optionalLayer host (Path.joined "config" "dispatch.toml") = .ok base ∧
      optionalLayer host (Path.joined "config" ("dispatch." ++ "test" ++ ".toml")) = .ok overlay ∧
      ofVariables host.bindings = [] ∧ mentions ["execution_mode"] overlay = [v] ∧
      fitVariant ExecutionMode.named v = some .threads ∧
      (∀ place ∈ places, place ≠ ["execution_mode"] → effective [base, overlay] place = none) ∧
      (loadDirectory host 2 (some "config") "test").map (·.settings) =
        .error (.refused (.settingsUnreadable .misfit))) ∧
    (∃ host : Host, ∃ base : Layer,
      optionalLayer host (Path.joined "config" "dispatch.toml") = .ok base ∧
      optionalLayer host (Path.joined "config" ("dispatch." ++ "test" ++ ".toml")) = .ok [] ∧
      ofVariables host.bindings = [] ∧ (∀ place ∈ places, mentions place base = []) ∧
      (loadDirectory host 2 (some "config") "test").map (·.settings) =
        .error (.faulted .difference)) ∧
    (∃ host : Host, ∃ orders : Nat → Order, ∃ base : Layer,
      optionalLayer host (Path.joined "config" "dispatch.toml") = .ok base ∧
      optionalLayer host (Path.joined "config" ("dispatch." ++ "test" ++ ".toml")) = .ok [] ∧
      mentions ["signaling", "routing_key_prefix"] (ofVariables host.bindings) = [.text "task"] ∧
      (∃ s, (loadDirectory host 2 (some "config") "test").map (·.settings) = .ok s ∧
        s.signaling.routingWord = "base") ∧
      ∃ s, (loadDirectory { host with orders } 2 (some "config") "test").map (·.settings) = .ok s ∧
        s.signaling.routingWord = "task") ∧
    ∃ host : Host, ∃ orders : Nat → Order,
      optionalLayer host (Path.joined "config" "dispatch.toml") = .ok [] ∧
      optionalLayer host (Path.joined "config" ("dispatch." ++ "test" ++ ".toml")) = .ok [] ∧
      (host.bindings.map fun v => Text.lowercase v.1).Nodup ∧
      mentions ["execution_mode"] (ofVariables host.bindings) =
        [.text "threads", .table [("sequential", .int 1)]] ∧
      (∃ s, (loadDirectory host 2 (some "config") "test").map (·.settings) = .ok s ∧
        s.mode = .sequential) ∧
      ∃ s, (loadDirectory { host with orders } 2 (some "config") "test").map (·.settings) = .ok s ∧
        s.mode = .threads := by
  have hempty : Toml.read? "" = some [] := rfl
  refine ⟨?_, ?_, ?_, ?_⟩
  · -- a variant that is shadowed stays in the merged table, where two are too many
    have hauto : Toml.read? (modeText "auto") = some (modeLayer "auto") :=
      eq_some_of_alike (by decide +kernel)
    have hthreads : Toml.read? (modeText "threads") = some (modeLayer "threads") :=
      eq_some_of_alike (by decide +kernel)
    refine ⟨testHost (modeText "auto") (modeText "threads") [] asGiven, _, _, _,
      base_testHost hauto, overlay_testHost hthreads, rfl, rfl, rfl, ?_, ?_⟩
    · simp only [places, List.forall_mem_cons]
      exact ⟨fun _ => rfl, fun _ => rfl, fun _ => rfl, fun _ => rfl, fun h => absurd rfl h,
        fun _ => rfl, fun _ => rfl, fun _ => rfl, fun _ => rfl, nofun⟩
    · rw [map_settings_loadDirectory (some "config") "test" (base_testHost hauto)
        (overlay_testHost hthreads)]
      rfl
  · -- no setting is mentioned, but a key asks for a place in front of an empty list
    have hposition : Toml.read? positionText = some positionLayer :=
      eq_some_of_alike (by decide +kernel)
    refine ⟨testHost positionText "" [] asGiven, _, base_testHost hposition,
      overlay_testHost hempty, rfl, ?_, ?_⟩
    · simp only [places, List.forall_mem_cons]
      exact ⟨rfl, rfl, rfl, rfl, rfl, rfl, rfl, rfl, rfl, nofun⟩
    · rw [map_settings_loadDirectory (some "config") "test" (base_testHost hposition)
        (overlay_testHost hempty)]
      rfl
  · -- the path with the kelvin sign is the setting only in the merged table, so that the order of
    -- the keys there decides between the file and the variable
    have hkelvin : Toml.read? kelvinText = some kelvinLayer :=
      eq_some_of_alike (by decide +kernel)
    refine ⟨testHost kelvinText "" taskBindings asGiven, withLast "signaling", _,
      base_testHost hkelvin, overlay_testHost hempty, rfl, ?_, ?_⟩
    · rw [map_settings_loadDirectory (some "config") "test" (base_testHost hkelvin)
        (overlay_testHost hempty)]
      exact exists_ok_of_beq (by decide +kernel)
    · change ∃ s, (loadDirectory (testHost kelvinText "" taskBindings (withLast "signaling")) 2
        (some "config") "test").map (·.settings) = .ok s ∧ _
      rw [map_settings_loadDirectory (some "config") "test" (base_testHost hkelvin)
        (overlay_testHost hempty)]
      exact exists_ok_of_beq (by decide +kernel)
  · -- both variables mention the mode, one of them as a table
    refine ⟨testHost "" "" modeBindings asGiven, withLast "execution_mode",
      base_testHost hempty, overlay_testHost hempty, by decide +kernel, rfl, ?_, ?_⟩
    · rw [map_settings_loadDirectory (some "config") "test" (base_testHost hempty)
        (overlay_testHost hempty)]
      exact exists_ok_of_beq (by decide +kernel)
    · change ∃ s, (loadDirectory (testHost "" "" modeBindings (withLast "execution_mode")) 2
        (some "config") "test").map (·.settings) = .ok s ∧ _
      rw [map_settings_loadDirectory (some "config") "test" (base_testHost hempty)
        (overlay_testHost hempty)]
      exact exists_ok_of_beq (by decide +kernel)

end TestHost

end BatchRun.Settings
