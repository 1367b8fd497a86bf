import Mathlib.Data.List.Flatten
import BatchRun.Proofs.Settings.Outline
import BatchRun.Proofs.Settings.Spelling

/-!
# Settings that are texts

Two settings are texts, and each has a variable. Whatever word the variable holds, the same settings
are loaded, or they are refused for the same reason, but for that one text; and the text is not what
the variable holds, but the canonical text of what it is taken for. In which order the variables come
up is of no account, as no other one sets the text, or the routing of signals as a whole.

## Main definitions

* `TextSetting`: the settings that are texts, with their variables and their places
* `spelled`: a host with such a variable
* `Spells`: what is asked of the layers and of the other variables

## Main results

* `ofLayers_spelled`: what the word in a variable decides, and what it does not
* `loadDirectory_spelled`: the same for settings from a directory
* `not_loadDirectory_verbatim`: words that are not what is loaded
-/

namespace BatchRun.Settings

open BatchRun.Toml (Value)

/-- The settings that are texts. -/
inductive TextSetting where
  | exchange
  | routingWord

namespace TextSetting

/-- The name of a setting in the routing of signals. -/
def name : TextSetting → String
  | exchange => "exchange"
  | routingWord => "routing_key_prefix"

def place (x : TextSetting) : List String := ["signaling", x.name]

/-- The variable that sets it. -/
def variableName : TextSetting → String
  | exchange => "DISPATCH__SIGNALING__EXCHANGE"
  | routingWord => "DISPATCH__SIGNALING__ROUTING_KEY_PREFIX"

def get (s : Settings Float) : TextSetting → String
  | exchange => s.signaling.exchange
  | routingWord => s.signaling.routingWord

/-- Settings with another text. -/
def put (t : String) (s : Settings Float) : TextSetting → Settings Float
  | exchange => { s with signaling := { s.signaling with exchange := t } }
  | routingWord => { s with signaling := { s.signaling with routingWord := t } }

section Layer

variable (x : TextSetting) (t : String)

theorem get_put (s : Settings Float) : get (put t s x) x = t := by
  cases x <;> rfl

theorem variableKey?_variableName :
    variableKey? x.variableName = some ("signaling." ++ x.name) := by
  cases x <;> decide +kernel

theorem ofKey_eq : Path.ofKey ("signaling." ++ x.name) = ⟨"signaling", [.name x.name]⟩ := by
  cases x <;> exact rfl

theorem lowercase_name : Text.lowercase x.name = x.name := by
  cases x <;> decide +kernel

/-- The variable gives the text its value, and no other place one. -/
theorem mentions_entry (v : Value) :
    mentions x.place [("signaling." ++ x.name, v)] = [v] := by
  simp [mentions, givenBy, TextSetting.place, x.ofKey_eq, nested, valuesAt, given, entriesOf,
    x.lowercase_name]

theorem mentions_entry_of_ne {place : List String} (hplace : place ∈ places)
    (hne : place ≠ x.place) (v : Value) :
    mentions place [("signaling." ++ x.name, v)] = [] := by
  have houter {name : String} (hname : name ≠ "signaling") :
      mentions [name] [("signaling." ++ x.name, v)] = [] := by
    simp [mentions, givenBy, x.ofKey_eq, Ne.symm hname]
  have hinner {name : String} (hname : ["signaling", name] ≠ x.place) :
      mentions ["signaling", name] [("signaling." ++ x.name, v)] = [] := by
    have hother : x.name ≠ name := fun heq => hname (by rw [TextSetting.place, heq])
    simp [mentions, givenBy, x.ofKey_eq, nested, valuesAt, given, entriesOf, x.lowercase_name,
      hother]
  simp only [places, List.mem_cons, List.not_mem_nil, or_false] at hplace
  rcases hplace with rfl | rfl | rfl | rfl | rfl | rfl | rfl | rfl | rfl
  · exact houter (by decide)
  · exact houter (by decide)
  · exact houter (by decide)
  · exact houter (by decide)
  · exact houter (by decide)
  · exact houter (by decide)
  · exact hinner hne
  · exact hinner hne
  · exact hinner hne

theorem isSettled_key : IsSettled ("signaling." ++ x.name) := by
  simp only [IsSettled, x.ofKey_eq]
  rfl

/-- What is in a variable is no table, no list, and not absent. -/
theorem outline_variableValue : outline (variableValue t) = .bool false := by
  rcases variableValue_cases t with ⟨b, h, -⟩ | ⟨n, h, -⟩ | ⟨d, h⟩ | h <;> rw [h] <;> rfl

theorem not_isTable_variableValue : ¬IsTable (variableValue t) := by
  rintro ⟨entries, h⟩
  have hsame := outline_variableValue t
  rw [h] at hsame
  cases hsame

theorem arranged_variableValue (order : Order) (place : List String) :
    arranged order place (variableValue t) = variableValue t := by
  cases hcase : variableValue t with
  | table entries => exact absurd ⟨entries, hcase⟩ (not_isTable_variableValue t)
  | absent | bool | int | real | text | list => rfl

end Layer

/-- Another variable than the one of a text: it does not set the text, and it sets the routing of
signals name by name. -/
structure IsApart (x : TextSetting) (binding : String × String) : Prop where
  settled : ∀ e ∈ ofVariables [binding], IsSettled e.1
  tables : ∀ v ∈ givenBy "signaling" (ofVariables [binding]), IsTable v
  silent : mentions x.place (ofVariables [binding]) = []

/-- Entries that are the same, or both of the variable of a text. -/
def Respelled (x : TextSetting) (a b : String × Value) : Prop :=
  a = b ∨ ∃ s w, a = ("signaling." ++ x.name, variableValue s) ∧
    b = ("signaling." ++ x.name, variableValue w)

end TextSetting

/-- A host with a variable that sets a text, among others. -/
def spelled (host : Host) (x : TextSetting) (after : List (String × String)) (t : String) : Host :=
  { host with bindings := host.bindings ++ (x.variableName, t) :: after }

section Spelled

variable {host : Host} {x : TextSetting} {after : List (String × String)} {layers : List Layer}
  {usualLimit : Nat} {s w : String}

/-- Layers whose keys stay what they are, and a variable that sets a text, with no other variable
before or after it that sets the text as well, or the routing of signals as a whole. -/
structure Spells (host : Host) (x : TextSetting) (after : List (String × String))
    (layers : List Layer) : Prop where
  settled : ∀ layer ∈ layers, ∀ e ∈ layer, IsSettled e.1
  apart : ∀ binding ∈ host.bindings ++ after, x.IsApart binding

/-- The word in the variable is no matter of the outline. -/
theorem outline_eq_of_forall₂ {a b : Layer} (h : List.Forall₂ x.Respelled a b) :
    a.outline = b.outline := by
  rw [Layer.outline, Layer.outline]
  induction h with
  | nil => rfl
  | cons he _ ih =>
    rw [List.map_cons, List.map_cons, ih]
    obtain rfl | ⟨s, w, rfl, rfl⟩ := he
    · rfl
    · rw [TextSetting.outline_variableValue, TextSetting.outline_variableValue]

/-- The variable does not give anything for another place than that of the text. -/
theorem mentions_eq_of_forall₂ {a b : Layer} (h : List.Forall₂ x.Respelled a b)
    {place : List String} (hplace : place ∈ places) (hne : place ≠ x.place) :
    mentions place a = mentions place b := by
  rw [mentions_eq_flatMap, mentions_eq_flatMap place b]
  induction h with
  | nil => rfl
  | cons he _ ih =>
    rw [List.flatMap_cons, List.flatMap_cons, ih]
    obtain rfl | ⟨s, w, rfl, rfl⟩ := he
    · rfl
    · rw [x.mentions_entry_of_ne hplace hne, x.mentions_entry_of_ne hplace hne]

/-- The entries that variables are, before any of them takes the place of another one. -/
def entriesOfVariables (bindings : List (String × String)) : List (String × Value) :=
  bindings.filterMap fun v => (variableKey? v.1).map fun key => (key, variableValue v.2)

/-- An entry is one of a variable. -/
theorem exists_of_mem_entriesOfVariables {e : String × Value}
    {bindings : List (String × String)} (h : e ∈ entriesOfVariables bindings) :
    ∃ binding ∈ bindings, ofVariables [binding] = [e] := by
  obtain ⟨binding, hbinding, he⟩ := List.mem_filterMap.1 h
  refine ⟨binding, hbinding, ?_⟩
  rw [ofVariables, List.filterMap_cons, he]
  rfl

theorem entriesOfVariables_spelled (host : Host) (x : TextSetting)
    (after : List (String × String)) (t : String) :
    entriesOfVariables (spelled host x after t).bindings =
      entriesOfVariables host.bindings ++
        ("signaling." ++ x.name, variableValue t) :: entriesOfVariables after := by
  rw [entriesOfVariables, spelled, List.filterMap_append, List.filterMap_cons,
    x.variableKey?_variableName]
  rfl

/-- The variables as they come up over some layers. -/
def spelledLayer (host : Host) (x : TextSetting) (after : List (String × String))
    (layers : List Layer) (t : String) : Layer :=
  (ofVariables (spelled host x after t).bindings).arranged (host.orders layers.length)

/-- All layers as they come up, the variables on top. -/
def allLayers (host : Host) (x : TextSetting) (after : List (String × String))
    (layers : List Layer) (t : String) : List Layer :=
  comeUp (spelled host x after t) (layers ++ [ofVariables (spelled host x after t).bindings])

theorem allLayers_eq (t : String) :
    allLayers host x after layers t = comeUp host layers ++ [spelledLayer host x after layers t] :=
  comeUp_append (spelled host x after t) layers _

/-- Whatever word is in the variable, the variables come up in the same order. -/
theorem forall₂_spelledLayer (s w : String) :
    List.Forall₂ x.Respelled (spelledLayer host x after layers s)
      (spelledLayer host x after layers w) := by
  have hkey (a b : String × Value) (h : x.Respelled a b) : a.1 = b.1 := by
    obtain rfl | ⟨_, _, rfl, rfl⟩ := h
    · rfl
    · rfl
  have hsame (entries : List (String × Value)) : List.Forall₂ x.Respelled entries entries :=
    List.forall₂_same.2 fun e _ => .inl rfl
  have hentries : List.Forall₂ x.Respelled
      (entriesOfVariables (spelled host x after s).bindings)
      (entriesOfVariables (spelled host x after w).bindings) := by
    rw [entriesOfVariables_spelled, entriesOfVariables_spelled]
    exact List.rel_append (hsame _) (.cons (.inr ⟨s, w, rfl, rfl⟩) (hsame _))
  refine Layer.forall₂_arranged hkey (fun a b h => ?_) (forall₂_lastOfEach hkey hentries)
  obtain rfl | ⟨s, w, rfl, rfl⟩ := h
  · exact .inl rfl
  · refine .inr ⟨s, w, ?_, ?_⟩ <;> rw [TextSetting.arranged_variableValue]

theorem outline_allLayers (s w : String) :
    (allLayers host x after layers s).map Layer.outline =
      (allLayers host x after layers w).map Layer.outline := by
  rw [allLayers_eq, allLayers_eq, List.map_append, List.map_append, List.map_singleton,
    List.map_singleton, outline_eq_of_forall₂ (forall₂_spelledLayer s w)]

/-- What is below the variables for the routing of signals. -/
def signalingBelow (host : Host) (layers : List Layer) : Option Value :=
  mergeAllOver none ((comeUp host layers).flatMap (givenBy "signaling"))

theorem mergeAllOver_allLayers (t : String) :
    mergeAllOver none ((allLayers host x after layers t).flatMap (givenBy "signaling")) =
      mergeAllOver (signalingBelow host layers)
        (givenBy "signaling" (spelledLayer host x after layers t)) := by
  rw [allLayers_eq, List.flatMap_append, List.flatMap_singleton, mergeAllOver_append]
  rfl

namespace Spells

/-- An entry is the one of the variable or one of a variable that is apart from it. -/
theorem eq_or_isApart (h : Spells host x after layers) {t : String} {e : String × Value}
    (he : e ∈ ofVariables (spelled host x after t).bindings) :
    e = ("signaling." ++ x.name, variableValue t) ∨
      ∃ binding, x.IsApart binding ∧ ofVariables [binding] = [e] := by
  have hentry := (lastOfEach_sublist _).subset he
  change e ∈ entriesOfVariables _ at hentry
  rw [entriesOfVariables_spelled] at hentry
  rcases List.mem_append.1 hentry with hbefore | hafter
  · obtain ⟨binding, hbinding, hsame⟩ := exists_of_mem_entriesOfVariables hbefore
    exact .inr ⟨binding, h.apart binding (List.mem_append_left _ hbinding), hsame⟩
  · rcases List.mem_cons.1 hafter with rfl | hafter
    · exact .inl rfl
    · obtain ⟨binding, hbinding, hsame⟩ := exists_of_mem_entriesOfVariables hafter
      exact .inr ⟨binding, h.apart binding (List.mem_append_right _ hbinding), hsame⟩

theorem settled_append (h : Spells host x after layers) (t : String) :
    ∀ layer ∈ layers ++ [ofVariables (spelled host x after t).bindings], ∀ e ∈ layer,
      IsSettled e.1 := by
  intro layer hlayer e he
  rcases List.mem_append.1 hlayer with hlayer | hlayer
  · exact h.settled layer hlayer e he
  · rw [List.mem_singleton.1 hlayer] at he
    rcases h.eq_or_isApart he with rfl | ⟨binding, hbinding, hsame⟩
    · exact x.isSettled_key
    · exact hbinding.settled e (hsame ▸ List.mem_singleton_self e)

/-- The variable is among those that come up: none behind it sets the same key. -/
theorem mem_spelledLayer (h : Spells host x after layers) (t : String) :
    ("signaling." ++ x.name, variableValue t) ∈ spelledLayer host x after layers t := by
  have hbehind : ∀ e ∈ entriesOfVariables after, e.1 ≠ "signaling." ++ x.name := by
    intro e he hkey
    obtain ⟨binding, hbinding, hsame⟩ := exists_of_mem_entriesOfVariables he
    have hsilent := (h.apart binding (List.mem_append_right _ hbinding)).silent
    obtain ⟨key, v⟩ := e
    obtain rfl : key = "signaling." ++ x.name := hkey
    rw [hsame, x.mentions_entry] at hsilent
    cases hsilent
  have hmem : ("signaling." ++ x.name, variableValue t) ∈
      ofVariables (spelled host x after t).bindings := by
    change _ ∈ lastOfEach (entriesOfVariables _)
    rw [entriesOfVariables_spelled]
    exact mem_lastOfEach hbehind
  refine (Layer.arranged_perm _ _).mem_iff.2 (List.mem_map.2 ⟨_, hmem, ?_⟩)
  rw [TextSetting.arranged_variableValue]

/-- The variables give nothing but tables for the routing of signals. -/
theorem tables (h : Spells host x after layers) (t : String) :
    ∀ v ∈ givenBy "signaling" (spelledLayer host x after layers t), IsTable v := by
  refine Layer.ComesUpAs.isTable ⟨_, rfl⟩ fun v hv => ?_
  obtain ⟨e, he, hgiven⟩ := List.mem_filterMap.1 hv
  have hone : v ∈ givenBy "signaling" [e] :=
    List.mem_filterMap.2 ⟨e, List.mem_singleton_self e, hgiven⟩
  rcases h.eq_or_isApart he with rfl | ⟨binding, hbinding, hsame⟩
  · rw [x.ofKey_eq, if_pos rfl] at hgiven
    exact ⟨_, (Option.some.inj hgiven).symm⟩
  · exact hbinding.tables v (hsame ▸ hone)

/-- The variable alone gives anything for the text. -/
theorem mentions_entriesOfVariables (h : Spells host x after layers) (t : String) :
    mentions x.place (entriesOfVariables (spelled host x after t).bindings) =
      [variableValue t] := by
  have hsilent {bindings : List (String × String)}
      (hbindings : ∀ binding ∈ bindings, x.IsApart binding) :
      (entriesOfVariables bindings).flatMap (fun e => mentions x.place [e]) = [] := by
    rw [List.flatMap_eq_nil_iff]
    intro e he
    obtain ⟨binding, hbinding, hsame⟩ := exists_of_mem_entriesOfVariables he
    exact hsame ▸ (hbindings binding hbinding).silent
  have hbefore := hsilent fun binding hbinding =>
    h.apart binding (List.mem_append_left _ hbinding)
  have hafter := hsilent fun binding hbinding =>
    h.apart binding (List.mem_append_right _ hbinding)
  rw [mentions_eq_flatMap, entriesOfVariables_spelled, List.flatMap_append, List.flatMap_cons,
    hbefore, hafter, x.mentions_entry]
  rfl

/-- So it does in whatever order the variables come up. -/
theorem mentions_spelledLayer (h : Spells host x after layers) (t : String) :
    mentions x.place (spelledLayer host x after layers t) = [variableValue t] := by
  have hmem : variableValue t ∈ mentions x.place (spelledLayer host x after layers t) := by
    rw [mentions_eq_flatMap]
    refine List.mem_flatMap.2 ⟨_, h.mem_spelledLayer t, ?_⟩
    rw [x.mentions_entry]
    exact List.mem_singleton_self _
  -- no more is mentioned when earlier variables give way to later ones
  have hlayer : (mentions x.place (ofVariables (spelled host x after t).bindings)).Sublist
      [variableValue t] := by
    rw [← h.mentions_entriesOfVariables t, mentions_eq_flatMap,
      mentions_eq_flatMap x.place (entriesOfVariables _)]
    exact (lastOfEach_sublist _).flatMap _
  have hcard : (mentions x.place (ofVariables (spelled host x after t).bindings)).length =
      (mentions x.place (spelledLayer host x after layers t)).length :=
    Multiset.card_eq_card_of_rel
      (rel_mentions_arranged (host.orders layers.length) x.place _)
  -- the variable is there, and there is room for nothing else
  have hone : (mentions x.place (spelledLayer host x after layers t)).length = 1 :=
    Nat.le_antisymm (hcard ▸ hlayer.length_le) (List.length_pos_of_mem hmem)
  obtain ⟨v, hv⟩ := List.length_eq_one_iff.1 hone
  rw [hv] at hmem ⊢
  rw [List.mem_singleton.1 hmem]

/-- With the variable there is a table for the routing of signals, whatever is below it. -/
theorem isTable_signaling (h : Spells host x after layers) (t : String) :
    ∀ v, mergeAllOver none ((allLayers host x after layers t).flatMap (givenBy "signaling")) =
      some v → IsTable v := by
  have hmem : .table [(x.name, variableValue t)] ∈
      givenBy "signaling" (spelledLayer host x after layers t) := by
    refine List.mem_filterMap.2 ⟨_, h.mem_spelledLayer t, ?_⟩
    rw [x.ofKey_eq]
    rfl
  rw [mergeAllOver_allLayers]
  exact isTable_mergeAllOver_of_mem (h.tables t) hmem _

/-- The value at a place in the routing of signals: what the variables give there, over what is
below. -/
theorem placed_signaling (h : Spells host x after layers) (name t : String) :
    placed (allLayers host x after layers t) ["signaling", name] =
      mergeAllOver ((signalingBelow host layers).bind (part name))
        (mentions ["signaling", name] (spelledLayer host x after layers t)) := by
  rw [placed, funext (partAt_one name), mergeAllOver_allLayers, bind_part_mergeAllOver (h.tables t)]
  rfl

/-- The variable decides on the text. -/
theorem placed_place (h : Spells host x after layers) (t : String) :
    placed (allLayers host x after layers t) x.place = some (variableValue t) := by
  have hmentions := h.mentions_spelledLayer t
  rw [TextSetting.place] at hmentions ⊢
  rw [h.placed_signaling, hmentions]
  change some (mergeOver _ (variableValue t)) = _
  cases hcase : variableValue t with
  | table entries => exact absurd ⟨entries, hcase⟩ (TextSetting.not_isTable_variableValue t)
  | absent | bool | int | real | text | list => rfl

/-- The variable does not decide on anything but the text. -/
theorem placed_of_ne (h : Spells host x after layers) {place : List String}
    (hplace : place ∈ places) (hne : place ≠ x.place) (s w : String) :
    placed (allLayers host x after layers s) place =
      placed (allLayers host x after layers w) place := by
  have hmentions : mentions place (spelledLayer host x after layers s) =
      mentions place (spelledLayer host x after layers w) :=
    mentions_eq_of_forall₂ (forall₂_spelledLayer s w) hplace hne
  have houter {name : String} (heq : place = [name]) :
      placed (allLayers host x after layers s) place =
        placed (allLayers host x after layers w) place := by
    rw [heq] at hmentions ⊢
    rw [placed_one, placed_one, effective, effective, allLayers_eq, allLayers_eq,
      List.flatMap_append, List.flatMap_append, List.flatMap_singleton, List.flatMap_singleton,
      hmentions]
  have hinner {name : String} (heq : place = ["signaling", name]) :
      placed (allLayers host x after layers s) place =
        placed (allLayers host x after layers w) place := by
    rw [heq] at hmentions ⊢
    rw [h.placed_signaling, h.placed_signaling, hmentions]
  simp only [places, List.mem_cons, List.not_mem_nil, or_false] at hplace
  rcases hplace with h | h | h | h | h | h | h | h | h
  · exact houter h
  · exact houter h
  · exact houter h
  · exact houter h
  · exact houter h
  · exact houter h
  · exact hinner h
  · exact hinner h
  · exact hinner h

end Spells

/-- Settings with another text are those that come from the values with another one at its place. -/
theorem Fitted.put {find find' : List String → Option Value} {u : Settings Float} {v : Value}
    {t : String} (hu : Fitted usualLimit find u)
    (hother : ∀ place ∈ places, place ≠ x.place → find place = find' place)
    (hplace : find' x.place = some v) (hfit : fitText v = some t) :
    Fitted usualLimit find' (x.put t u) := by
  have htaken (usual : String) : Taken fitText usual (find' x.place) t := by
    rw [hplace]
    exact hfit
  obtain ⟨hlimit, htasks, hweight, hcap, hmode, haccumulation, hexchange, hword, htimeout⟩ := hu
  have hsame {place : List String} (hmem : place ∈ places)
      (hne : place ∉ [["signaling", "exchange"], ["signaling", "routing_key_prefix"]]) :
      find place = find' place := by
    refine hother place hmem fun heq => hne ?_
    rw [heq]
    cases x <;> decide
  rw [hsame (by decide) (by decide)] at hlimit htasks hweight hcap hmode haccumulation htimeout
  cases x with
  | exchange =>
    exact ⟨hlimit, htasks, hweight, hcap, hmode, haccumulation, htaken _,
      hother ["signaling", "routing_key_prefix"] (by decide) (by decide) ▸ hword, htimeout⟩
  | routingWord =>
    exact ⟨hlimit, htasks, hweight, hcap, hmode, haccumulation,
      hother ["signaling", "exchange"] (by decide) (by decide) ▸ hexchange, htaken _, htimeout⟩

/-- Words are accepted where words are accepted. -/
theorem validate_put {u : Settings Float} {t : String} (ht : IsWord t) (hu : IsWord (x.get u)) :
    (x.put t u).validate = u.validate := by
  have hfilled {s : String} (h : IsWord s) : s.isEmpty = false := by
    simpa [String.isEmpty_iff] using h.nonempty
  have hunbroken {s : String} (h : IsWord s) : s.toList.any Text.isBlank = false := by
    rw [List.any_eq_false]
    exact fun c hc => by rw [h.unbroken c hc]; exact Bool.false_ne_true
  have hsignaling : checkSignaling (x.put t u).signaling = checkSignaling u.signaling := by
    cases x with
    | exchange =>
      have hexchange : u.signaling.exchange.isEmpty = false := hfilled hu
      simp only [checkSignaling, TextSetting.put, hfilled ht, hexchange]
      rfl
    | routingWord =>
      have hword : u.signaling.routingWord.isEmpty = false := hfilled hu
      have hwhole : u.signaling.routingWord.toList.any Text.isBlank = false := hunbroken hu
      simp only [checkSignaling, TextSetting.put, hfilled ht, hunbroken ht, hword, hwhole]
      rfl
  cases x <;> simp only [Settings.validate, hsignaling] <;> rfl

theorem accepted_map_put {found : Option (Settings Float)} {t : String} (ht : IsWord t)
    (hfound : ∀ u, found = some u → IsWord (x.get u)) :
    accepted (found.map (x.put t)) = (accepted found).map (x.put t) := by
  cases found with
  | none => rfl
  | some u =>
    rw [Option.map_some, accepted_some, accepted_some, validate_put ht (hfound u rfl)]
    cases u.validate <;> rfl

/-- The text that is loaded is the canonical text of what the variable holds. -/
theorem Spells.get_of_fitted (h : Spells host x after layers) {u : Settings Float} {t : String}
    (hu : Fitted usualLimit (placed (allLayers host x after layers t)) u) :
    x.get u = canonicalText t := by
  have hplace := h.placed_place t
  have htaken (usual text : String) (htext : Taken fitText usual
      (placed (allLayers host x after layers t) x.place) text) : text = canonicalText t := by
    rw [hplace] at htext
    exact (Option.some.inj ((fitText_variableValue t).symm.trans htext)).symm
  cases x with
  | exchange => exact htaken _ _ hu.exchange
  | routingWord => exact htaken _ _ hu.routingWord

/-- Settings from layers that can be merged are those that come from the values of their places. -/
theorem Spells.exists_accepted (h : Spells host x after layers) (usualLimit : Nat) {t : String}
    {root : Value} (hmerge : mergeLayers (allLayers host x after layers t) (.table []) = .ok root) :
    ∃ found, ofLayers (spelled host x after t) usualLimit (layers.map .ok) = accepted found ∧
      ∀ u, found = some u ↔ Fitted usualLimit (placed (allLayers host x after layers t)) u := by
  obtain ⟨haccepted, hpart⟩ := ofLayers_of_mergeLayers (h.settled_append t) hmerge
  exact ⟨_, haccepted, ofValue?_of_placed hpart (h.isTable_signaling t)⟩

/-- Whatever word is in the variable, the same settings come from the layers, or they are refused
for the same reason, but for the one text that the variable sets. -/
theorem ofLayers_spelled (h : Spells host x after layers) (hs : IsWord s) (hw : IsWord w) :
    ofLayers (spelled host x after s) usualLimit (layers.map .ok) =
      (ofLayers (spelled host x after w) usualLimit (layers.map .ok)).map
        (x.put (canonicalText s)) := by
  have houtline (t t' : String) : (allLayers host x after layers t).map Layer.outline =
      (allLayers host x after layers t').map Layer.outline :=
    outline_allLayers t t'
  cases hmerge : mergeLayers (allLayers host x after layers w) (.table []) with
  | error fault =>
    rw [ofLayers_of_fault hmerge,
      ofLayers_of_fault (mergeLayers_eq_error_of_outline (houtline w s) hmerge)]
    rfl
  | ok root =>
    obtain ⟨root', hmerge'⟩ :
        ∃ root', mergeLayers (allLayers host x after layers s) (.table []) = .ok root' := by
      cases hcase : mergeLayers (allLayers host x after layers s) (.table []) with
      | ok root' => exact ⟨root', rfl⟩
      | error fault =>
        rw [mergeLayers_eq_error_of_outline (houtline s w) hcase] at hmerge
        cases hmerge
    obtain ⟨found, hfound, hfitted⟩ := h.exists_accepted usualLimit hmerge
    obtain ⟨found', hfound', hfitted'⟩ := h.exists_accepted usualLimit hmerge'
    -- settings that are fitted for one word are fitted for the other, with its text
    have hput (t t' : String) {u : Settings Float}
        (hu : Fitted usualLimit (placed (allLayers host x after layers t)) u) :
        Fitted usualLimit (placed (allLayers host x after layers t'))
          (x.put (canonicalText t') u) :=
      hu.put (fun _ hplace hne => h.placed_of_ne hplace hne t t') (h.placed_place t')
        (fitText_variableValue t')
    have hsame : found' = found.map (x.put (canonicalText s)) := by
      cases hcase : found with
      | some u => exact (hfitted' _).2 (hput w s ((hfitted u).1 hcase))
      | none =>
        refine Option.eq_none_iff_forall_ne_some.2 fun u hu => ?_
        rw [(hfitted _).2 (hput s w ((hfitted' u).1 hu))] at hcase
        cases hcase
    rw [hfound, hfound', hsame]
    refine accepted_map_put (isWord_canonicalText hs) fun u hu => ?_
    rw [h.get_of_fitted ((hfitted u).1 hu)]
    exact isWord_canonicalText hw

end Spelled

section Hosts

variable {host : Host} {x : TextSetting} {after : List (String × String)}

/-- Paths lead to the same files whatever variables there are. -/
theorem follow_bindings (host : Host) (bindings : List (String × String))
    (place names : List String) :
    ({ host with bindings } : Host).follow place names = host.follow place names := by
  induction names generalizing place with
  | nil => rfl
  | cons name rest ih =>
    rw [Host.follow, Host.follow, ih, ih, ih]
    rfl

theorem read?_bindings (host : Host) (bindings : List (String × String)) (path : String) :
    ({ host with bindings } : Host).read? path = host.read? path := by
  simp only [Host.read?, Host.resolve, follow_bindings]
  rfl

/-- So the layers of files are the same. -/
theorem optionalLayer_bindings (host : Host) (bindings : List (String × String)) (path : String) :
    optionalLayer { host with bindings } path = optionalLayer host path := by
  simp only [optionalLayer, fileLayer, Host.isFile, read?_bindings]
  rfl

theorem isDirectory_bindings (host : Host) (bindings : List (String × String)) (path : String) :
    ({ host with bindings } : Host).isDirectory path = host.isDirectory path := by
  simp only [Host.isDirectory, Host.resolve, follow_bindings]
  rfl

theorem valueOf?_spelled {name : String} (hname : name ≠ x.variableName) (s w : String) :
    (spelled host x after s).valueOf? name = (spelled host x after w).valueOf? name := by
  have hbeq : (name == x.variableName) = false := beq_eq_false_iff_ne.2 hname
  simp only [Host.valueOf?, spelled]
  induction host.bindings with
  | nil => simp only [List.nil_append, List.lookup_cons, hbeq]
  | cons binding rest ih =>
    rw [List.cons_append, List.cons_append, List.lookup_cons, List.lookup_cons, ih]

/-- Settings are looked for at the same place. -/
theorem usualDirectory_spelled (s w : String) :
    usualDirectory (spelled host x after s) = usualDirectory (spelled host x after w) := by
  have hpackage : "CARGO_MANIFEST_DIR" ≠ x.variableName := by cases x <;> decide
  have hdirectory (path : String) : (spelled host x after s).isDirectory path =
      (spelled host x after w).isDirectory path :=
    (isDirectory_bindings host _ path).trans (isDirectory_bindings host _ path).symm
  simp only [usualDirectory, hdirectory, valueOf?_spelled hpackage s w]

theorem optionalLayer_spelled (s w : String) (path : String) :
    optionalLayer (spelled host x after s) path = optionalLayer (spelled host x after w) path :=
  (optionalLayer_bindings host _ path).trans (optionalLayer_bindings host _ path).symm

end Hosts

/-- Whatever word is in the variable of a text, the same settings are loaded from a directory, or
they are refused for the same reason, but for that text: it is the canonical text of the word. So it
is the word itself exactly if that is verbatim. -/
theorem loadDirectory_spelled (x : TextSetting) (host : Host) (after : List (String × String))
    (usualLimit : Nat) (directory : Option String) (environment : String) {base overlay : Layer}
    {s w : String} (hs : IsWord s) (hw : IsWord w)
    (hbase : optionalLayer (spelled host x after s) (Path.joined
      (directory.getD (usualDirectory (spelled host x after s))) "dispatch.toml") = .ok base)
    (hoverlay : optionalLayer (spelled host x after s) (Path.joined
      (directory.getD (usualDirectory (spelled host x after s)))
      ("dispatch." ++ environment ++ ".toml")) = .ok overlay)
    (hspells : Spells host x after [base, overlay]) :
    (loadDirectory (spelled host x after s) usualLimit directory environment).map (·.settings) =
        (loadDirectory (spelled host x after w) usualLimit directory environment).map
          (fun loaded => x.put (canonicalText s) loaded.settings) ∧
      ∀ loaded, loadDirectory (spelled host x after s) usualLimit directory environment =
        .ok loaded →
        x.get loaded.settings = canonicalText s ∧ (x.get loaded.settings = s ↔ IsVerbatim s) := by
  have hdirectory : usualDirectory (spelled host x after s) =
      usualDirectory (spelled host x after w) :=
    usualDirectory_spelled s w
  have hlayers (t : String) (hsame : usualDirectory (spelled host x after s) =
      usualDirectory (spelled host x after t)) :
      (loadDirectory (spelled host x after t) usualLimit directory environment).map (·.settings) =
        ofLayers (spelled host x after t) usualLimit ([base, overlay].map .ok) := by
    rw [hsame, optionalLayer_spelled s t] at hbase hoverlay
    exact map_settings_loadDirectory directory environment hbase hoverlay
  have hequal : (loadDirectory (spelled host x after s) usualLimit directory environment).map
      (·.settings) = (loadDirectory (spelled host x after w) usualLimit directory environment).map
        (fun loaded => x.put (canonicalText s) loaded.settings) := by
    rw [hlayers s rfl, ofLayers_spelled hspells hs hw, ← hlayers w hdirectory]
    cases loadDirectory (spelled host x after w) usualLimit directory environment <;> rfl
  refine ⟨hequal, fun loaded hloaded => ?_⟩
  have hget : x.get loaded.settings = canonicalText s := by
    rw [hloaded] at hequal
    cases hother : loadDirectory (spelled host x after w) usualLimit directory environment with
    | error why => rw [hother] at hequal; cases hequal
    | ok loaded' =>
      rw [hother] at hequal
      have hsettings : loaded.settings = x.put (canonicalText s) loaded'.settings :=
        Except.ok.inj hequal
      rw [hsettings, x.get_put]
  exact ⟨hget, by rw [hget, canonicalText_eq_self_iff]⟩

section TestHost

/-- A host with a file for all environments, and one for tests without settings. -/
def quietHost : Host := testHost threadsText "" [] asGiven

theorem base_quietHost (x : TextSetting) (after : List (String × String)) (t : String) :
    optionalLayer (spelled quietHost x after t) (Path.joined "config" "dispatch.toml") =
      .ok threadsLayer :=
  base_testHost read_threadsText

theorem overlay_quietHost (x : TextSetting) (after : List (String × String)) (t : String) :
    optionalLayer (spelled quietHost x after t)
      (Path.joined "config" ("dispatch." ++ "test" ++ ".toml")) = .ok [] :=
  overlay_testHost rfl

theorem spells_quietHost (x : TextSetting) : Spells quietHost x [] [threadsLayer, []] where
  settled := by
    simp only [List.forall_mem_cons]
    exact ⟨List.forall_mem_cons.2 ⟨rfl, nofun⟩, nofun, nofun⟩
  apart := nofun

/-- A word in front of routing keys that is spelled with zeros in front loses them. -/
theorem loadDirectory_spelled_quietHost :
    IsWord "007" ∧ IsWord "task" ∧
      optionalLayer (spelled quietHost .routingWord [] "007")
        (Path.joined "config" "dispatch.toml") = .ok threadsLayer ∧
      optionalLayer (spelled quietHost .routingWord [] "007")
        (Path.joined "config" ("dispatch." ++ "test" ++ ".toml")) = .ok [] ∧
      Spells quietHost .routingWord [] [threadsLayer, []] ∧ ¬IsVerbatim "007" ∧
      ∃ loaded,
        loadDirectory (spelled quietHost .routingWord [] "007") 2 (some "config") "test" =
          .ok loaded ∧
        loaded.settings.signaling.routingWord = "7" := by
  have hcanonical : canonicalText "007" = "7" := by decide +kernel
  have hs : IsWord "007" := by decide
  have hw : IsWord "task" := by decide
  have hbase := base_quietHost .routingWord [] "007"
  have hoverlay := overlay_quietHost .routingWord [] "007"
  have hspells := spells_quietHost .routingWord
  obtain ⟨hequal, hloaded⟩ := loadDirectory_spelled .routingWord quietHost [] 2 (some "config")
    "test" hs hw hbase hoverlay hspells
  refine ⟨hs, hw, hbase, hoverlay, hspells, fun hverbatim => ?_, ?_⟩
  · rw [← canonicalText_eq_self_iff, hcanonical] at hverbatim
    exact absurd hverbatim (by decide)
  -- the other word is accepted, and so is this one
  · obtain ⟨settings, hsettings, -⟩ :
        ∃ settings, (loadDirectory (spelled quietHost .routingWord [] "task") 2 (some "config")
          "test").map (·.settings) = .ok settings ∧
            TextSetting.get settings .routingWord = "task" := by
      rw [map_settings_loadDirectory (some "config") "test" (base_quietHost .routingWord [] "task")
        (overlay_quietHost .routingWord [] "task")]
      exact exists_ok_of_beq (by decide +kernel)
    cases hload : loadDirectory (spelled quietHost .routingWord [] "007") 2 (some "config")
      "test" with
    | ok loaded => exact ⟨loaded, rfl, ((hloaded loaded hload).1).trans hcanonical⟩
    | error why =>
      rw [hload] at hequal
      cases hother : loadDirectory (spelled quietHost .routingWord [] "task") 2 (some "config")
        "test" with
      | ok loaded => rw [hother] at hequal; cases hequal
      | error why => rw [hother] at hsettings; cases hsettings

/-- The routing of signals as a whole, and an exchange. -/
def wholeBindings : List (String × String) :=
  [("DISPATCH__SIGNALING", "5"), ("DISPATCH__SIGNALING__EXCHANGE", "orders")]

theorem eq_misfit_of_match {outcome : Except Failure (Settings Float)}
    (h : (match outcome with
      | .error (.refused (.settingsUnreadable .misfit)) => true
      | _ => false) = true) : outcome = .error (.refused (.settingsUnreadable .misfit)) := by
  split at h
  · rfl
  · cases h

/-- An exchange that is named by a number with zeros in front is another one than was named. If the
variable comes again in other letters, the last one decides. Beside a variable for the routing of
signals as a whole, it depends on which of the two comes up last. A key of a file that is a path in
lower case only is followed when all layers are in, and so may decide over the variable. -/
theorem not_loadDirectory_verbatim :
    (∃ host : Host, ∃ base overlay : Layer, IsWord "007" ∧
      optionalLayer host (Path.joined "config" "dispatch.toml") = .ok base ∧
      optionalLayer host (Path.joined "config" ("dispatch." ++ "test" ++ ".toml")) =
        .ok overlay ∧
      host.bindings = [("DISPATCH__SIGNALING__EXCHANGE", "007")] ∧
      ∃ s, (loadDirectory host 2 (some "config") "test").map (·.settings) = .ok s ∧
        s.signaling.exchange = "7") ∧
    (∃ host : Host, ∃ base overlay : Layer, IsWord "orders" ∧
      optionalLayer host (Path.joined "config" "dispatch.toml") = .ok base ∧
      optionalLayer host (Path.joined "config" ("dispatch." ++ "test" ++ ".toml")) =
        .ok overlay ∧
      host.bindings = [("DISPATCH__SIGNALING__EXCHANGE", "orders"),
        ("DISPATCH__SIGNALING__Exchange", "parcels")] ∧
      ∃ s, (loadDirectory host 2 (some "config") "test").map (·.settings) = .ok s ∧
        s.signaling.exchange = "parcels") ∧
    (∃ host : Host, ∃ orders : Nat → Order, ∃ base overlay : Layer, IsWord "orders" ∧
      optionalLayer host (Path.joined "config" "dispatch.toml") = .ok base ∧
      optionalLayer host (Path.joined "config" ("dispatch." ++ "test" ++ ".toml")) =
        .ok overlay ∧
      host.bindings = [("DISPATCH__SIGNALING", "5"),
        ("DISPATCH__SIGNALING__EXCHANGE", "orders")] ∧
      (∃ s, (loadDirectory host 2 (some "config") "test").map (·.settings) = .ok s ∧
        s.signaling.exchange = "orders") ∧
      (loadDirectory { host with orders } 2 (some "config") "test").map (·.settings) =
        .error (.refused (.settingsUnreadable .misfit))) ∧
    ∃ host : Host, ∃ overlay : Layer, IsWord "task" ∧
      optionalLayer host (Path.joined "config" "dispatch.toml") = .ok kelvinLayer ∧
      optionalLayer host (Path.joined "config" ("dispatch." ++ "test" ++ ".toml")) =
        .ok overlay ∧
      host.bindings = [("DISPATCH__SIGNALING__ROUTING_KEY_PREFIX", "task")] ∧
      ∃ s, (loadDirectory host 2 (some "config") "test").map (·.settings) = .ok s ∧
        s.signaling.routingWord = "base" := by
  have hempty : Toml.read? "" = some [] := rfl
  refine ⟨?_, ?_, ?_, ?_⟩
  · -- the text is read as a number, which is written back without its zeros
    refine ⟨spelled quietHost .exchange [] "007", threadsLayer, [], by decide,
      base_quietHost _ _ _, overlay_quietHost _ _ _, rfl, ?_⟩
    rw [map_settings_loadDirectory (some "config") "test" (base_quietHost .exchange [] "007")
      (overlay_quietHost .exchange [] "007")]
    exact exists_ok_of_beq (by decide +kernel)
  · -- two variables whose names are one key: the last of them is kept
    have hbase := base_quietHost .exchange [("DISPATCH__SIGNALING__Exchange", "parcels")] "orders"
    have hoverlay :=
      overlay_quietHost .exchange [("DISPATCH__SIGNALING__Exchange", "parcels")] "orders"
    refine ⟨spelled quietHost .exchange [("DISPATCH__SIGNALING__Exchange", "parcels")] "orders",
      threadsLayer, [], by decide, hbase, hoverlay, rfl, ?_⟩
    have hbindings : ofVariables (spelled quietHost .exchange
        [("DISPATCH__SIGNALING__Exchange", "parcels")] "orders").bindings =
        [("signaling.exchange", .text "parcels")] := by
      have hkey : variableKey? "DISPATCH__SIGNALING__Exchange" = some "signaling.exchange" := by
        decide +kernel
      change lastOfEach (entriesOfVariables _) = _
      rw [entriesOfVariables_spelled]
      simp only [entriesOfVariables, List.filterMap_cons, hkey]
      rfl
    rw [map_settings_loadDirectory (some "config") "test" hbase hoverlay, ofLayers_eq, hbindings]
    exact exists_ok_of_beq (by decide +kernel)
  · -- the number takes the place of the table if it comes up last, and is replaced if it does not
    refine ⟨testHost "" "" wholeBindings asGiven, withLast "signaling", [], [], by decide,
      base_testHost hempty, overlay_testHost hempty, rfl, ?_, ?_⟩
    · rw [map_settings_loadDirectory (some "config") "test" (base_testHost hempty)
        (overlay_testHost hempty)]
      exact exists_ok_of_beq (by decide +kernel)
    · change (loadDirectory (testHost "" "" wholeBindings (withLast "signaling")) 2
        (some "config") "test").map (·.settings) = _
      rw [map_settings_loadDirectory (some "config") "test" (base_testHost hempty)
        (overlay_testHost hempty)]
      exact eq_misfit_of_match (by decide +kernel)
  · -- the key of the file is a path to the setting once it is in lower case
    have hkelvin : Toml.read? kelvinText = some kelvinLayer :=
      eq_some_of_alike (by decide +kernel)
    refine ⟨testHost kelvinText "" taskBindings asGiven, [], by decide, base_testHost hkelvin,
      overlay_testHost hempty, rfl, ?_⟩
    rw [map_settings_loadDirectory (some "config") "test" (base_testHost hkelvin)
      (overlay_testHost hempty)]
    exact exists_ok_of_beq (by decide +kernel)

end TestHost

end BatchRun.Settings
