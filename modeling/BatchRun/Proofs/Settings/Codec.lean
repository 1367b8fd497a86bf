import BatchRun.Proofs.Partition.BlockCount
import BatchRun.Proofs.Signal.Codec
import BatchRun.Settings.Codec

/-!
# The codec of settings

Settings are written with all their fields, and what is unset is written as null, so that reading
them needs nothing that is usual. All of them come back but weights that are not finite: JSON has no
text for these, and they come back as unset. Valid settings have no such weights, which is why they
are read as they were written.

Whatever is read from a payload, with fields missing or unknown, has counts of 64 bits, and that is
all that writing takes for granted.

## Main definitions

* `Settings.IsStorable`: the counts of settings fit into 64 bits
* `Settings.onlyFinite`: settings without weights that are not finite

## Main results

* `Settings.decode_toJson`: what is read of settings that were written
* `Settings.isStorable_of_decode`: what is read can be written
* `Settings.reads_back`: writing and reading valid settings
-/

namespace BatchRun

open Json

namespace Json

section Optional

variable {α : Type} {decode : Decoder α} {value : Json}

theorem optional_of_ne_null (h : value ≠ .null) :
    optional decode value = (decode value).map some := by
  cases value with
  | null => exact absurd rfl h
  | bool | int | real | text | list | object => rfl

/-- A value that is set was decoded. -/
theorem decode_of_optional {a : α} (h : optional decode value = .ok (some a)) :
    decode value = .ok a := by
  by_cases hnull : value = .null
  · rw [hnull] at h
    cases h
  · rw [optional_of_ne_null hnull] at h
    cases hdecode : decode value with
    | error e =>
      rw [hdecode] at h
      cases h
    | ok b =>
      rw [hdecode] at h
      exact congrArg Except.ok (Option.some.inj (Except.ok.inj h))

end Optional

namespace RecordShape

variable {ρ : Type} {shape : RecordShape ρ} {given given' : List (String × Json)} {r r' : ρ}

/-- Whether a record has a field of some name. -/
def knows (shape : RecordShape ρ) (name : String) : Bool := (shape.field? name).isSome

theorem knows_name {field : FieldShape ρ} (h : field ∈ shape.fields) :
    shape.knows field.name = true := by
  rw [knows, field?, List.find?_isSome]
  exact ⟨field, h, beq_self_eq_true _⟩

theorem storeFields_filter_knows (given : List (String × Json)) (r : ρ) :
    shape.storeFields (given.filter fun e => shape.knows e.1) r = shape.storeFields given r := by
  induction given generalizing r with
  | nil => rfl
  | cons e rest ih =>
    obtain ⟨name, value⟩ := e
    rw [List.filter_cons]
    cases hfield : shape.field? name with
    | none => simpa only [knows, hfield, storeFields, Option.isSome_none, Bool.false_eq_true,
        if_false] using ih r
    | some field =>
      simp only [knows, hfield, storeFields, Option.isSome_some, if_true]
      split
      · exact ih _
      · rfl

/-- Fields that nobody knows do not matter. -/
theorem decode_filter_knows (given : List (String × Json)) :
    shape.decode (.object (given.filter fun e => shape.knows e.1)) =
      shape.decode (.object given) := by
  have hany (field : FieldShape ρ) (hfield : field ∈ shape.fields) :
      (given.filter fun e => shape.knows e.1).any (·.1 == field.name) =
        given.any (·.1 == field.name) := by
    rw [List.any_filter]
    congr 1
    funext e
    cases hname : e.1 == field.name with
    | true => rw [beq_iff_eq.1 hname, knows_name hfield, Bool.and_self]
    | false => rw [Bool.and_false]
  have hmissing : shape.missing? (given.filter fun e => shape.knows e.1) =
      shape.missing? given := by
    rw [missing?, missing?, ← List.head?_filter, ← List.head?_filter,
      List.filter_congr fun field hfield => by rw [hany field hfield]]
  simp only [decode, storeFields_filter_knows, hmissing]

/-- Whether a value goes into a field does not depend on what the record has in it so far. -/
def IsSteady (shape : RecordShape ρ) : Prop :=
  ∀ field ∈ shape.fields, ∀ value r r' s, field.store value r = .ok s →
    ∃ s', field.store value r' = .ok s'

theorem IsSteady.storeFields (h : shape.IsSteady) (hsub : given'.Sublist given) {s : ρ}
    (hgiven : shape.storeFields given r = .ok s) (r' : ρ) :
    ∃ s', shape.storeFields given' r' = .ok s' := by
  induction hsub generalizing r r' with
  | slnil => exact ⟨r', rfl⟩
  | cons e _ ih =>
    simp only [RecordShape.storeFields] at hgiven
    split at hgiven
    · exact ih hgiven r'
    · split at hgiven
      · exact ih hgiven r'
      · cases hgiven
  | cons_cons e _ ih =>
    simp only [RecordShape.storeFields] at hgiven ⊢
    split at hgiven
    · exact ih hgiven r'
    · next field hfield =>
      split at hgiven
      · next stored hstore =>
        obtain ⟨stored', hstore'⟩ := h field (List.mem_of_find?_eq_some hfield) _ _ r' _ hstore
        simp only [hstore']
        exact ih hgiven stored'
      · cases hgiven

/-- Without some of its fields an object is still read, if it need not have any. -/
theorem IsSteady.decode_sublist (h : shape.IsSteady)
    (hoptional : ∀ field ∈ shape.fields, field.required = false)
    (hsub : given'.Sublist given) (hgiven : shape.decode (.object given) = .ok r) :
    ∃ r', shape.decode (.object given') = .ok r' := by
  have hmissing : shape.missing? given' = none := by
    simp only [missing?, Option.map_eq_none_iff, List.find?_eq_none]
    intro field hfield
    simp [hoptional field hfield]
  simp only [decode] at hgiven
  split at hgiven
  · cases hgiven
  · next stored hstored =>
    obtain ⟨r', hr'⟩ := h.storeFields hsub hstored shape.blank
    exact ⟨r', by simp only [decode, hr', hmissing]⟩

end RecordShape

end Json

namespace ExecutionMode

theorem decode_name (mode : ExecutionMode) : variant named (.text mode.name) = .ok mode := by
  cases mode <;> rfl

end ExecutionMode

namespace Accumulation

theorem decode_name (accumulation : Accumulation) :
    variant named (.text accumulation.name) = .ok accumulation := by
  cases accumulation <;> rfl

end Accumulation

/-- A count that may be unset fits into 64 bits. -/
def FitsIfSet (count : Option Nat) : Prop := ∀ n ∈ count, n < UInt64.size

theorem FitsIfSet.decode {count : Option Nat} (h : FitsIfSet count) (expected : String) :
    optional (whole64 expected) ((count.map fun n => Json.int n).getD .null) = .ok count := by
  cases count with
  | none => rfl
  | some n =>
    have hnull : Json.int n ≠ .null := nofun
    have hset : optional (whole64 expected) (.int n) = .ok (some n) := by
      rw [optional_of_ne_null hnull, whole64_natCast expected (h n rfl)]
      rfl
    exact hset

theorem fitsIfSet_of_decode {value : Json} {expected : String} {count : Option Nat}
    (h : optional (whole64 expected) value = .ok count) : FitsIfSet count := by
  rintro n rfl
  exact lt_of_whole64 (decode_of_optional h)

namespace Signaling

/-- The fields of the routing of signals in the order of their names. -/
theorem toJson_eq (s : Signaling) :
    s.toJson = .object [("exchange", .text s.exchange), ("routing_key_prefix", .text s.routingWord),
      ("signal_timeout_ms", (s.timeout.map fun n => Json.int n).getD .null)] := by
  rw [toJson]
  generalize Json.text s.exchange = exchange, Json.text s.routingWord = word,
    (s.timeout.map fun n => Json.int n).getD .null = timeout
  cbv

open RecordShape FieldShape in
/-- The routing of signals is read as it was written. -/
theorem decode_toJson {s : Signaling} (h : FitsIfSet s.timeout) :
    shape.decode s.toJson = .ok s := by
  have hexchange : string (.text s.exchange) = .ok s.exchange := rfl
  have hword : string (.text s.routingWord) = .ok s.routingWord := rfl
  have hstored : shape.storeFields [("exchange", .text s.exchange),
      ("routing_key_prefix", .text s.routingWord),
      ("signal_timeout_ms", (s.timeout.map fun n => Json.int n).getD .null)] shape.blank =
        .ok s := by
    rw [storeFields_cons _ rfl (store_of _ hexchange), storeFields_cons _ rfl (store_of _ hword),
      storeFields_cons _ rfl (store_of _ (h.decode _))]
    rfl
  rw [toJson_eq, RecordShape.decode, hstored]
  rfl

/-- No field lets a time in that does not fit. -/
theorem keeps_fitsIfSet : shape.Keeps fun s => FitsIfSet s.timeout := by
  simp only [RecordShape.Keeps, shape, List.forall_mem_cons]
  refine ⟨?_, ?_, ?_, fun _ hfield => (List.not_mem_nil hfield).elim⟩
  all_goals
    intro value s s' hs hstore
    obtain ⟨a, hdecode, rfl⟩ := FieldShape.exists_of_store hstore
  · exact hs
  · exact hs
  · exact fitsIfSet_of_decode hdecode

theorem fitsIfSet_of_decode {payload : Json} {s : Signaling} (h : shape.decode payload = .ok s) :
    FitsIfSet s.timeout :=
  keeps_fitsIfSet.decode nofun h

end Signaling

namespace Settings

/-- The counts of settings fit into 64 bits. -/
structure IsStorable (s : Settings Float) : Prop where
  limit_lt : s.limit < UInt64.size
  concurrentTasks : FitsIfSet s.concurrentTasks
  timeout : FitsIfSet s.signaling.timeout

/-- Settings without weights that are not finite. -/
def onlyFinite (s : Settings Float) : Settings Float :=
  { s with
    maxBlockWeight := s.maxBlockWeight.filter Float.isFinite
    weightCap := s.weightCap.filter Float.isFinite }

/-- A weight that is not finite is read as unset. -/
theorem decode_weightJson (w : Option Float) (expected : String) :
    optional (number expected) (weightJson w) = .ok (w.filter Float.isFinite) := by
  cases w with
  | none => rfl
  | some w =>
    rw [weightJson, Option.filter_some]
    split <;> rfl

/-- The fields of settings in the order of their names. -/
theorem toJson_eq (s : Settings Float) :
    s.toJson = .object [("accumulation", .text s.accumulation.name),
      ("concurrency_limit", .int s.limit),
      ("concurrent_tasks", (s.concurrentTasks.map fun n => Json.int n).getD .null),
      ("execution_mode", .text s.mode.name), ("max_block_weight", weightJson s.maxBlockWeight),
      ("signaling", s.signaling.toJson), ("weight_cap", weightJson s.weightCap)] := by
  rw [toJson]
  generalize Json.int s.limit = limit,
    (s.concurrentTasks.map fun n => Json.int n).getD .null = tasks,
    weightJson s.maxBlockWeight = weight, weightJson s.weightCap = cap,
    Json.text s.mode.name = mode, Json.text s.accumulation.name = accumulation,
    s.signaling.toJson = signaling
  cbv

open RecordShape FieldShape in
/-- All that was written is read, whatever limit is usual where it is read. -/
theorem decode_toJson {s : Settings Float} (h : s.IsStorable) (usualLimit : Nat) :
    decode usualLimit s.toJson = .ok s.onlyFinite := by
  have hstored : (shape usualLimit).storeFields [("accumulation", .text s.accumulation.name),
      ("concurrency_limit", .int s.limit),
      ("concurrent_tasks", (s.concurrentTasks.map fun n => Json.int n).getD .null),
      ("execution_mode", .text s.mode.name), ("max_block_weight", weightJson s.maxBlockWeight),
      ("signaling", s.signaling.toJson), ("weight_cap", weightJson s.weightCap)]
        (shape usualLimit).blank = .ok s.onlyFinite := by
    rw [storeFields_cons _ rfl (store_of _ s.accumulation.decode_name),
      storeFields_cons _ rfl (store_of _ (whole64_natCast _ h.limit_lt)),
      storeFields_cons _ rfl (store_of _ (h.concurrentTasks.decode _)),
      storeFields_cons _ rfl (store_of _ s.mode.decode_name),
      storeFields_cons _ rfl (store_of _ (decode_weightJson s.maxBlockWeight _)),
      storeFields_cons _ rfl (store_of _ (Signaling.decode_toJson h.timeout)),
      storeFields_cons _ rfl (store_of _ (decode_weightJson s.weightCap _))]
    rfl
  rw [toJson_eq, decode, RecordShape.decode, hstored]
  rfl

section Reading

variable {usualLimit : Nat} {payload : Json} {s : Settings Float}

/-- No field of settings lets a count in that does not fit. -/
theorem keeps_isStorable : (shape usualLimit).Keeps IsStorable := by
  simp only [RecordShape.Keeps, shape, List.forall_mem_cons]
  refine ⟨?_, ?_, ?_, ?_, ?_, ?_, ?_, fun _ hfield => (List.not_mem_nil hfield).elim⟩
  all_goals
    intro value s s' hs hstore
    obtain ⟨a, hdecode, rfl⟩ := FieldShape.exists_of_store hstore
  · exact ⟨lt_of_whole64 hdecode, hs.concurrentTasks, hs.timeout⟩
  · exact ⟨hs.limit_lt, fitsIfSet_of_decode hdecode, hs.timeout⟩
  · exact ⟨hs.limit_lt, hs.concurrentTasks, hs.timeout⟩
  · exact ⟨hs.limit_lt, hs.concurrentTasks, hs.timeout⟩
  · exact ⟨hs.limit_lt, hs.concurrentTasks, hs.timeout⟩
  · exact ⟨hs.limit_lt, hs.concurrentTasks, hs.timeout⟩
  · exact ⟨hs.limit_lt, hs.concurrentTasks, Signaling.fitsIfSet_of_decode hdecode⟩

/-- What is read can be written, if the usual limit can. -/
theorem isStorable_of_decode (husual : usualLimit < UInt64.size)
    (h : decode usualLimit payload = .ok s) : s.IsStorable :=
  keeps_isStorable.decode ⟨husual, nofun, nofun⟩ h

theorem isSteady : (shape usualLimit).IsSteady := by
  simp only [RecordShape.IsSteady, shape, List.forall_mem_cons]
  refine ⟨?_, ?_, ?_, ?_, ?_, ?_, ?_, fun _ hfield => (List.not_mem_nil hfield).elim⟩
  all_goals
    intro value r r' s hstore
    obtain ⟨a, hdecode, -⟩ := FieldShape.exists_of_store hstore
    exact ⟨_, FieldShape.store_of r' hdecode⟩

theorem required_eq_false : ∀ field ∈ (shape usualLimit).fields, field.required = false := by
  simp [shape, FieldShape.of]

end Reading

section Weights

variable {s : Settings Float}

/-- The weights that are set are finite. -/
def HasFiniteWeights (s : Settings Float) : Prop :=
  (∀ w ∈ s.maxBlockWeight, w.isFinite = true) ∧ ∀ w ∈ s.weightCap, w.isFinite = true

theorem onlyFinite_eq_iff : s.onlyFinite = s ↔ s.HasFiniteWeights := by
  have hweights : s.onlyFinite = s ↔ s.maxBlockWeight.filter Float.isFinite = s.maxBlockWeight ∧
      s.weightCap.filter Float.isFinite = s.weightCap := by
    cases s
    simp [onlyFinite]
  have hkept (w : Option Float) :
      w.filter Float.isFinite = w ↔ ∀ given ∈ w, given.isFinite = true := by
    cases w <;> simp [Option.filter_some]
  rw [hweights, hkept, hkept, HasFiniteWeights]

/-- Weights that are not finite are refused, so that none of them has to be written. -/
theorem hasFiniteWeights_of_validate (h : s.validate = .ok ()) : s.HasFiniteWeights := by
  obtain ⟨-, -, hweight, hcap, -⟩ := validate_eq_ok_iff.1 h
  exact ⟨fun w hw => (checkWeight_eq_ok_iff.1 hweight w hw).2,
    fun w hw => (checkWeight_eq_ok_iff.1 hcap w hw).2⟩

/-- Settings are read as they were written exactly if their weights are finite. -/
theorem decode_toJson_eq_iff (h : s.IsStorable) (usualLimit : Nat) :
    decode usualLimit s.toJson = .ok s ↔ s.HasFiniteWeights := by
  rw [decode_toJson h, Except.ok.injEq, onlyFinite_eq_iff]

open Float.Model in
/-- What is finite is a number, and a number is equal to itself. -/
theorem beq_self_of_isFinite {w : Float} (h : w.isFinite = true) : (w == w) = true := by
  change w.toModel.unpack.isFinite = true at h
  change (w.toModel.unpack.compare w.toModel.unpack == some .eq) = true
  cases hunpacked : w.toModel.unpack with
  | infinity sign =>
    rw [hunpacked] at h
    cases h
  | notANumber =>
    rw [hunpacked] at h
    cases h
  | zero sign => cases sign <;> rfl
  | finite sign mantissa exponent _ =>
    have hself : (Ord.compare exponent exponent).then (Ord.compare mantissa mantissa) = .eq := by
      rw [Std.ReflOrd.compare_self, Std.ReflOrd.compare_self, Ordering.then_eq]
    cases sign with
    | negative =>
      change (some ((Ord.compare exponent exponent).then (Ord.compare mantissa mantissa)).swap ==
        some Ordering.eq) = true
      rw [hself]
      rfl
    | positive =>
      change (some ((Ord.compare exponent exponent).then (Ord.compare mantissa mantissa)) ==
        some Ordering.eq) = true
      rw [hself]
      rfl

theorem HasFiniteWeights.beq_self (h : s.HasFiniteWeights) : (s == s) = true := by
  have hweight (w : Option Float) (hw : ∀ given ∈ w, given.isFinite = true) : (w == w) = true := by
    cases w with
    | none => rfl
    | some given => exact beq_self_of_isFinite (hw given rfl)
  obtain ⟨limit, tasks, weight, cap, mode, accumulation, signaling⟩ := s
  show (limit == limit && (tasks == tasks && (weight == weight && (cap == cap &&
    (mode == mode && (accumulation == accumulation && signaling == signaling)))))) = true
  simp [hweight weight h.1, hweight cap h.2]

end Weights

/-- Writing and reading settings go together. Valid settings are read as they were written, all nine
of them, and so are valid settings that came from a payload, whatever is usual where they are read
again. A payload may lack any fields, and may have any that nobody knows. Among all settings it is
those with finite weights that are read as they were written. -/
theorem reads_back {usualLimit : Nat} (husual : usualLimit < UInt64.size) :
    (∀ s : Settings Float, s.IsStorable → s.validate = .ok () →
      ∀ limit, decode limit s.toJson = .ok s ∧ (s == s) = true) ∧
    (∀ payload s, decode usualLimit payload = .ok s → s.validate = .ok () →
      ∀ limit, decode limit s.toJson = .ok s ∧ (s == s) = true) ∧
    (∀ given s, decode usualLimit (.object given) = .ok s → ∀ given', given'.Sublist given →
      ∃ s', decode usualLimit (.object given') = .ok s') ∧
    (∀ given, decode usualLimit (.object (given.filter fun e => (shape usualLimit).knows e.1)) =
      decode usualLimit (.object given)) ∧
    ∀ s : Settings Float, s.IsStorable →
      ∀ limit, decode limit s.toJson = .ok s ↔ s.HasFiniteWeights := by
  have hvalid (s : Settings Float) (hstorable : s.IsStorable) (h : s.validate = .ok ())
      (limit : Nat) : decode limit s.toJson = .ok s ∧ (s == s) = true :=
    have hfinite := hasFiniteWeights_of_validate h
    ⟨(decode_toJson_eq_iff hstorable limit).2 hfinite, hfinite.beq_self⟩
  refine ⟨hvalid, fun payload s hread => hvalid s (isStorable_of_decode husual hread), ?_,
    RecordShape.decode_filter_knows, fun s hstorable => decode_toJson_eq_iff hstorable⟩
  intro given s hread given' hsub
  exact isSteady.decode_sublist required_eq_false hsub hread

/-- Settings with the greatest limit, and with weights that no decimal fraction is exactly. -/
def ample : Settings Float :=
  ⟨UInt64.size - 1, none, some 0.1, some 0.3, .threads, .inWorker, ⟨"signals", "run", some 1⟩⟩

/-- Settings with a cap that caps nothing. -/
def endless : Settings Float := { ample with weightCap := some (1.0 / 0.0) }

/-- A payload in which most fields are missing, and one is of no use. -/
def sparse : List (String × Json) :=
  [("accumulation", .text "in_worker"), ("colour", .null), ("max_block_weight", .int 3),
    ("signaling", .object [("signal_timeout_ms", .int 500)])]

theorem reads_back_ample :
    ample.IsStorable ∧ ample.validate = .ok () ∧ decode 1 ample.toJson = .ok ample ∧
      (∃ s, decode 4 (.object sparse) = .ok s ∧ s.limit = 4 ∧ s.accumulation = .inWorker ∧
        s.signaling.timeout = some 500 ∧ s.validate = .ok () ∧ decode 1 s.toJson = .ok s) ∧
      (∃ s, decode 4 (.object (sparse.drop 1)) = .ok s) ∧
      decode 4 (.object (sparse.eraseIdx 1)) = decode 4 (.object sparse) ∧
      decode 1 endless.toJson ≠ .ok endless := by
  obtain ⟨hvalid, hread, hsub, hknown, hfinite⟩ := reads_back (show 4 < UInt64.size by decide)
  have htimeout : FitsIfSet (some 1) := by simp [FitsIfSet]
  have hample : ample.IsStorable := ⟨by decide, nofun, htimeout⟩
  have hlimit : ample.limit ≠ 0 := by simp [ample]
  have hok : ample.validate = .ok () :=
    validate_eq_ok_iff.2 ⟨hlimit, nofun, rfl, rfl, rfl⟩
  refine ⟨hample, hok, (hvalid _ hample hok 1).1, ⟨_, rfl, rfl, rfl, rfl, rfl, ?_⟩,
    hsub sparse _ rfl _ (List.drop_sublist 1 _), hknown sparse, ?_⟩
  · exact (hread (.object sparse) _ rfl rfl 1).1
  · intro hsame
    have hcap := ((hfinite endless ⟨hample.limit_lt, nofun, htimeout⟩ 1).1 hsame).2
    exact absurd (hcap _ rfl) (by decide)

end Settings

end BatchRun
