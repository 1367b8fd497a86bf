import BatchRun.Proofs.SortedMap
import BatchRun.Signal.Message

/-!
# Signals survive being sent

A signal that is written as JSON is read back as it was, with its further data, as long as its
numbers fit into 64 bits and its time can be read back. Its fields are looked at in the order of
their names, which is not the order in which they were written.

## Main results

* `Signal.decode_toJson`: what is read is what was written
-/

namespace BatchRun

open Json

namespace Json

/-- A whole number that fits is read back. -/
theorem whole64_natCast (expected : String) {n : Nat} (h : n < UInt64.size) :
    whole64 expected (.int n) = .ok n := by
  rw [whole64, if_pos (by omega), Int.toNat_natCast]

/-- A field of an object is stored, and the rest of the object comes after it. -/
theorem RecordShape.storeFields_cons {ρ : Type} {shape : RecordShape ρ} {name : String}
    {value : Json} {field : FieldShape ρ} {r r' : ρ} (rest : List (String × Json))
    (hfield : shape.field? name = some field) (hstore : field.store value r = .ok r') :
    shape.storeFields ((name, value) :: rest) r = shape.storeFields rest r' := by
  simp only [storeFields, hfield, hstore]

/-- A value that can be decoded is stored. -/
theorem FieldShape.store_of {ρ τ : Type} {name : String} {required : Bool} {decode : Decoder τ}
    {set : τ → ρ → ρ} {value : Json} {a : τ} (r : ρ) (h : decode value = .ok a) :
    (FieldShape.of name required decode set).store value r = .ok (set a r) := by
  simp only [FieldShape.of, h]
  rfl

end Json

namespace Signal

/-- The fields of a signal in the order of their names, between which its further data comes if
it has any. -/
theorem toJson_eq (s : Signal) :
    s.toJson = .object ([("amount", .int s.amount), ("failed", .bool s.failed)] ++
      (if s.metadata.isEmpty then [] else [("metadata", .object s.metadata.entries)]) ++
      [("run_id", .text s.runId.text), ("sent_at", .text s.sentAt.text),
        ("task_no", .int s.taskNo)]) := by
  cases hempty : s.metadata.isEmpty with
  | true =>
    rw [toJson, hempty]
    generalize Json.text s.runId.text = run, Json.int s.taskNo = no, Json.int s.amount = amount,
      Json.bool s.failed = failed, Json.text s.sentAt.text = sent
    cbv
  | false =>
    rw [toJson, hempty]
    generalize Json.text s.runId.text = run, Json.int s.taskNo = no, Json.int s.amount = amount,
      Json.bool s.failed = failed, Json.text s.sentAt.text = sent,
      Json.object s.metadata.entries = metadata
    cbv

open RecordShape FieldShape in
/-- The fields of a signal are stored one by one. -/
theorem storeFields_toJson {s : Signal} (hno : s.taskNo < UInt64.size)
    (hamount : s.amount < UInt64.size)
    (hsent : Instant.read s.sentAt.text = .ok s.sentAt) :
    shape.storeFields ([("amount", .int s.amount), ("failed", .bool s.failed)] ++
      (if s.metadata.isEmpty then [] else [("metadata", .object s.metadata.entries)]) ++
      [("run_id", .text s.runId.text), ("sent_at", .text s.sentAt.text),
        ("task_no", .int s.taskNo)]) shape.blank = .ok s := by
  have hrun : string (.text s.runId.text) = .ok s.runId.text := rfl
  have hfailed : boolean (.bool s.failed) = .ok s.failed := rfl
  have hmetadata : fields (.object s.metadata.entries) = .ok s.metadata.entries := rfl
  have hinstant : instant (.text s.sentAt.text) = .ok s.sentAt := by rw [instant, hsent]
  -- the fields behind the further data are stored in the same way whether there is any or not
  have hlast : shape.storeFields [("run_id", .text s.runId.text),
      ("sent_at", .text s.sentAt.text), ("task_no", .int s.taskNo)]
        { s with runId := ⟨""⟩, taskNo := 0, sentAt := .epoch } = .ok s := by
    rw [storeFields_cons _ rfl (store_of _ hrun), storeFields_cons _ rfl (store_of _ hinstant),
      storeFields_cons _ rfl (store_of _ (whole64_natCast _ hno))]
    rfl
  simp only [List.cons_append, List.nil_append]
  rw [storeFields_cons _ rfl (store_of _ (whole64_natCast _ hamount)),
    storeFields_cons _ rfl (store_of _ hfailed)]
  cases hempty : s.metadata.isEmpty with
  | true =>
    have hnone : s.metadata = .empty := SortedMap.ext (SortedMap.isEmpty_iff.1 hempty)
    refine Eq.trans ?_ hlast
    rw [hnone]
    rfl
  | false =>
    refine Eq.trans ?_ hlast
    apply (storeFields_cons _ rfl (store_of _ hmetadata)).trans
    rw [SortedMap.ofList_entries]
    rfl

/-- What is read is what was written. -/
theorem decode_toJson {s : Signal} (hno : s.taskNo < UInt64.size)
    (hamount : s.amount < UInt64.size) (hsent : Instant.read s.sentAt.text = .ok s.sentAt) :
    decode s.toJson = .ok s := by
  have hmissing : shape.missing? ([("amount", .int s.amount), ("failed", .bool s.failed)] ++
      (if s.metadata.isEmpty then [] else [("metadata", .object s.metadata.entries)]) ++
      [("run_id", .text s.runId.text), ("sent_at", .text s.sentAt.text),
        ("task_no", .int s.taskNo)]) = none := by
    cases s.metadata.isEmpty <;> rfl
  rw [toJson_eq, decode, RecordShape.decode, storeFields_toJson hno hamount hsent]
  simp only [hmissing]

end Signal

end BatchRun
