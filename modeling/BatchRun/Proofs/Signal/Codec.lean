import BatchRun.Proofs.Signal.Message
import BatchRun.Proofs.Time.Reading

/-!
# The codec of signals

Signals and payloads are not in step: a payload may lack what has a default, bear fields that
nobody knows, tell a time by any offset, and be a list. What a payload can do without, and what it
cannot, is settled by the shape of a record; whatever comes through is a signal that can be sent,
and sending it again tells the same. So the payloads that are accepted fall into classes, one for
each signal that can be sent, and in each class is exactly one payload that is written.

## Main definitions

* `Signal.IsSendable`: the numbers of a signal fit, and its time can be read back
* `Signal.IsDeficient`: an object lacks what a signal must have, or counts with what is no count

## Main results

* `Signal.same_toJson`: signals are the same exactly if their payloads are
* `Signal.isSendable_of_decode`: whatever is accepted can be sent
* `Signal.exists_error_of_isDeficient`: what is deficient is refused
* `Signal.codec`: writing and reading as a whole
-/

namespace BatchRun

open Json

namespace Json

section Shapes

variable {ρ : Type} {shape : RecordShape ρ} {P : ρ → Prop} {name : String} {value payload : Json}
  {field : FieldShape ρ} {given : List (String × Json)} {r r' : ρ}

/-- Whatever is stored into a field of a record, the record keeps a property. -/
def RecordShape.Keeps (shape : RecordShape ρ) (P : ρ → Prop) : Prop :=
  ∀ field ∈ shape.fields, ∀ value r r', P r → field.store value r = .ok r' → P r'

/-- A value that was stored has been decoded. -/
theorem FieldShape.exists_of_store {τ : Type} {required : Bool} {decode : Decoder τ}
    {set : τ → ρ → ρ} (h : (FieldShape.of name required decode set).store value r = .ok r') :
    ∃ a, decode value = .ok a ∧ r' = set a r := by
  simp only [FieldShape.of] at h
  cases hdecode : decode value with
  | ok a =>
    rw [hdecode] at h
    exact ⟨a, rfl, (Except.ok.inj h).symm⟩
  | error e =>
    rw [hdecode] at h
    cases h

/-- A value that cannot be decoded is not stored. -/
theorem FieldShape.exists_error_of_store {τ : Type} {required : Bool} {decode : Decoder τ}
    {set : τ → ρ → ρ} (r : ρ) (h : ∃ e, decode value = .error e) :
    ∃ e, (FieldShape.of name required decode set).store value r = .error e := by
  obtain ⟨e, he⟩ := h
  exact ⟨e, by simp only [FieldShape.of, he, Except.map]⟩

namespace RecordShape

theorem Keeps.storeFields (hkeeps : shape.Keeps P) (hr : P r)
    (h : shape.storeFields given r = .ok r') : P r' := by
  induction given generalizing r with
  | nil => exact Except.ok.inj h ▸ hr
  | cons entry rest ih =>
    simp only [RecordShape.storeFields] at h
    split at h
    · exact ih hr h
    · next field hfield =>
      split at h
      · next stored hstore =>
        exact ih (hkeeps field (List.mem_of_find?_eq_some hfield) _ _ _ hr hstore) h
      · cases h

theorem Keeps.storeItems (hkeeps : shape.Keeps P) {fields : List (FieldShape ρ)}
    (hfields : fields ⊆ shape.fields) {items : List Json} {position : Nat} (hr : P r)
    (h : shape.storeItems fields items position r = .ok r') : P r' := by
  induction fields generalizing items position r with
  | nil => exact Except.ok.inj h ▸ hr
  | cons field fields ih =>
    have hrest := List.subset_of_cons_subset hfields
    cases items with
    | nil =>
      simp only [RecordShape.storeItems] at h
      split at h
      · cases h
      · exact ih hrest hr h
    | cons item items =>
      simp only [RecordShape.storeItems] at h
      split at h
      · next stored hstore =>
        exact ih hrest (hkeeps field (hfields List.mem_cons_self) _ _ _ hr hstore) h
      · cases h

/-- A record has what is true of the blank one and kept by its fields. -/
theorem Keeps.decode (hkeeps : shape.Keeps P) (hblank : P shape.blank)
    (h : shape.decode payload = .ok r) : P r := by
  unfold RecordShape.decode at h
  split at h
  · split at h
    · cases h
    · next stored hstore =>
      split at h
      · cases h
      · exact Except.ok.inj h ▸ hkeeps.storeFields hblank hstore
  · split at h
    · cases h
    · next stored hstore =>
      split at h
      · cases h
      · exact Except.ok.inj h ▸ hkeeps.storeItems (List.Subset.refl _) hblank hstore
  · cases h

/-- An object with a value that its field always refuses is refused, maybe because of another one
that comes first. -/
theorem exists_error_of_store (hfield : shape.field? name = some field)
    (hrefuses : ∀ r, ∃ e, field.store value r = .error e) (hmem : (name, value) ∈ given) :
    ∃ e, shape.decode (.object given) = .error e := by
  have hstored : ∀ r, ∃ e, shape.storeFields given r = .error e := by
    induction given with
    | nil => cases hmem
    | cons entry rest ih =>
      intro r
      obtain ⟨name', value'⟩ := entry
      simp only [storeFields]
      rcases List.mem_cons.1 hmem with heq | hmem
      · obtain ⟨rfl, rfl⟩ := Prod.mk.inj heq
        obtain ⟨e, he⟩ := hrefuses r
        exact ⟨e, by simp only [hfield, he]⟩
      · split
        · exact ih hmem r
        · split
          · exact ih hmem _
          · exact ⟨_, rfl⟩
  obtain ⟨e, he⟩ := hstored shape.blank
  exact ⟨e, by simp only [decode, he]⟩

/-- An object without a field that must be there is refused, maybe because of one that is there. -/
theorem exists_error_of_missing (hfield : field ∈ shape.fields) (hrequired : field.required = true)
    (hmissing : field.name ∉ given.map Prod.fst) :
    ∃ e, shape.decode (.object given) = .error e := by
  have hlacks : shape.missing? given ≠ none := by
    have hany : given.any (·.1 == field.name) = false := by
      simp only [List.any_eq_false, beq_iff_eq]
      exact fun entry hentry heq => hmissing (List.mem_map.2 ⟨entry, hentry, heq⟩)
    simp only [missing?, ne_eq, Option.map_eq_none_iff, List.find?_eq_none, not_forall]
    exact ⟨field, hfield, by simp [hrequired, hany]⟩
  simp only [decode]
  split
  · exact ⟨_, rfl⟩
  · split
    · exact ⟨_, rfl⟩
    · next hnone => exact absurd hnone hlacks

end RecordShape

end Shapes

/-- A number that is no count of 64 bits. -/
inductive IsNoCount : Json → Prop
  | negative (n : Int) (h : n < 0) : IsNoCount (.int n)
  | tooLarge (n : Int) (h : UInt64.size ≤ n) : IsNoCount (.int n)
  /-- No number that is written with a fraction or an exponent is taken for a whole one. -/
  | fractional (x : Float) : IsNoCount (.real x)

theorem IsNoCount.exists_error {value : Json} (h : value.IsNoCount) (expected : String) :
    ∃ e, whole64 expected value = .error e := by
  cases h with
  | negative n h => exact ⟨_, if_neg (by omega)⟩
  | tooLarge n h => exact ⟨_, if_neg (by omega)⟩
  | fractional x => exact ⟨_, rfl⟩

theorem lt_of_whole64 {value : Json} {expected : String} {n : Nat}
    (h : whole64 expected value = .ok n) : n < UInt64.size := by
  unfold whole64 at h
  split at h
  · split at h
    · obtain rfl := Except.ok.inj h
      omega
    · cases h
  · cases h

end Json

namespace Signal

/-- The numbers of a signal fit into 64 bits, and its time is read back from its text. -/
structure IsSendable (s : Signal) : Prop where
  taskNo_lt : s.taskNo < UInt64.size
  amount_lt : s.amount < UInt64.size
  read_sentAt : Instant.read s.sentAt.text = .ok s.sentAt

section Writing

variable {s t : Signal}

/-- What can be sent is read as it was written. -/
theorem IsSendable.read (h : s.IsSendable) : decode s.toJson = .ok s :=
  decode_toJson h.taskNo_lt h.amount_lt h.read_sentAt

/-- Signals are the same exactly if their payloads are. -/
theorem same_toJson (hs : s.IsSendable) (ht : t.IsSendable) :
    s.toJson.same t.toJson = s.same t := by
  -- texts that are equal are read as one time
  have htext : s.sentAt.text = t.sentAt.text → s.sentAt = t.sentAt := fun h => by
    have hread := hs.read_sentAt
    rw [h, ht.read_sentAt] at hread
    exact (Except.ok.inj hread).symm
  have hsent : (s.sentAt.text == t.sentAt.text) = (s.sentAt == t.sentAt) :=
    beq_eq_beq.2 ⟨htext, congrArg _⟩
  have hrun : (s.runId.text == t.runId.text) = (s.runId == t.runId) :=
    beq_eq_beq.2 ⟨fun h => congrArg RunId.mk h, congrArg _⟩
  have hcast : ∀ m n : Nat, ((m : Int) == n) = (m == n) := fun m n =>
    beq_eq_beq.2 Int.natCast_inj
  rw [toJson_eq, toJson_eq, Signal.same]
  simp only [SortedMap.isEmpty]
  -- without further data, the fields behind it stand at its place, under other names
  have hcases : ∀ l : List (String × Json), l = [] ∨ ∃ entry rest, l = entry :: rest := fun l => by
    cases l <;> simp
  rcases hcases s.metadata.entries with hentries | ⟨_, _, hentries⟩ <;>
    rcases hcases t.metadata.entries with hentries' | ⟨_, _, hentries'⟩ <;>
    simp [hentries, hentries', Json.same, Json.sameFields, hsent, hrun, hcast, Bool.and_comm,
      Bool.and_left_comm, Bool.and_assoc]

/-- A notice of a failure is read as one: no units, and the text of the error. -/
theorem decode_failure {run : RunId} {taskNo : Nat} {error : String} {sentAt : Instant}
    (h : (failure run taskNo error sentAt).IsSendable) :
    ∃ s, decode (failure run taskNo error sentAt).toJson = .ok s ∧ s.amount = 0 ∧
      s.failed = true ∧ s.errorMessage = some error := by
  refine ⟨_, h.read, by rfl, by rfl, ?_⟩
  simp only [errorMessage, failure, withMetadata, SortedMap.get?_insert_self]
  rfl

end Writing

section Reading

/-- The first second of 1970 is an instant that can be read back. -/
theorem isSendable_blank : shape.blank.IsSendable where
  taskNo_lt := by decide
  amount_lt := by decide
  read_sentAt := Instant.read_text (Instant.isShown_ofMilliseconds (Nat.zero_le _)).isDated

theorem read_of_instant {value : Json} {t : Instant} (h : instant value = .ok t) :
    Instant.read t.text = .ok t := by
  unfold instant at h
  split at h
  · next text =>
    split at h
    · next found hread =>
      obtain rfl := Except.ok.inj h
      exact Instant.read_text (Instant.isDated_of_read hread)
    · cases h
  · cases h

/-- No field of a signal lets anything in that cannot be sent. -/
theorem keeps_isSendable : shape.Keeps IsSendable := by
  simp only [RecordShape.Keeps, shape, List.forall_mem_cons]
  refine ⟨?_, ?_, ?_, ?_, ?_, ?_, fun _ hfield => (List.not_mem_nil hfield).elim⟩
  all_goals
    intro value s s' hs hstore
    obtain ⟨a, hdecode, rfl⟩ := FieldShape.exists_of_store hstore
  · exact ⟨hs.taskNo_lt, hs.amount_lt, hs.read_sentAt⟩
  · exact ⟨lt_of_whole64 hdecode, hs.amount_lt, hs.read_sentAt⟩
  · exact ⟨hs.taskNo_lt, lt_of_whole64 hdecode, hs.read_sentAt⟩
  · exact ⟨hs.taskNo_lt, hs.amount_lt, hs.read_sentAt⟩
  · exact ⟨hs.taskNo_lt, hs.amount_lt, read_of_instant hdecode⟩
  · exact ⟨hs.taskNo_lt, hs.amount_lt, hs.read_sentAt⟩

variable {payload : Json} {s : Signal}

/-- Whatever is accepted can be sent. -/
theorem isSendable_of_decode (h : decode payload = .ok s) : s.IsSendable := by
  unfold decode at h
  split at h
  · next found hdecode =>
    obtain rfl := Except.ok.inj h
    exact keeps_isSendable.decode isSendable_blank hdecode
  · cases h

/-- An object lacks what a signal must have, or counts with what is no count. -/
inductive IsDeficient (given : List (String × Json)) : Prop
  | lacks (name : String) (hname : name ∈ ["run_id", "task_no", "amount", "sent_at"])
      (hmissing : name ∉ given.map Prod.fst) : IsDeficient given
  | miscounts (name : String) (hname : name ∈ ["task_no", "amount"]) (value : Json)
      (hmem : (name, value) ∈ given) (hvalue : value.IsNoCount) : IsDeficient given

/-- What is deficient is refused as no signal. -/
theorem exists_error_of_isDeficient {given : List (String × Json)} (h : IsDeficient given) :
    ∃ e, decode (.object given) = .error (.malformedSignal e) := by
  have hrefused : ∃ e, shape.decode (.object given) = .error e := by
    cases h with
    | lacks name hname hmissing =>
      obtain ⟨field, hfield, hrequired, rfl⟩ :
          ∃ field ∈ shape.fields, field.required = true ∧ field.name = name := by
        simp only [List.mem_cons, List.not_mem_nil, or_false] at hname
        rcases hname with rfl | rfl | rfl | rfl <;> simp [shape, FieldShape.of]
      exact RecordShape.exists_error_of_missing hfield hrequired hmissing
    | miscounts name hname value hmem hvalue =>
      obtain ⟨field, hfield, hrefuses⟩ : ∃ field, shape.field? name = some field ∧
          ∀ s, ∃ e, field.store value s = .error e := by
        simp only [List.mem_cons, List.not_mem_nil, or_false] at hname
        rcases hname with rfl | rfl <;>
          exact ⟨_, rfl, fun s => FieldShape.exists_error_of_store s (hvalue.exists_error _)⟩
      exact RecordShape.exists_error_of_store hfield hrefuses hmem
  obtain ⟨e, he⟩ := hrefused
  exact ⟨e, by rw [decode, he]⟩

end Reading

/-- Writing and reading signals go together. Every signal that can be sent is read as it was
written, so that different signals are written differently, and a notice of a failure says so. Every
payload that is accepted tells of a signal that can be sent, and is written anew without any change
of what it tells. What lacks a field or miscounts is refused as no signal. -/
theorem codec :
    (∀ s : Signal, s.IsSendable → decode s.toJson = .ok s) ∧
      (∀ s t : Signal, s.IsSendable → t.IsSendable → s.toJson.same t.toJson = s.same t) ∧
      (∀ run taskNo error sentAt, (failure run taskNo error sentAt).IsSendable →
        ∃ s, decode (failure run taskNo error sentAt).toJson = .ok s ∧ s.amount = 0 ∧
          s.failed = true ∧ s.errorMessage = some error) ∧
      (∀ payload s, decode payload = .ok s → s.IsSendable ∧ decode s.toJson = .ok s) ∧
      ∀ given, IsDeficient given → ∃ e, decode (.object given) = .error (.malformedSignal e) :=
  ⟨fun _ h => h.read, fun _ _ => same_toJson, fun _ _ _ _ => decode_failure,
    fun _ _ h => ⟨isSendable_of_decode h, (isSendable_of_decode h).read⟩,
    fun _ => exists_error_of_isDeficient⟩

/-- A signal whose numbers are as large as can be, with further data under names of fields. -/
def extreme : Signal :=
  ((completed ⟨"5"⟩ (UInt64.size - 1) (UInt64.size - 1) .epoch).withMetadata "run_id"
    .null).withMetadata "" (.list [.object [("amount", .int (-1))]])

/-- A payload with a field that nobody knows, and a leap second on a clock half an hour ahead. -/
def foreign : Json :=
  .object [("amount", .int 1), ("more", .null), ("run_id", .text "5"),
    ("sent_at", .text "2017-01-01 00:29:60+00:30"), ("task_no", .int 0)]

theorem codec_extreme :
    extreme.IsSendable ∧ decode extreme.toJson = .ok extreme ∧
      extreme.toJson.same { extreme with failed := true }.toJson = false ∧
      (∃ s, decode (failure ⟨"5"⟩ 7 "broken" .epoch).toJson = .ok s ∧ s.amount = 0 ∧
        s.failed = true ∧ s.errorMessage = some "broken") ∧
      (∃ s, decode foreign = .ok s ∧ s.IsSendable ∧ decode s.toJson = .ok s) ∧
      ∃ e, decode (.object [("task_no", .int (-1))]) = .error (.malformedSignal e) := by
  have hepoch := isSendable_blank.read_sentAt
  have hextreme : extreme.IsSendable := ⟨by decide, by decide, hepoch⟩
  obtain ⟨hread, hsame, hfailure, hagain, hdeficient⟩ := codec
  refine ⟨hextreme, hread _ hextreme, ?_, hfailure _ _ _ _ ⟨by decide, by decide, hepoch⟩,
    ⟨_, rfl, hagain foreign _ rfl⟩,
    hdeficient _ (.miscounts "task_no" (by decide) _ List.mem_cons_self (.negative _ (by decide)))⟩
  exact (hsame extreme { extreme with failed := true } hextreme
    ⟨hextreme.taskNo_lt, hextreme.amount_lt, hepoch⟩).trans rfl

end Signal

end BatchRun
