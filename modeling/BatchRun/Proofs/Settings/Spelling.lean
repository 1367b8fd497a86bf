import BatchRun.Proofs.Number.Digits
import BatchRun.Settings.Fitting

/-!
# What becomes of the text of a variable

The text of a variable is guessed at before it is known what it is for: it may be a truth value, a
whole number or a decimal number. Where a text is wanted after all, the value is written again, in
the one way in which such a value is written. So a setting does not have the text that was given,
but the canonical text of what that text was taken for. The two are equal for a text that is taken
for nothing else, for a truth value in lower case, and for a whole number without a plus sign,
needless zeros and a sign of zero; a decimal number has to be given in its shortest form.

## Main definitions

* `IsWord`: texts that are not empty and hold no blanks
* `canonicalText`: what a variable with a text sets a text to
* `IsVerbatim`: texts that are set as they are given

## Main results

* `canonicalText_eq_self_iff`: the canonical text of a text is the text itself
* `isWord_canonicalText`: words stay words
* `isVerbatim_of_start`: names are set as they are given
-/

namespace BatchRun.Settings

open BatchRun.Number
open BatchRun.Text (isBlank)
open BatchRun.Toml (Value)

/-- A text that is not empty and holds no blanks. -/
structure IsWord (s : String) : Prop where
  nonempty : s ≠ ""
  unbroken : ∀ c ∈ s.toList, isBlank c = false

theorem isBlank_eq_false_of_mem {cs : List Char} {c : Char} (h : cs.all (!isBlank ·) = true)
    (hc : c ∈ cs) : isBlank c = false := by
  simpa using List.all_eq_true.1 h c hc

instance (s : String) : Decidable (IsWord s) :=
  decidable_of_iff (s ≠ "" ∧ s.toList.all (!isBlank ·) = true)
    ⟨fun h => ⟨h.1, fun _ => isBlank_eq_false_of_mem h.2⟩,
      fun h => ⟨h.nonempty, List.all_eq_true.2 fun c hc => by rw [h.unbroken c hc]; rfl⟩⟩

/-- The text of what a text is taken for: a truth value, a whole number, a decimal number, or else
itself. -/
def canonicalText (s : String) : String :=
  match variableValue s with
  | .bool b => if b then "true" else "false"
  | .int n => toString n
  | .real x => float64Text .plain x
  | _ => s

/-- A whole number without a plus sign, needless zeros and a sign of zero. -/
def IsPlainWhole (cs : List Char) : Prop :=
  IsCanonical cs ∨ ∃ digits, cs = '-' :: digits ∧ IsCanonical digits ∧ digits ≠ ['0']

/-- A text that is set as it is given, after what it is taken for. -/
def IsVerbatim (s : String) : Prop :=
  match variableValue s with
  | .bool _ => s = "true" ∨ s = "false"
  | .int _ => IsPlainWhole s.toList
  | .real x => float64Text .plain x = s
  | _ => True

section Guess

/-- A variable has a truth value, a number or a text. -/
theorem variableValue_cases (s : String) :
    (∃ b, variableValue s = .bool b ∧ Text.lowercase s = if b then "true" else "false") ∨
      (∃ n, variableValue s = .int n ∧ wholeNumber? int64Least int64Greatest s = some n) ∨
      (∃ x, variableValue s = .real x) ∨ variableValue s = .text s := by
  simp only [variableValue]
  split
  · next h => exact .inl ⟨true, rfl, beq_iff_eq.1 h⟩
  · split
    · next h => exact .inl ⟨false, rfl, beq_iff_eq.1 h⟩
    · split
      · next n h => exact .inr (.inl ⟨n, rfl, h⟩)
      · split
        · next x h => exact .inr (.inr (.inl ⟨x, rfl⟩))
        · exact .inr (.inr (.inr rfl))

/-- A text is set to the canonical text of what it was given. -/
theorem fitText_variableValue (s : String) :
    fitText (variableValue s) = some (canonicalText s) := by
  rw [canonicalText]
  rcases variableValue_cases s with ⟨b, h, -⟩ | ⟨n, h, -⟩ | ⟨x, h⟩ | h <;> rw [h] <;> rfl

end Guess

section Whole

theorem toList_toString_natCast (n : Nat) : (toString (n : Int)).toList = Nat.toDigits 10 n :=
  Nat.toList_repr

theorem toList_toString_neg (n : Nat) :
    (toString (Int.negSucc n)).toList = '-' :: Nat.toDigits 10 (n + 1) := by
  have htext : toString (Int.negSucc n) = "-" ++ Nat.repr (n + 1) := rfl
  rw [htext, String.toList_append, Nat.toList_repr]
  rfl

/-- Whole numbers are written plainly. -/
theorem isPlainWhole_toString (n : Int) : IsPlainWhole (toString n).toList := by
  cases n with
  | ofNat n =>
    rw [Int.ofNat_eq_natCast, toList_toString_natCast]
    exact .inl (isCanonical_toDigits n)
  | negSucc n =>
    rw [toList_toString_neg]
    refine .inr ⟨_, rfl, isCanonical_toDigits _, fun h => ?_⟩
    have hvalue := digitsValue_toDigits (n + 1)
    rw [h] at hvalue
    cases hvalue

theorem natural?_eq_some {cs : List Char} (h : IsCanonical cs) :
    natural? cs = some (digitsValue cs) := by
  have hdigits : cs.all isDigit = true := List.all_eq_true.2 h.digits
  rw [natural?, if_neg (by simp [h.nonempty, hdigits])]

/-- Only zero is written as one. -/
theorem digitsValue_ne_zero {cs : List Char} (h : IsCanonical cs) (hne : cs ≠ ['0']) :
    digitsValue cs ≠ 0 := fun hzero => by
  have hwritten := toDigits_digitsValue h
  rw [hzero] at hwritten
  exact hne hwritten.symm

/-- A whole number is read back as the text it is written with, if that is plain. -/
theorem toString_eq_of_wholeNumber? {least greatest n : Int} {s : String}
    (hread : wholeNumber? least greatest s = some n) (hplain : IsPlainWhole s.toList) :
    toString n = s := by
  rw [← String.toList_inj]
  rcases hplain with hdigits | ⟨digits, hs, hdigits, hne⟩
  · obtain ⟨c, cs, hcs⟩ := List.exists_cons_of_ne_nil hdigits.nonempty
    have hc : isDigit c = true := hdigits.digits c (hcs ▸ List.mem_cons_self)
    have hsign : splitSign s.toList = (false, s.toList) := by
      rw [hcs]
      unfold splitSign
      split
      · next heq => rw [(List.cons.inj heq).1] at hc; cases hc
      · next heq => rw [(List.cons.inj heq).1] at hc; cases hc
      · rfl
    simp only [wholeNumber?, hsign, Bool.false_and, Bool.false_eq_true, if_false,
      natural?_eq_some hdigits, Option.bind_some] at hread
    split at hread
    · obtain rfl := Option.some.inj hread
      rw [toList_toString_natCast, toDigits_digitsValue hdigits]
    · cases hread
  · obtain ⟨m, hm⟩ := Nat.exists_eq_succ_of_ne_zero (digitsValue_ne_zero hdigits hne)
    simp only [wholeNumber?, hs, splitSign, natural?_eq_some hdigits, Option.bind_some,
      if_true] at hread
    split at hread
    · cases hread
    · split at hread
      · obtain rfl := Option.some.inj hread
        have hneg : -(digitsValue digits : Int) = Int.negSucc m := by rw [hm]; rfl
        rw [hneg, toList_toString_neg, hs, ← Nat.succ_eq_add_one, ← hm,
          toDigits_digitsValue hdigits]
      · cases hread

end Whole

section Words

theorem isWord_toString (n : Int) : IsWord (toString n) where
  nonempty heq := by
    rcases isPlainWhole_toString n with h | ⟨digits, h, -⟩
    · exact h.nonempty (by rw [heq]; rfl)
    · rw [heq] at h
      cases h
  unbroken c hc := by
    rcases isPlainWhole_toString n with h | ⟨digits, h, hdigits, -⟩
    · exact not_isBlank_of_isDigit (h.digits c hc)
    · rw [h] at hc
      rcases List.mem_cons.1 hc with rfl | hc
      · rfl
      · exact not_isBlank_of_isDigit (hdigits.digits c hc)

/-- The shortest digits of a number are digits. -/
theorem isDigit_of_mem_ofGridPoint {point : Nat} {place : Int} {c : Char}
    (h : c ∈ (Digits.ofGridPoint point place).digits) : isDigit c = true := by
  simp only [Digits.ofGridPoint, List.mem_reverse] at h
  exact isDigit_of_mem_toDigits (List.mem_reverse.1 ((List.dropWhile_sublist _).subset h))

theorem plain_writePositional (d : Digits) : Layout.plain.writePositional d =
    if d.point ≤ 0 then
      "0." ++ String.ofList (List.replicate (-d.point).toNat '0') ++ String.ofList d.digits
    else if d.point < d.digits.length then
      String.ofList (d.digits.take d.point.toNat) ++ "." ++
        String.ofList (d.digits.drop d.point.toNat)
    else String.ofList d.digits ++
      String.ofList (List.replicate (d.point.toNat - d.digits.length) '0') ++ "" :=
  rfl

theorem isWord_writePositional {d : Digits} (h : ∀ c ∈ d.digits, isDigit c = true) :
    IsWord (Layout.plain.writePositional d) := by
  have hdigits : ∀ c ∈ d.digits, isBlank c = false := fun c hc => not_isBlank_of_isDigit (h c hc)
  have hzeros : ∀ n, ∀ c ∈ List.replicate n '0', isBlank c = false := fun n c hc => by
    rw [List.eq_of_mem_replicate hc]
    rfl
  rw [plain_writePositional]
  split_ifs with hpoint hamong
  · refine ⟨fun heq => ?_, fun c hc => ?_⟩
    · simpa using congrArg String.toList heq
    · simp only [String.toList_append, String.toList_ofList, List.mem_append] at hc
      rcases hc with (hc | hc) | hc
      · exact isBlank_eq_false_of_mem (by decide) hc
      · exact hzeros _ c hc
      · exact hdigits c hc
  · refine ⟨fun heq => ?_, fun c hc => ?_⟩
    · simpa using congrArg String.toList heq
    · simp only [String.toList_append, String.toList_ofList, List.mem_append] at hc
      rcases hc with (hc | hc) | hc
      · exact hdigits c (List.mem_of_mem_take hc)
      · exact isBlank_eq_false_of_mem (by decide) hc
      · exact hdigits c (List.mem_of_mem_drop hc)
  · refine ⟨fun heq => ?_, fun c hc => ?_⟩
    -- where there are no digits there are zeros
    · have hlength := congrArg (·.toList.length) heq
      simp only [String.toList_append, String.toList_ofList, String.toList_empty,
        List.length_append, List.length_replicate, List.length_nil] at hlength
      omega
    · simp only [String.toList_append, String.toList_ofList, String.toList_empty, List.append_nil,
        List.mem_append] at hc
      rcases hc with hc | hc
      · exact hdigits c hc
      · exact hzeros _ c hc

/-- A minus sign in front of a word makes a word. -/
theorem IsWord.signed {s : String} (h : IsWord s) (negative : Bool) :
    IsWord ((if negative then "-" else "") ++ s) := by
  cases negative with
  | false => rwa [if_neg Bool.false_ne_true, String.empty_append]
  | true =>
    refine ⟨fun heq => ?_, fun c hc => ?_⟩
    · simpa using congrArg String.toList heq
    · rw [if_pos rfl, String.toList_append, List.mem_append] at hc
      rcases hc with hc | hc
      · exact isBlank_eq_false_of_mem (by decide) hc
      · exact h.unbroken c hc

theorem isWord_plain_write (f : BinaryFormat) (number : Decoded) :
    IsWord (Layout.plain.write f number) := by
  cases number with
  | nan => exact (by decide : IsWord "NaN")
  | infinite negative =>
    cases negative with
    | false => exact (by decide : IsWord "inf")
    | true => exact (by decide : IsWord "-inf")
  | finite negative significand exponent =>
    simp only [Layout.write]
    split
    · have hzero : IsWord ("0" ++ Layout.plain.wholeEnding) := by decide
      rw [String.append_assoc]
      exact hzero.signed negative
    · exact (isWord_writePositional fun c => isDigit_of_mem_ofGridPoint).signed negative

/-- Words stay words. -/
theorem isWord_canonicalText {s : String} (hs : IsWord s) : IsWord (canonicalText s) := by
  rw [canonicalText]
  rcases variableValue_cases s with ⟨b, h, -⟩ | ⟨n, h, -⟩ | ⟨x, h⟩ | h <;> simp only [h]
  · cases b <;> decide
  · exact isWord_toString n
  · exact isWord_plain_write _ _
  · exact hs

end Words

/-- A text is set as it is given exactly if it is verbatim. -/
theorem canonicalText_eq_self_iff (s : String) : canonicalText s = s ↔ IsVerbatim s := by
  rw [canonicalText, IsVerbatim]
  rcases variableValue_cases s with ⟨b, h, hlower⟩ | ⟨n, h, hread⟩ | ⟨x, h⟩ | h
  · have htrue : Text.lowercase "true" = "true" := by decide +kernel
    have hfalse : Text.lowercase "false" = "false" := by decide +kernel
    simp only [h]
    cases b with
    | true =>
      refine ⟨fun heq => .inl heq.symm, fun hs => hs.elim Eq.symm fun heq => ?_⟩
      rw [heq, hfalse] at hlower
      exact absurd hlower (by decide)
    | false =>
      refine ⟨fun heq => .inr heq.symm, fun hs => hs.elim (fun heq => ?_) Eq.symm⟩
      rw [heq, htrue] at hlower
      exact absurd hlower (by decide)
  · simp only [h]
    exact ⟨fun heq => heq ▸ isPlainWhole_toString n, toString_eq_of_wholeNumber? hread⟩
  · simp only [h]
  · simp only [h]

/-- A name is set as it is given: it starts with something else than a number does, and is not one
of the words for truth values and for what is no finite number. -/
theorem isVerbatim_of_start {s : String} {c : Char} {cs : List Char} (hs : s.toList = c :: cs)
    (hdigit : isDigit c = false) (hsign : c ≠ '+' ∧ c ≠ '-' ∧ c ≠ '.')
    (htruth : Text.lowercase s ∉ ["true", "false"])
    (hnumber : String.ofList (s.toList.map Char.toLower) ∉ ["inf", "infinity", "nan"]) :
    IsVerbatim s := by
  obtain ⟨hplus, hminus, hpoint⟩ := hsign
  simp only [List.mem_cons, List.not_mem_nil, or_false, not_or] at htruth hnumber
  have hsplit : splitSign s.toList = (false, s.toList) := by
    rw [hs]
    unfold splitSign
    split
    · next heq => exact absurd (List.cons.inj heq).1 hminus
    · next heq => exact absurd (List.cons.inj heq).1 hplus
    · rfl
  have hnatural : natural? s.toList = none := by simp [natural?, hs, hdigit]
  have hwhole : wholeNumber? int64Least int64Greatest s = none := by
    simp [wholeNumber?, hsplit, hnatural]
  have hmagnitude : decimalMagnitude? s.toList = none := by
    simp only [decimalMagnitude?, hs, List.takeWhile_cons, List.dropWhile_cons, hdigit,
      Bool.false_eq_true, if_false]
    refine if_pos ?_
    split
    · next heq => exact absurd (List.cons.inj heq).1 hpoint
    · rfl
  have hdecimal : decimal? s = none := by
    simp [decimal?, hsplit, hnumber, hmagnitude]
  have hvalue : variableValue s = .text s := by
    simp [variableValue, htruth, hwhole, hdecimal]
  rw [IsVerbatim, hvalue]
  trivial

end BatchRun.Settings
