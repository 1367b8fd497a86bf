import Mathlib.Data.List.Induction
import Mathlib.Data.Nat.Digits.Defs
import BatchRun.Number.Reading
import BatchRun.Text.Blank

/-!
# Rows of digits and the numbers that they stand for

A number has one row of digits that does not start with a needless zero, and that is the row it is
written with. Any other row of its digits is that one behind zeros.

## Main definitions

* `IsCanonical`: a row of digits that starts with no needless zero

## Main results

* `digitsValue_lt`: a number is bounded by how many digits it has
* `toDigits_digitsValue`: a canonical row of digits is written as it was read
* `isCanonical_toDigits`: numbers are written in canonical rows
-/

namespace BatchRun.Number

/-- A character is a digit exactly if its code is that of one. -/
theorem isDigit_iff {c : Char} : isDigit c = true ↔ 48 ≤ c.toNat ∧ c.toNat ≤ 57 := by
  simp only [isDigit, Bool.and_eq_true, decide_eq_true_eq, Char.le_def, UInt32.le_iff_toNat_le]
  exact Iff.rfl

theorem not_isBlank_of_isDigit {c : Char} (h : isDigit c = true) : Text.isBlank c = false := by
  obtain ⟨hleast, hgreatest⟩ := isDigit_iff.1 h
  simp only [Text.isBlank, Bool.or_eq_false_iff, Bool.and_eq_false_iff, decide_eq_false_iff_not,
    beq_eq_false_iff_ne]
  omega

theorem digitValue_lt {c : Char} (h : isDigit c = true) : digitValue c < 10 := by
  obtain ⟨hleast, hgreatest⟩ := isDigit_iff.1 h
  have hzero : '0'.toNat = 48 := rfl
  rw [digitValue]
  omega

/-- A digit is the one that its value is written with. -/
theorem digitChar_digitValue {c : Char} (h : isDigit c = true) : (digitValue c).digitChar = c := by
  obtain ⟨hleast, hgreatest⟩ := isDigit_iff.1 h
  obtain ⟨n, hn, rfl⟩ : ∃ n < 10, c = Char.ofNat (48 + n) :=
    ⟨c.toNat - 48, by omega, by rw [Nat.add_sub_cancel' hleast, Char.ofNat_toNat]⟩
  revert hn n
  decide

/-- The last digit counts once, and those before it ten times. -/
theorem digitsValue_append_singleton (cs : List Char) (c : Char) :
    digitsValue (cs ++ [c]) = 10 * digitsValue cs + digitValue c := by
  rw [digitsValue, List.foldl_append]
  rfl

theorem digitsValue_lt {cs : List Char} (h : ∀ c ∈ cs, isDigit c = true) :
    digitsValue cs < 10 ^ cs.length := by
  induction cs using List.reverseRecOn with
  | nil => exact Nat.one_pos
  | append_singleton cs c ih =>
    have hrest := ih fun c' hc' => h c' (List.mem_append_left _ hc')
    have hlast := digitValue_lt (h c (by simp))
    rw [digitsValue_append_singleton, List.length_append, List.length_singleton, pow_succ]
    omega

/-- What is read off the digits of a number is the number. -/
theorem digitsValue_toDigits (n : Nat) : digitsValue (Nat.toDigits 10 n) = n :=
  Nat.ofDigitChars_ten_toDigits

theorem isDigit_of_mem_toDigits {n : Nat} {c : Char} (h : c ∈ Nat.toDigits 10 n) :
    isDigit c = true := by
  have hdigit := Nat.isDigit_of_mem_toDigits (by decide) (by decide) h
  simpa [isDigit, Char.isDigit, Char.le_def] using hdigit

/-- A row of digits that starts with no needless zero. -/
structure IsCanonical (cs : List Char) : Prop where
  nonempty : cs ≠ []
  digits : ∀ c ∈ cs, isDigit c = true
  leading : cs.head? = some '0' → cs = ['0']

/-- A row of digits of which the first is not zero stands for a number above zero. -/
theorem digitsValue_pos {c : Char} {cs : List Char} (hdigit : isDigit c = true) (hc : c ≠ '0') :
    0 < digitsValue (c :: cs) := by
  induction cs using List.reverseRecOn with
  | nil =>
    obtain ⟨hleast, -⟩ := isDigit_iff.1 hdigit
    have hne : c.toNat ≠ '0'.toNat := fun heq => hc (Char.toNat_inj.1 heq)
    have hzero : '0'.toNat = 48 := rfl
    have hvalue : digitsValue [c] = 10 * 0 + digitValue c := rfl
    rw [hvalue, digitValue]
    omega
  | append_singleton cs last ih =>
    rw [← List.cons_append, digitsValue_append_singleton]
    omega

/-- A canonical row of digits is written as it was read. -/
theorem toDigits_digitsValue {cs : List Char} (h : IsCanonical cs) :
    Nat.toDigits 10 (digitsValue cs) = cs := by
  obtain ⟨c, rest, rfl⟩ := List.exists_cons_of_ne_nil h.nonempty
  have hfirst := h.digits c List.mem_cons_self
  by_cases hc : c = '0'
  · obtain rfl : rest = [] := by simpa [hc] using h.leading (by rw [hc]; rfl)
    rw [hc]
    rfl
  · have hall := h.digits
    clear h
    induction rest using List.reverseRecOn with
    | nil =>
      have hvalue : digitsValue [c] = digitValue c := by
        show 10 * 0 + digitValue c = digitValue c
        omega
      rw [hvalue, Nat.toDigits_of_lt_base (digitValue_lt hfirst), digitChar_digitValue hfirst]
    | append_singleton rest last ih =>
      have hlast : isDigit last = true := hall last (by simp)
      have hbefore := ih fun c' hc' => hall c' (by simp at hc' ⊢; tauto)
      rw [← List.cons_append, digitsValue_append_singleton,
        ← Nat.toDigits_append_toDigits (by decide) (digitsValue_pos hfirst hc)
          (digitValue_lt hlast), hbefore, Nat.toDigits_of_lt_base (digitValue_lt hlast),
        digitChar_digitValue hlast]

/-- Numbers are written in canonical rows. -/
theorem isCanonical_toDigits (n : Nat) : IsCanonical (Nat.toDigits 10 n) where
  nonempty := Nat.toDigits_ne_nil
  digits _ := isDigit_of_mem_toDigits
  leading := by
    induction n using Nat.strongRecOn with
    | ind n ih =>
      by_cases hn : n < 10
      · rw [Nat.toDigits_of_lt_base hn]
        clear ih
        revert hn n
        decide
      · have hle : 10 ≤ n := Nat.not_lt.1 hn
        rw [Nat.toDigits_of_base_le (by decide) hle]
        intro hhead
        -- the part in front of the last digit is not that of zero
        have hfront : (Nat.toDigits 10 (n / 10)).head? = some '0' := by
          obtain ⟨c, cs, hcs⟩ := List.exists_cons_of_ne_nil (Nat.toDigits_ne_nil (n := n / 10))
          rw [hcs] at hhead ⊢
          exact hhead
        have hzero := ih (n / 10) (by omega) hfront
        have hvalue := digitsValue_toDigits (n / 10)
        rw [hzero] at hvalue
        have : digitsValue ['0'] = 0 := rfl
        omega

end BatchRun.Number
