import Mathlib.Data.List.TakeWhile
import BatchRun.Proofs.Number.Digits
import BatchRun.Proofs.Time.Calendar
import BatchRun.Time.Reading

/-!
# Instants survive being written

A reader of instants is lenient, and writers are not: what is written has every part in full
length, and each part ends where the next one begins. So the parts can be read back one by one,
and the instant that comes out is the one that went in.

## Main definitions

* `Instant.IsDated`: what a clock can show in a year that dates can have
* `Instant.IsShown`: what a clock can show in a year of four digits

## Main results

* `Instant.read_text`: the text of such an instant is read back
* `Instant.isDated_of_read`: whatever text is read, such an instant comes out
* `Instant.isShown_ofMilliseconds`: clocks show such instants up to the end of the year 9999
-/

namespace BatchRun.Instant

open BatchRun.Number
open BatchRun.Text

/-- A reader goes on with what was read. -/
theorem ok_bind {δ γ : Type} (a : γ) (f : γ → Except TimeProblem δ) :
    (Except.ok a >>= f) = f a :=
  pure_bind a f

/-- A reader that got through has read its first part. -/
theorem exists_of_bind {δ γ : Type} {x : Except TimeProblem γ} {f : γ → Except TimeProblem δ}
    {b : δ} (h : (x >>= f) = .ok b) : ∃ a, x = .ok a ∧ f a = .ok b := by
  cases x with
  | ok a => exact ⟨a, rfl, h⟩
  | error problem => cases h

section Padded

variable {count n : Nat}

theorem toList_padded (count n : Nat) :
    (padded count n).toList =
      List.replicate (count - (Nat.toDigits 10 n).length) '0' ++ Nat.toDigits 10 n := by
  rw [padded, String.toList_ofList]

theorem isDigit_of_mem_padded {c : Char} (h : c ∈ (padded count n).toList) :
    isDigit c = true := by
  rw [toList_padded, List.mem_append] at h
  rcases h with h | h
  · rw [List.eq_of_mem_replicate h]
    decide
  · exact isDigit_of_mem_toDigits h

/-- Zeros in front do not count. -/
theorem digitsValue_padded (count n : Nat) : digitsValue (padded count n).toList = n := by
  have hzeros : ∀ zeros : Nat,
      (List.replicate zeros '0').foldl (fun n c => 10 * n + digitValue c) 0 = 0 := by
    intro zeros
    induction zeros with
    | zero => rfl
    | succ zeros ih => exact ih
  rw [toList_padded, digitsValue, List.foldl_append, hzeros]
  exact digitsValue_toDigits n

theorem length_padded (hcount : 0 < count) (h : n < 10 ^ count) :
    (padded count n).toList.length = count := by
  have hle : (Nat.toDigits 10 n).length ≤ count :=
    (Nat.length_toDigits_le_iff (by decide) hcount).2 h
  rw [toList_padded, List.length_append, List.length_replicate]
  omega

/-- A written number starts with a digit. -/
theorem exists_padded_eq_cons (count n : Nat) :
    ∃ c cs, (padded count n).toList = c :: cs ∧ isDigit c = true := by
  have hnonempty : (padded count n).toList ≠ [] := by
    rw [toList_padded]
    exact List.append_ne_nil_of_right_ne_nil _ Nat.toDigits_ne_nil
  obtain ⟨c, cs, hlist⟩ := List.exists_cons_of_ne_nil hnonempty
  exact ⟨c, cs, hlist, isDigit_of_mem_padded (hlist ▸ List.mem_cons_self)⟩

/-- A row of digits ends with a written number, if what follows does not start with one. -/
theorem takeWhile_padded_append {rest : List Char} (h : rest.takeWhile isDigit = []) :
    ((padded count n).toList ++ rest).takeWhile isDigit = (padded count n).toList := by
  rw [List.takeWhile_append_of_pos fun _ => isDigit_of_mem_padded, h, List.append_nil]

/-- A written number is read up to its end, if no digit follows within what is looked at. -/
theorem digits_padded {most : Option Nat} {rest : List Char} (h : n < 10 ^ 18)
    (hend : (most.elim ((padded count n).toList ++ rest)
      ((padded count n).toList ++ rest).take).takeWhile isDigit = (padded count n).toList) :
    digits most ((padded count n).toList ++ rest) = .ok (n, rest) := by
  obtain ⟨c, cs, hlist, -⟩ := exists_padded_eq_cons count n
  -- eighteen digits are within 64 bits
  have hrange : ¬int64Greatest < (n : Int) := by
    simp only [int64Greatest, UInt64.size]
    omega
  have hnonempty : (padded count n).toList.isEmpty = false := by rw [hlist]; rfl
  have hsome : ((padded count n).toList ++ rest).isEmpty = false := by rw [hlist]; rfl
  cases most <;>
    simp only [Option.elim] at hend <;>
    simp only [digits, hend, hnonempty, hsome, digitsValue_padded, Bool.false_eq_true, if_false,
      hrange, List.drop_left]

theorem digits_padded_self {rest : List Char} (hcount : 0 < count) (hle : count ≤ 18)
    (h : n < 10 ^ count) :
    digits (some count) ((padded count n).toList ++ rest) = .ok (n, rest) := by
  apply digits_padded (lt_of_lt_of_le h (Nat.pow_le_pow_right (by decide) hle))
  rw [Option.elim, List.take_left' (length_padded hcount h)]
  exact List.takeWhile_eq_self_iff.2 fun _ => isDigit_of_mem_padded

theorem skipBlanks_padded (count n : Nat) (rest : List Char) :
    skipBlanks ((padded count n).toList ++ rest) = (padded count n).toList ++ rest := by
  obtain ⟨c, cs, hlist, hdigit⟩ := exists_padded_eq_cons count n
  rw [hlist, skipBlanks, List.cons_append, List.dropWhile_cons, not_isBlank_of_isDigit hdigit]
  rfl

/-- A field of two digits is read back. -/
theorem field_padded {least greatest : Nat} {rest : List Char} (hleast : least ≤ n)
    (hgreatest : n ≤ greatest) (h : greatest < 100) :
    field least greatest ((padded 2 n).toList ++ rest) = .ok (n, rest) := by
  have hlt : n < 10 ^ 2 := by omega
  rw [field, skipBlanks_padded, digits_padded_self (by decide) (by decide) hlt]
  simp only [ok_bind]
  rw [if_pos ⟨hleast, hgreatest⟩]
  rfl

/-- A year of four digits is read back. -/
theorem year_padded {rest : List Char} (h : n < 10 ^ 4) :
    year ((padded 4 n).toList ++ rest) = .ok ((n : Int), rest) := by
  obtain ⟨c, cs, hlist, hdigit⟩ := exists_padded_eq_cons 4 n
  have hread : digits (some 4) ((padded 4 n).toList ++ rest) = .ok (n, rest) :=
    digits_padded_self (by decide) (by decide) h
  have hminus : c ≠ '-' := by rintro rfl; revert hdigit; decide
  have hplus : c ≠ '+' := by rintro rfl; revert hdigit; decide
  rw [year, skipBlanks_padded]
  rw [hlist] at hread ⊢
  simp only [List.cons_append] at hread ⊢
  split
  · next heq => exact absurd (List.cons.inj heq).1 hminus
  · next heq => exact absurd (List.cons.inj heq).1 hplus
  · simp only [hread, ok_bind, pure_bind]
    rw [if_pos (by omega)]
    rfl

/-- So is a year that needs a sign, up to its last digit. -/
theorem year_signed {sign : Char} (hsign : sign = '-' ∨ sign = '+') (h : n < 2147483648)
    {rest : List Char} (hrest : rest.takeWhile isDigit = []) :
    year (sign :: ((padded 4 n).toList ++ rest)) =
      .ok (if sign = '-' then -(n : Int) else n, rest) := by
  have hread : digits none ((padded 4 n).toList ++ rest) = .ok (n, rest) :=
    digits_padded (Nat.lt_trans h (by decide)) (takeWhile_padded_append hrest)
  rcases hsign with rfl | rfl
  · have hskip : skipBlanks ('-' :: ((padded 4 n).toList ++ rest)) =
        '-' :: ((padded 4 n).toList ++ rest) := rfl
    simp only [year, hskip, hread, ok_bind, pure_bind, if_true]
    rw [if_pos (by omega)]
    rfl
  · have hskip : skipBlanks ('+' :: ((padded 4 n).toList ++ rest)) =
        '+' :: ((padded 4 n).toList ++ rest) := rfl
    simp only [year, hskip, hread, ok_bind, pure_bind]
    rw [if_pos (by omega)]
    rfl

/-- A year that dates can have is read back. -/
theorem year_yearText {y : Int} (hleast : Date.leastYear ≤ y) (hgreatest : y ≤ Date.greatestYear)
    {rest : List Char} (hrest : rest.takeWhile isDigit = []) :
    year ((yearText y).toList ++ rest) = .ok (y, rest) := by
  simp only [Date.leastYear, Date.greatestYear] at hleast hgreatest
  rw [yearText]
  split
  · next hshort =>
    simp only [Bool.and_eq_true, decide_eq_true_eq] at hshort
    rw [year_padded (by omega), Int.toNat_of_nonneg hshort.1]
  · split
    · next hnegative =>
      rw [String.toList_append]
      refine (year_signed (.inl rfl) (by omega) hrest).trans ?_
      rw [if_pos rfl, Int.ofNat_natAbs_of_nonpos hnegative.le, Int.neg_neg]
    · next hpositive =>
      rw [String.toList_append]
      refine (year_signed (.inr rfl) (by omega) hrest).trans ?_
      rw [if_neg (by decide), Int.natAbs_of_nonneg (Int.not_lt.1 hpositive)]

/-- The digits of a fraction are read back. -/
theorem fraction_padded (hcount : 0 < count) (hle : count ≤ 9) (h : n < 10 ^ count) :
    fraction ('.' :: ((padded count n).toList ++ ['Z'])) =
      .ok (n * 10 ^ (9 - count), ['Z']) := by
  have hlength := length_padded hcount h
  have hend : (((padded count n).toList ++ ['Z']).take 9).takeWhile isDigit =
      (padded count n).toList := by
    rw [List.take_append, List.take_of_length_le (by omega)]
    apply takeWhile_padded_append
    cases 9 - (padded count n).toList.length <;> rfl
  have hrest : ((padded count n).toList ++ ['Z']).dropWhile isDigit = ['Z'] := by
    rw [List.dropWhile_append_of_pos fun _ => isDigit_of_mem_padded]
    rfl
  have hsmall : n < 10 ^ 18 :=
    lt_of_lt_of_le h (Nat.pow_le_pow_right (by decide) (Nat.le_trans hle (by decide)))
  have hread : digits (some 9) ((padded count n).toList ++ ['Z']) = .ok (n, ['Z']) := by
    apply digits_padded hsmall
    rw [Option.elim, hend]
  simp only [fraction, hread, ok_bind, hend, hlength, hrest]
  rfl

/-- The fraction of a second is read back, whatever its precision. -/
theorem fraction_fractionText {nanos : Nat} (h : nanos < 10 ^ 9) :
    fraction ((fractionText nanos).toList ++ ['Z']) = .ok (nanos, ['Z']) := by
  rw [fractionText]
  split
  · next hzero => rw [hzero]; rfl
  · split
    · next hmilli =>
      rw [String.toList_append]
      apply (fraction_padded (by decide) (by decide) (by omega)).trans
      have hnanos : nanos / 1000000 * 10 ^ (9 - 3) = nanos := by omega
      rw [hnanos]
    · split
      · next hmicro =>
        rw [String.toList_append]
        apply (fraction_padded (by decide) (by decide) (by omega)).trans
        have hnanos : nanos / 1000 * 10 ^ (9 - 6) = nanos := by omega
        rw [hnanos]
      · rw [String.toList_append]
        apply (fraction_padded (by decide) (by decide) h).trans
        simp

end Padded

/-- What a clock can show in a year that dates can have. A minute may end with a leap second. -/
structure IsDated (t : Instant) : Prop where
  leastYear_le : Date.leastYear ≤ (Date.ofDayNumber t.day).year
  le_greatestYear : (Date.ofDayNumber t.day).year ≤ Date.greatestYear
  second_lt : t.second < 86400
  nanos_lt : t.nanos < 1000000000 ∨ t.second % 60 = 59 ∧ t.nanos < 2000000000

/-- What a clock can show in a year of four digits. A minute may end with a leap second. -/
structure IsShown (t : Instant) : Prop where
  year_nonneg : 0 ≤ (Date.ofDayNumber t.day).year
  year_le : (Date.ofDayNumber t.day).year ≤ 9999
  second_lt : t.second < 86400
  nanos_lt : t.nanos < 1000000000 ∨ t.second % 60 = 59 ∧ t.nanos < 2000000000

/-- Years of four digits are years that dates can have. -/
theorem IsShown.isDated {t : Instant} (h : t.IsShown) : t.IsDated where
  leastYear_le := le_trans (by decide) h.year_nonneg
  le_greatestYear := le_trans h.year_le (by decide)
  second_lt := h.second_lt
  nanos_lt := h.nanos_lt

theorem separator_cons (c : Char) (rest : List Char) (h : isBlank c = false) :
    separator c (c :: rest) = .ok rest := by
  simp only [separator, skipBlanks, List.dropWhile_cons, h, Bool.false_eq_true, if_false]
  rw [if_pos (beq_self_eq_true c)]

/-- The time of day of an instant, as the text of the instant has it, gives the instant back. -/
theorem ofLocal?_eq_some {t : Instant} (h : t.IsDated) : ofLocal? t 0 = some t := by
  have hday : t.day + ((t.second : Int) - 0) / 86400 = t.day := by have := h.second_lt; omega
  have hsecond : (((t.second : Int) - 0) % 86400).toNat = t.second := by
    have := h.second_lt
    omega
  simp only [ofLocal?, hday, hsecond]
  rw [if_pos (by simp [h.leastYear_le, h.le_greatestYear])]

/-- Hours, minutes and seconds make up the instant that they are taken from; the sixtieth second of
a minute is its leap second. -/
theorem clock_eq {t : Instant} (h : t.IsDated) {day : Int} (hday : day = t.day) :
    (⟨day, t.second / 3600 * 3600 + t.second / 60 % 60 * 60 +
        (t.second % 60 + t.nanos / 1000000000 - (t.second % 60 + t.nanos / 1000000000) / 60),
      t.nanos % 1000000000 + (t.second % 60 + t.nanos / 1000000000) / 60 * 1000000000⟩ :
        Instant) = t := by
  -- a leap second is what the nanoseconds have beyond a whole second
  obtain ⟨leap, hleap⟩ : ∃ leap, t.nanos / 1000000000 = leap := ⟨_, rfl⟩
  have hminute : (t.second % 60 + leap) / 60 = leap := by
    rcases h.nanos_lt with hlt | ⟨hlast, hlt⟩ <;> omega
  rw [hleap, hminute, hday]
  congr 1 <;> omega

/-- The parts of the text of an instant. -/
theorem toList_text (t : Instant) :
    t.text.toList = (yearText (Date.ofDayNumber t.day).year).toList ++
      '-' :: ((padded 2 (Date.ofDayNumber t.day).month).toList ++
      '-' :: ((padded 2 (Date.ofDayNumber t.day).day).toList ++
      'T' :: ((padded 2 (t.second / 3600)).toList ++
      ':' :: ((padded 2 (t.second / 60 % 60)).toList ++
      ':' :: ((padded 2 (t.second % 60 + t.nanos / 1000000000)).toList ++
      ((fractionText (t.nanos % 1000000000)).toList ++ ['Z'])))))) := by
  have hdash : "-".toList = ['-'] := rfl
  have hcolon : ":".toList = [':'] := rfl
  have hclock : "T".toList = ['T'] := rfl
  have hend : "Z".toList = ['Z'] := rfl
  simp only [text, String.toList_append, List.append_assoc, hdash, hcolon, hclock, hend,
    List.cons_append, List.nil_append]

/-- The text of an instant is read back. -/
theorem read_text {t : Instant} (h : t.IsDated) : read t.text = .ok t := by
  have hleast := h.leastYear_le
  have hgreatest := h.le_greatestYear
  have hvalid : (Date.ofDayNumber t.day).isValid = true := Date.isValid_ofDayNumber hleast hgreatest
  have hnumber := Date.dayNumber_ofDayNumber t.day
  have hlist := toList_text t
  have hsecond := h.second_lt
  -- only the bounds of the date matter from here on, not how it was found
  generalize Date.ofDayNumber t.day = date at *
  have hmonth := Date.bounds_of_isValid hvalid
  have hnanos : fraction ((fractionText (t.nanos % 1000000000)).toList ++ ['Z']) =
      .ok (t.nanos % 1000000000, ['Z']) :=
    fraction_fractionText (Nat.mod_lt _ (by decide))
  have hoffset : offset (skipBlanks ['Z']) = .ok (0, []) := rfl
  have hseconds : t.second % 60 + t.nanos / 1000000000 ≤ 60 := by
    rcases h.nanos_lt with hlt | ⟨-, hlt⟩ <;> omega
  have hdash : ∀ cs : List Char, ('-' :: cs).takeWhile isDigit = [] := fun _ => rfl
  rw [read, hlist]
  simp only [year_yearText hleast hgreatest (hdash _), ok_bind,
    separator_cons '-' _ (by decide), field_padded hmonth.1 hmonth.2.1 (by decide),
    field_padded hmonth.2.2.1 hmonth.2.2.2 (by decide)]
  rw [if_pos (by decide)]
  have hhour : t.second / 3600 ≤ 23 := by omega
  have hminutes : t.second / 60 % 60 ≤ 59 := by omega
  simp only [pure_bind, ok_bind, separator_cons ':' _ (by decide),
    field_padded (Nat.zero_le _) hhour (by decide),
    field_padded (Nat.zero_le _) hminutes (by decide),
    field_padded (Nat.zero_le _) hseconds (by decide), hnanos, hoffset]
  rw [if_neg (by decide), if_neg (by simp [hvalid])]
  rw [clock_eq h hnumber, ofLocal?_eq_some h]
  rfl

section Accepted

variable {cs rest : List Char}

/-- What is read as a number is the value of the digits that are looked at. -/
theorem value_of_digits {most : Option Nat} {value : Nat}
    (h : digits most cs = .ok (value, rest)) :
    value = digitsValue ((most.elim cs cs.take).takeWhile isDigit) := by
  cases most <;>
  · simp only [digits] at h
    split_ifs at h
    exact (congrArg Prod.fst (Except.ok.inj h)).symm

theorem bounds_of_field {least greatest value : Nat}
    (h : field least greatest cs = .ok (value, rest)) : least ≤ value ∧ value ≤ greatest := by
  obtain ⟨⟨read, rest'⟩, -, h⟩ := exists_of_bind h
  simp only at h
  split at h
  · next hbounds =>
    obtain ⟨rfl, rfl⟩ := Prod.mk.inj (Except.ok.inj h)
    exact hbounds
  · cases h

/-- A fraction is less than a second, since no more than nine of its digits count. -/
theorem lt_of_fraction {nanos : Nat} (h : fraction cs = .ok (nanos, rest)) :
    nanos < 1000000000 := by
  simp only [fraction] at h
  split at h
  · next behind =>
    obtain ⟨⟨value, rest'⟩, hdigits, h⟩ := exists_of_bind h
    obtain ⟨rfl, -⟩ := Prod.mk.inj (Except.ok.inj h)
    obtain rfl := value_of_digits hdigits
    simp only [Option.elim]
    have hdigit : ∀ c ∈ (behind.take 9).takeWhile isDigit, isDigit c = true :=
      fun _ => List.mem_takeWhile_imp
    have hlength : ((behind.take 9).takeWhile isDigit).length ≤ 9 :=
      (List.takeWhile_prefix _).length_le.trans (List.length_take_le 9 behind)
    calc digitsValue ((behind.take 9).takeWhile isDigit) *
          10 ^ (9 - ((behind.take 9).takeWhile isDigit).length)
        < 10 ^ ((behind.take 9).takeWhile isDigit).length *
          10 ^ (9 - ((behind.take 9).takeWhile isDigit).length) :=
          Nat.mul_lt_mul_of_pos_right (digitsValue_lt hdigit) (Nat.pow_pos (by decide))
      _ = 1000000000 := by rw [← Nat.pow_add, Nat.add_sub_cancel' hlength]
  · obtain ⟨rfl, -⟩ := Prod.mk.inj (Except.ok.inj h)
    decide

theorem dvd_of_hoursAndMinutes {negative : Bool} {ahead : Int}
    (h : hoursAndMinutes negative cs = .ok (ahead, rest)) : 60 ∣ ahead := by
  obtain ⟨⟨hours, rest₁⟩, -, h⟩ := exists_of_bind h
  obtain ⟨⟨minutes, rest₂⟩, -, h⟩ := exists_of_bind h
  by_cases hminutes : 60 ≤ minutes
  · simp only [if_pos hminutes] at h
    cases h
  · simp only [if_neg hminutes] at h
    obtain ⟨rfl, -⟩ := Prod.mk.inj (Except.ok.inj h)
    split <;> omega

/-- Offsets are whole minutes. -/
theorem dvd_of_offset {ahead : Int} (h : offset cs = .ok (ahead, rest)) : 60 ∣ ahead := by
  simp only [offset] at h
  split at h
  · obtain ⟨rfl, -⟩ := Prod.mk.inj (Except.ok.inj h)
    decide
  · split at h
    · cases h
    · split_ifs at h
      · obtain ⟨rfl, -⟩ := Prod.mk.inj (Except.ok.inj h)
        decide
      · exact dvd_of_hoursAndMinutes h
      · exact dvd_of_hoursAndMinutes h

/-- Whatever offset a clock has, an instant that it shows is one of the calendar at the prime
meridian, with the same leap second. -/
theorem isDated_of_ofLocal? {clock t : Instant} {ahead : Int} (hahead : 60 ∣ ahead)
    (hnanos : clock.nanos < 1000000000 ∨ clock.second % 60 = 59 ∧ clock.nanos < 2000000000)
    (h : ofLocal? clock ahead = some t) : t.IsDated := by
  simp only [ofLocal?] at h
  split_ifs at h with hyear
  simp only [Bool.and_eq_true, decide_eq_true_eq] at hyear
  obtain rfl := Option.some.inj h
  refine ⟨hyear.1, hyear.2, ?_, ?_⟩
  · show (((clock.second : Int) - ahead) % 86400).toNat < 86400
    omega
  · rcases hnanos with hlt | ⟨hlast, hlt⟩
    · exact .inl hlt
    · refine .inr ⟨?_, hlt⟩
      show (((clock.second : Int) - ahead) % 86400).toNat % 60 = 59
      omega

/-- What is read is an instant that can be written and read again. -/
theorem isDated_of_read {text : String} {t : Instant} (h : read text = .ok t) : t.IsDated := by
  obtain ⟨⟨year, cs⟩, -, h⟩ := exists_of_bind h
  obtain ⟨cs, -, h⟩ := exists_of_bind h
  obtain ⟨⟨month, cs⟩, -, h⟩ := exists_of_bind h
  obtain ⟨cs, -, h⟩ := exists_of_bind h
  obtain ⟨⟨day, cs⟩, -, h⟩ := exists_of_bind h
  -- something parts date and time
  simp only at h
  split at h
  · cases h
  split at h
  swap
  · cases h
  obtain ⟨cs, -, h⟩ := exists_of_bind h
  obtain ⟨⟨hour, cs⟩, -, h⟩ := exists_of_bind h
  obtain ⟨cs, -, h⟩ := exists_of_bind h
  obtain ⟨⟨minute, cs⟩, -, h⟩ := exists_of_bind h
  obtain ⟨cs, -, h⟩ := exists_of_bind h
  obtain ⟨⟨second, cs⟩, hsecond, h⟩ := exists_of_bind h
  obtain ⟨⟨nanos, cs⟩, hnanos, h⟩ := exists_of_bind h
  obtain ⟨⟨ahead, cs⟩, hahead, h⟩ := exists_of_bind h
  have hsecond := (bounds_of_field hsecond).2
  have hnanos := lt_of_fraction hnanos
  simp only at h
  split at h
  · cases h
  split at h
  · cases h
  split at h
  · next found hlocal =>
    obtain rfl := Except.ok.inj h
    refine isDated_of_ofLocal? (dvd_of_offset hahead) ?_ hlocal
    -- a second is the sixtieth of its minute, or within it
    show nanos + second / 60 * 1000000000 < 1000000000 ∨
      (hour * 3600 + minute * 60 + (second - second / 60)) % 60 = 59 ∧
        nanos + second / 60 * 1000000000 < 2000000000
    rcases Nat.lt_or_eq_of_le hsecond with hlt | rfl
    · rw [Nat.div_eq_of_lt hlt]
      omega
    · omega
  · cases h

end Accepted

/-- Clocks show such instants up to the end of the year 9999. -/
theorem isShown_ofMilliseconds {n : Nat} (h : n ≤ lastMillisecond) :
    (ofMilliseconds n).IsShown := by
  have hday : (ofMilliseconds n).day = 719468 + (n / 86400000 : Nat) := rfl
  have hle : n / 86400000 < 2932897 := by
    have : n ≤ 253402300799999 := h
    omega
  have hyear := Date.year_ofDayNumber (n := (ofMilliseconds n).day) (by omega) (by omega)
  refine ⟨hyear.1, hyear.2, ?_, .inl ?_⟩
  · exact Nat.mod_lt _ (by decide)
  · have : n % 1000 * 1000000 < 1000000000 := by omega
    exact this

end BatchRun.Instant
