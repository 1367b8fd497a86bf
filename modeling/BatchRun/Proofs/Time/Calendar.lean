import Mathlib.Tactic.IntervalCases
import BatchRun.Time.Instant

/-!
# Dates and the count of days

Counting days from a first of March puts the leap day at the end of a year, of four years and of
four centuries, and short centuries at the end of none. The date of a day is found by dividing
these periods out, and counting its days again gives the day back.

## Main results

* `Date.dayNumber_ofDayNumber`: a date has the number of the day that it was found for
* `Date.isValid_ofDayNumber`: the calendar has the date that is found for a day
* `Date.year_ofDayNumber`: the years of the days from 1970 to 9999
-/

namespace BatchRun.Date

/-- A day of a century that starts in March: the cycles of four years before it, the years of its
cycle before it, and the day of its year. The last day of a year is a leap day. -/
theorem exists_of_century (century day : Nat) (hcentury : century < 4) (hday : day < 36524) :
    ∃ cycle rest inYear, cycle < 25 ∧ rest < 4 ∧ day = 1461 * cycle + 365 * rest + inYear ∧
      inYear ≤ 365 ∧ (inYear = 365 → rest = 3 ∧ cycle < 24) ∧
      (36525 * century + day - (36524 * century + day) / 1460) / 365 =
        100 * century + 4 * cycle + rest := by
  obtain ⟨cycle, inCycle, rfl, hlt⟩ :
      ∃ cycle inCycle, day = 1461 * cycle + inCycle ∧ inCycle < 1461 :=
    ⟨day / 1461, day % 1461, by omega, by omega⟩
  by_cases hleap : inCycle = 1460
  · exact ⟨cycle, 3, 365, by omega, by omega, by omega, by omega, by omega, by omega⟩
  · exact ⟨cycle, inCycle / 365, inCycle % 365, by omega, by omega, by omega, by omega,
      by omega, by omega⟩

/-- A day of four centuries that start in March: the years before it, and the day of its year. -/
theorem exists_of_era (day : Nat) (hday : day < 146097) :
    ∃ year inYear, (day - day / 1460 + day / 36524 - day / 146096) / 365 = year ∧
      year < 400 ∧ day = 365 * year + year / 4 - year / 100 + inYear ∧ inYear ≤ 365 ∧
      (inYear = 365 → (year + 1) % 4 = 0 ∧ ((year + 1) % 100 ≠ 0 ∨ year = 399)) := by
  by_cases hlast : day = 146096
  · exact ⟨399, 365, by omega, by omega, by omega, by omega, by omega⟩
  · obtain ⟨century, inCentury, rfl, hlt⟩ :
        ∃ century inCentury, day = 36524 * century + inCentury ∧ inCentury < 36524 :=
      ⟨day / 36524, day % 36524, by omega, by omega⟩
    obtain ⟨cycle, rest, inYear, hcycle, hrest, rfl, hle, hleap, hyear⟩ :=
      exists_of_century century inCentury (by omega) hlt
    -- each quotient of the year is read off its parts before they are put together
    have hleaps : (100 * century + 4 * cycle + rest) / 4 = 25 * century + cycle := by omega
    have hcenturies : (100 * century + 4 * cycle + rest) / 100 = century := by omega
    have hbefore : (36524 * century + (1461 * cycle + 365 * rest + inYear)) / 36524 = century := by
      omega
    have hnone : (36524 * century + (1461 * cycle + 365 * rest + inYear)) / 146096 = 0 := by
      omega
    refine ⟨100 * century + 4 * cycle + rest, inYear, ?_, by omega, by omega, hle, by omega⟩
    rw [← hyear, hbefore, hnone]
    congr 1
    omega

/-- The date of a day of a year that starts in March. -/
def ofMarchYear (year : Int) (inYear : Nat) : Date :=
  let fromMarch := (5 * inYear + 2) / 153
  let month := if fromMarch < 10 then fromMarch + 3 else fromMarch - 9
  ⟨if month ≤ 2 then year + 1 else year, month, inYear - (153 * fromMarch + 2) / 5 + 1⟩

/-- The date of a day is that of a day of a year that starts in March. -/
theorem exists_ofMarchYear (n : Int) :
    ∃ (year : Int) (inYear : Nat), ofDayNumber n = ofMarchYear year inYear ∧
      n = year * 365 + year / 4 - year / 100 + year / 400 + inYear ∧ inYear ≤ 365 ∧
      (inYear = 365 → isLeapYear (year + 1) = true) := by
  obtain ⟨era, day, rfl, hlt⟩ : ∃ (era : Int) (day : Nat), n = era * 146097 + day ∧ day < 146097 :=
    ⟨n / 146097, (n % 146097).toNat, by omega, by omega⟩
  have hera : (era * 146097 + day) / 146097 = era := by omega
  have hday : ((era * 146097 + day) % 146097).toNat = day := by omega
  obtain ⟨year, inYear, hyear, hlt', hcount, hle, hleap⟩ := exists_of_era day hlt
  have hleaps : (era * 400 + year) / 4 = era * 100 + (year / 4 : Nat) := by omega
  have hcenturies : (era * 400 + year) / 100 = era * 4 + (year / 100 : Nat) := by omega
  have heras : (era * 400 + (year : Int)) / 400 = era := by omega
  refine ⟨era * 400 + year, inYear, ?_, by omega, hle, ?_⟩
  · have hinYear : day - (365 * year + year / 4 - year / 100) = inYear := by omega
    simp only [ofDayNumber, hera, hday, hyear, hinYear, ofMarchYear]
  · intro hlast
    have := hleap hlast
    simp only [isLeapYear, Bool.and_eq_true, Bool.or_eq_true, beq_iff_eq, bne_iff_ne]
    omega

/-- The days of a year that starts in March are counted from its first one. -/
theorem dayNumber_ofMarchYear (year : Int) {inYear : Nat} (h : inYear ≤ 365) :
    (ofMarchYear year inYear).dayNumber =
      year * 365 + year / 4 - year / 100 + year / 400 + inYear := by
  -- the first ten months are those of the year that it starts in, the others of the next one
  by_cases hearly : (5 * inYear + 2) / 153 < 10
  · have hback : ((5 * inYear + 2) / 153 + 3 + 9) % 12 = (5 * inYear + 2) / 153 := by omega
    have hlate : ¬(5 * inYear + 2) / 153 + 3 ≤ 2 := by omega
    simp only [ofMarchYear, dayNumber, if_pos hearly, if_neg hlate, hback]
    omega
  · have hback : ((5 * inYear + 2) / 153 - 9 + 9) % 12 = (5 * inYear + 2) / 153 := by omega
    have hnew : (5 * inYear + 2) / 153 - 9 ≤ 2 := by omega
    simp only [ofMarchYear, dayNumber, if_neg hearly, if_pos hnew, hback]
    omega

/-- The calendar has every day of a year that starts in March. -/
theorem day_ofMarchYear (year : Int) {inYear : Nat} (h : inYear ≤ 365)
    (hleap : inYear = 365 → isLeapYear (year + 1) = true) :
    1 ≤ (ofMarchYear year inYear).month ∧ (ofMarchYear year inYear).month ≤ 12 ∧
      1 ≤ (ofMarchYear year inYear).day ∧ (ofMarchYear year inYear).day ≤
        daysInMonth (ofMarchYear year inYear).year (ofMarchYear year inYear).month := by
  -- the month is looked at by its own name, which keeps divisions out of the way
  obtain ⟨fromMarch, hfrom⟩ : ∃ fromMarch, (5 * inYear + 2) / 153 = fromMarch := ⟨_, rfl⟩
  have hmonth : fromMarch < 12 := by omega
  simp only [ofMarchYear, hfrom]
  by_cases hlast : inYear = 365
  · obtain rfl : fromMarch = 11 := by omega
    simp [daysInMonth, hlast, hleap hlast]
  · refine ⟨by split <;> omega, by split <;> omega, by omega, ?_⟩
    -- months differ in their days, so that each is looked at by itself
    interval_cases fromMarch <;> simp [daysInMonth] <;> (try split) <;> omega

/-- A date has the number of the day that it was found for. -/
theorem dayNumber_ofDayNumber (n : Int) : (ofDayNumber n).dayNumber = n := by
  obtain ⟨year, inYear, hdate, hcount, hle, -⟩ := exists_ofMarchYear n
  rw [hdate, dayNumber_ofMarchYear year hle, hcount]

/-- The days from the first of January 1970 to the last of December 9999 have years of four
digits. -/
theorem year_ofDayNumber {n : Int} (hleast : 719468 ≤ n) (hgreatest : n < 3652365) :
    0 ≤ (ofDayNumber n).year ∧ (ofDayNumber n).year ≤ 9999 := by
  obtain ⟨year, inYear, hdate, hcount, hle, -⟩ := exists_ofMarchYear n
  rw [hdate]
  have hyear : 0 ≤ year ∧ year ≤ 9999 := by omega
  -- the first two months of the year 10000 belong to a year that starts in March 9999
  have hlast : year = 9999 → (5 * inYear + 2) / 153 < 10 := by omega
  simp only [ofMarchYear]
  split <;> omega

/-- The calendar has the date that is found for a day, if dates can have its year. -/
theorem isValid_ofDayNumber {n : Int} (hleast : leastYear ≤ (ofDayNumber n).year)
    (hgreatest : (ofDayNumber n).year ≤ greatestYear) : (ofDayNumber n).isValid = true := by
  obtain ⟨year, inYear, hdate, hcount, hle, hleap⟩ := exists_ofMarchYear n
  rw [hdate] at hleast hgreatest ⊢
  have hday := day_ofMarchYear year hle hleap
  simp only [isValid, Bool.and_eq_true, decide_eq_true_eq]
  exact ⟨⟨⟨⟨⟨hleast, hgreatest⟩, hday.1⟩, hday.2.1⟩, hday.2.2.1⟩, hday.2.2.2⟩

/-- No month has more than 31 days. -/
theorem daysInMonth_le (year : Int) (month : Nat) : daysInMonth year month ≤ 31 := by
  rw [daysInMonth]
  repeat' split
  all_goals decide

/-- Months and days of the calendar are numbers of two digits. -/
theorem bounds_of_isValid {d : Date} (h : d.isValid = true) :
    1 ≤ d.month ∧ d.month ≤ 12 ∧ 1 ≤ d.day ∧ d.day ≤ 31 := by
  simp only [isValid, Bool.and_eq_true, decide_eq_true_eq] at h
  obtain ⟨⟨⟨⟨-, hmonth⟩, hmonth'⟩, hday⟩, hday'⟩ := h
  exact ⟨hmonth, hmonth', hday, Nat.le_trans hday' (daysInMonth_le d.year d.month)⟩

end BatchRun.Date
