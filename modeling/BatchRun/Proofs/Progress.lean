import Mathlib.Algebra.BigOperators.Group.List.Basic
import Mathlib.Algebra.GroupWithZero.Nat
import BatchRun.Progress

/-!
# Counting any amounts

Counters go on after an amount that was refused as if it had not been reported. So what they have
computed is the sum of the amounts that were accepted, and that sum decides about the next one.
Amounts that fit together are all accepted, in whichever order they come, and of amounts that do not
fit together one is refused in every order. Which one it is, and what the counters come to, depends
on the order.

In words of 64 bits a sum may wrap around and look like a small one. Words that are added with an
eye on that count as numbers without bounds do.

## Main definitions

* `Progress.answer`, `Progress.next`: what is said about an amount, and the counters behind it
* `Progress.answers`, `Progress.after`: the same for amounts one after the other
* `Progress.Words`: counters in words of 64 bits

## Main results

* `computed_after`: what is computed is what was accepted
* `inWords_advance`: words count as numbers do
* `counts_exactly`: what becomes of any amounts in any order
-/

namespace BatchRun.Progress

/-- What is said about an amount: whether all units are computed with it, or that it is refused. -/
def answer (p : Progress) (amount : Nat) : Except ProgressOverflow Bool :=
  (p.advance amount).map isComplete

/-- The counters behind an amount. One that is refused leaves them as they are. -/
def next (p : Progress) (amount : Nat) : Progress := (p.advance amount).toOption.getD p

/-- The counters behind amounts that are reported one after the other. -/
def after (p : Progress) (amounts : List Nat) : Progress := amounts.foldl next p

/-- Amounts that are reported one after the other, each with what is said about it. -/
def answers (p : Progress) : List Nat → List (Nat × Except ProgressOverflow Bool)
  | [] => []
  | amount :: rest => (amount, p.answer amount) :: (p.next amount).answers rest

/-- The amounts that were not refused. -/
def accepted (answers : List (Nat × Except ProgressOverflow Bool)) : List Nat :=
  (answers.filter fun a => a.2.isOk).map Prod.fst

section Step

variable {p : Progress} {amount : Nat}

theorem advance_of_le (h : p.computed + amount ≤ p.total) :
    p.advance amount = .ok ⟨p.computed + amount, p.total, h⟩ :=
  dif_pos h

theorem advance_of_lt (h : p.total < p.computed + amount) :
    p.advance amount = .error ⟨p.computed, p.total, amount⟩ :=
  dif_neg (Nat.not_le.2 h)

theorem answer_of_le (h : p.computed + amount ≤ p.total) :
    p.answer amount = .ok (decide (p.computed + amount = p.total)) := by
  rw [answer, advance_of_le h]
  rfl

theorem answer_of_lt (h : p.total < p.computed + amount) :
    p.answer amount = .error ⟨p.computed, p.total, amount⟩ := by
  rw [answer, advance_of_lt h]
  rfl

theorem computed_next_of_le (h : p.computed + amount ≤ p.total) :
    (p.next amount).computed = p.computed + amount := by
  rw [next, advance_of_le h]
  rfl

theorem next_of_lt (h : p.total < p.computed + amount) : p.next amount = p := by
  rw [next, advance_of_lt h]
  rfl

@[simp] theorem total_next (p : Progress) (amount : Nat) : (p.next amount).total = p.total := by
  rcases Nat.lt_or_ge p.total (p.computed + amount) with h | h
  · rw [next_of_lt h]
  · rw [next, advance_of_le h]
    rfl

theorem ext {p q : Progress} (hcomputed : p.computed = q.computed) (htotal : p.total = q.total) :
    p = q := by
  cases p
  cases q
  cases hcomputed
  cases htotal
  rfl

end Step

section Accepted

variable {answers : List (Nat × Except ProgressOverflow Bool)} {amount : Nat}

theorem accepted_cons_ok (complete : Bool) :
    accepted ((amount, .ok complete) :: answers) = amount :: accepted answers := rfl

theorem accepted_cons_error (refused : ProgressOverflow) :
    accepted ((amount, .error refused) :: answers) = accepted answers := rfl

theorem accepted_eq_of_forall (h : ∀ a ∈ answers, ∃ complete, a.2 = .ok complete) :
    accepted answers = answers.map Prod.fst := by
  rw [accepted, List.filter_eq_self.2]
  intro a ha
  obtain ⟨complete, hcomplete⟩ := h a ha
  rw [hcomplete]
  rfl

end Accepted

section Run

variable {p : Progress} {amounts : List Nat}

@[simp] theorem total_after (p : Progress) (amounts : List Nat) :
    (p.after amounts).total = p.total := by
  induction amounts generalizing p with
  | nil => rfl
  | cons amount rest ih => exact (ih (p.next amount)).trans (total_next p amount)

theorem map_fst_answers (p : Progress) (amounts : List Nat) :
    (p.answers amounts).map Prod.fst = amounts := by
  induction amounts generalizing p with
  | nil => rfl
  | cons amount rest ih => rw [answers, List.map_cons, ih]

/-- What is computed is what was accepted. -/
theorem computed_after (p : Progress) (amounts : List Nat) :
    (p.after amounts).computed = p.computed + (accepted (p.answers amounts)).sum := by
  induction amounts generalizing p with
  | nil => rfl
  | cons amount rest ih =>
    have hrest : (p.after (amount :: rest)).computed =
        (p.next amount).computed + (accepted ((p.next amount).answers rest)).sum :=
      ih (p.next amount)
    rw [hrest, answers]
    rcases Nat.lt_or_ge p.total (p.computed + amount) with h | h
    · rw [answer_of_lt h, accepted_cons_error, next_of_lt h]
    · rw [answer_of_le h, accepted_cons_ok, computed_next_of_le h, List.sum_cons, Nat.add_assoc]

/-- Amounts that fit together are all accepted. -/
theorem answers_of_le (h : p.computed + amounts.sum ≤ p.total) :
    ∀ a ∈ p.answers amounts, ∃ complete, a.2 = .ok complete := by
  induction amounts generalizing p with
  | nil => exact nofun
  | cons amount rest ih =>
    rw [List.sum_cons] at h
    have hfirst : p.computed + amount ≤ p.total := by omega
    refine List.forall_mem_cons.2 ⟨⟨_, answer_of_le hfirst⟩, ih ?_⟩
    rw [computed_next_of_le hfirst, total_next]
    omega

/-- Amounts that do not fit together are not all accepted. -/
theorem exists_refused_of_lt (h : p.total < p.computed + amounts.sum) :
    ∃ a ∈ p.answers amounts, ∃ refused, a.2 = .error refused := by
  by_contra! hnone
  have hall : ∀ a ∈ p.answers amounts, ∃ complete, a.2 = .ok complete := by
    intro a ha
    cases hanswer : a.2 with
    | ok complete => exact ⟨complete, rfl⟩
    | error refused => exact absurd hanswer (hnone a ha refused)
  have hcomputed := computed_after p amounts
  rw [accepted_eq_of_forall hall, map_fst_answers] at hcomputed
  have hle := (p.after amounts).computed_le
  rw [total_after] at hle
  omega

/-- Amounts that fit together come to their sum. -/
theorem computed_after_of_le (h : p.computed + amounts.sum ≤ p.total) :
    (p.after amounts).computed = p.computed + amounts.sum := by
  rw [computed_after, accepted_eq_of_forall (answers_of_le h), map_fst_answers]

end Run

/-! ## Words of 64 bits -/

/-- The sum of two words, unless it wraps around. -/
def checkedAdd (a b : UInt64) : Option UInt64 := if a ≤ a + b then some (a + b) else none

/-- Counters in words of 64 bits. -/
structure Words where
  computed : UInt64
  total : UInt64

namespace Words

/-- Count a reported amount, unless the sum is no word or is more than the total. -/
def advance (w : Words) (amount : UInt64) : Except ProgressOverflow Words :=
  let refused : ProgressOverflow := ⟨w.computed.toNat, w.total.toNat, amount.toNat⟩
  match checkedAdd w.computed amount with
  | some next => if next ≤ w.total then .ok ⟨next, w.total⟩ else .error refused
  | none => .error refused

/-- The counters behind amounts that are reported one after the other. -/
def after (w : Words) (amounts : List UInt64) : Words :=
  amounts.foldl (fun w amount => (w.advance amount).toOption.getD w) w

end Words

/-- The counters in words. -/
def inWords (p : Progress) : Words := ⟨.ofNat p.computed, .ofNat p.total⟩

section Words

variable {p : Progress} {amount : UInt64}

theorem checkedAdd_eq_some_iff {a b c : UInt64} :
    checkedAdd a b = some c ↔ c.toNat = a.toNat + b.toNat := by
  have ha := a.toNat_lt
  have hb := b.toNat_lt
  have hc := c.toNat_lt
  have hsum := UInt64.toNat_add a b
  rw [checkedAdd]
  split
  · next hle =>
    rw [UInt64.le_iff_toNat_le] at hle
    rw [Option.some.injEq, ← UInt64.toNat_inj]
    omega
  · next hlt =>
    rw [UInt64.le_iff_toNat_le] at hlt
    simp only [reduceCtorEq, false_iff]
    omega

/-- Words count as numbers do: no sum that wraps around is taken for a small one. -/
theorem inWords_advance (h : p.total < UInt64.size) (amount : UInt64) :
    p.inWords.advance amount = (p.advance amount.toNat).map inWords := by
  have hle := p.computed_le
  have hcomputed : (UInt64.ofNat p.computed).toNat = p.computed :=
    UInt64.toNat_ofNat_of_lt' (by omega)
  have htotal : (UInt64.ofNat p.total).toNat = p.total := UInt64.toNat_ofNat_of_lt' h
  rcases Nat.lt_or_ge p.total (p.computed + amount.toNat) with hlt | hge
  · rw [advance_of_lt hlt]
    simp only [Words.advance, inWords, hcomputed, htotal]
    split
    · next next hnext =>
      rw [checkedAdd_eq_some_iff, hcomputed] at hnext
      rw [if_neg (by rw [UInt64.le_iff_toNat_le]; omega)]
      rfl
    · rfl
  · have hadd : checkedAdd (.ofNat p.computed) amount =
        some (.ofNat (p.computed + amount.toNat)) := by
      rw [checkedAdd_eq_some_iff, hcomputed, UInt64.toNat_ofNat_of_lt' (by omega)]
    have hfits : UInt64.ofNat (p.computed + amount.toNat) ≤ .ofNat p.total := by
      rw [UInt64.le_iff_toNat_le, htotal, UInt64.toNat_ofNat_of_lt' (by omega)]
      exact hge
    rw [advance_of_le hge]
    simp only [Words.advance, inWords, hadd, hfits, if_true]
    rfl

theorem inWords_next (h : p.total < UInt64.size) (amount : UInt64) :
    (p.next amount.toNat).inWords = (p.inWords.advance amount).toOption.getD p.inWords := by
  rw [inWords_advance h, next]
  cases p.advance amount.toNat <;> rfl

theorem inWords_after (h : p.total < UInt64.size) (amounts : List UInt64) :
    (p.after (amounts.map UInt64.toNat)).inWords = p.inWords.after amounts := by
  induction amounts generalizing p with
  | nil => rfl
  | cons amount rest ih =>
    have hrest := ih (show (p.next amount.toNat).total < UInt64.size by rwa [total_next])
    rw [inWords_next h] at hrest
    exact hrest

end Words

/-- Counters decide about each amount by the sum of those that they accepted before: one that fits
is counted, and it is told whether that completes the total; any other one is refused with what is
computed so far, and changes nothing. Amounts that fit together are all accepted and come to the
same counters in every order, and of amounts that do not fit together one is refused in every order.
Counters in words of 64 bits answer all the same. -/
theorem counts_exactly :
    (∀ total before amount, let p := (start total).after before
      let sum := (accepted ((start total).answers before)).sum
      (sum + amount ≤ total → p.answer amount = .ok (decide (sum + amount = total)) ∧
        (p.next amount).computed = sum + amount ∧ (p.next amount).total = total) ∧
      (total < sum + amount → p.answer amount = .error ⟨sum, total, amount⟩ ∧
        p.next amount = p)) ∧
    (∀ total amounts, amounts.sum ≤ total → ∀ row, row.Perm amounts →
      (∀ a ∈ (start total).answers row, ∃ complete, a.2 = .ok complete) ∧
        (start total).after row = (start total).after amounts) ∧
    (∀ total amounts, total < amounts.sum → ∀ row, row.Perm amounts →
      ∃ a ∈ (start total).answers row, ∃ refused, a.2 = .error refused) ∧
    ∀ (total : UInt64) (before : List UInt64) (amount : UInt64),
      ((⟨0, total⟩ : Words).after before).advance amount =
        (((start total.toNat).after (before.map UInt64.toNat)).advance amount.toNat).map
          inWords := by
  have hzero (total : Nat) (n : Nat) : (start total).computed + n = n := Nat.zero_add n
  refine ⟨?_, ?_, ?_, ?_⟩
  · intro total before amount p sum
    have hcomputed : p.computed = sum := (computed_after _ _).trans (hzero total sum)
    have htotal : p.total = total := total_after _ _
    constructor
    · intro hfits
      have hle : p.computed + amount ≤ p.total := by rwa [hcomputed, htotal]
      refine ⟨?_, ?_, (total_next p amount).trans htotal⟩
      · rw [answer_of_le hle, hcomputed, htotal]
      · rw [computed_next_of_le hle, hcomputed]
    · intro hmore
      have hlt : p.total < p.computed + amount := by rwa [hcomputed, htotal]
      exact ⟨by rw [answer_of_lt hlt, hcomputed, htotal], next_of_lt hlt⟩
  · intro total amounts hfits row hrow
    have hamounts : (start total).computed + amounts.sum ≤ (start total).total := by
      rwa [hzero]
    have hsame : (start total).computed + row.sum ≤ (start total).total := by
      rwa [hrow.sum_eq]
    refine ⟨answers_of_le hsame, ext ?_ ?_⟩
    · rw [computed_after_of_le hsame, computed_after_of_le hamounts, hrow.sum_eq]
    · rw [total_after, total_after]
  · intro total amounts hmore row hrow
    refine exists_refused_of_lt ?_
    rwa [hzero, hrow.sum_eq]
  · intro total before amount
    have hbound : (start total.toNat).total < UInt64.size := total.toNat_lt
    have hstart : (⟨0, total⟩ : Words) = (start total.toNat).inWords := by
      rw [inWords, start, UInt64.ofNat_toNat]
      rfl
    rw [hstart, ← inWords_after hbound, inWords_advance (by rwa [total_after])]

/-- With all units but one computed, three more would wrap around to one, and one more completes
the total. -/
theorem counts_exactly_of_wrapping :
    let most : Nat := 18446744073709551615
    let p := (start most).after [most - 1]
    let sum := (accepted ((start most).answers [most - 1])).sum
    most < sum + 3 ∧ p.answer 3 = .error ⟨most - 1, most, 3⟩ ∧ p.next 3 = p ∧
      sum + 1 ≤ most ∧ p.answer 1 = .ok true ∧
      ((⟨0, 18446744073709551615⟩ : Words).after [18446744073709551614]).advance 3 =
        .error ⟨most - 1, most, 3⟩ ∧
      (start 5).after [1, 2, 2] = (start 5).after [2, 1, 2] ∧
      ∃ a ∈ (start 5).answers [1, 2, 3], ∃ refused, a.2 = .error refused := by
  intro most p sum
  obtain ⟨hone, hfits, hmore, hwords⟩ := counts_exactly
  have hsum : sum = most - 1 := by decide +kernel
  have hthree : most < sum + 3 := by omega
  have hleft : sum + 1 ≤ most := by omega
  obtain ⟨hrefused, hsame⟩ := (hone most [most - 1] 3).2 hthree
  have hcomplete := ((hone most [most - 1] 1).1 hleft).1
  have hwrapping := hwords 18446744073709551615 [18446744073709551614] 3
  refine ⟨hthree, hsum ▸ hrefused, hsame, hleft, hcomplete.trans (by decide +kernel), ?_,
    (hfits 5 [2, 1, 2] (by decide) [1, 2, 2] (by decide)).2,
    hmore 5 [3, 2, 1] (by decide) [1, 2, 3] (by decide)⟩
  exact hwrapping.trans (by rfl)

end BatchRun.Progress
