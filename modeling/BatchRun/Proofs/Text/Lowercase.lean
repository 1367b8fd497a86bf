import BatchRun.Text.Lowercase

/-!
# Lower case is left alone

What the lower-case mapping gives is not changed by it any more, whatever stands around it: no
character that comes out is a capital, and none is the capital sigma, the only one whose lower case
depends on its neighbours. The runs of capitals are checked against those that lie near enough.

## Main results

* `lowercase_lowercase`: a text in lower case stays as it is
-/

namespace BatchRun.Text

/-- A character that stays as it is, wherever it stands. -/
def IsLower (c : Char) : Prop := c ≠ 'Σ' ∧ lowercaseChar c = [c]

instance (c : Char) : Decidable (IsLower c) := inferInstanceAs (Decidable (_ ∧ _))

namespace CaseRun

/-- The code points of a run. -/
def codes (r : CaseRun) : List Nat :=
  (List.range ((r.last - r.first) / r.step + 1)).map fun k => r.first + k * r.step

/-- Where a code point of a run leads to. -/
def target (r : CaseRun) (code : Nat) : Nat := (code + r.shift).toNat

/-- Whether another run lies where the code points of a run may lead to. -/
def isNear (r r' : CaseRun) : Bool := r'.first ≤ r.target r.last && r.target r.first ≤ r'.last

theorem mem_codes {r : CaseRun} {code : Nat} (h : r.holds code = true) : code ∈ r.codes := by
  simp only [holds, Bool.and_eq_true, decide_eq_true_eq, beq_iff_eq] at h
  obtain ⟨⟨hfirst, hlast⟩, hstep⟩ := h
  refine List.mem_map.2 ⟨(code - r.first) / r.step, List.mem_range.2 ?_, ?_⟩
  · exact Nat.lt_succ_of_le (Nat.div_le_div_right (by omega))
  · rw [Nat.div_mul_cancel (Nat.dvd_of_mod_eq_zero hstep)]
    omega

theorem isNear_of_holds {r r' : CaseRun} {code : Nat} (h : r.holds code = true)
    (h' : r'.holds (r.target code) = true) : r.isNear r' = true := by
  simp only [holds, isNear, Bool.and_eq_true, decide_eq_true_eq] at h h' ⊢
  have hle : r.target code ≤ r.target r.last := Int.toNat_le_toNat (by omega)
  have hge : r.target r.first ≤ r.target code := Int.toNat_le_toNat (by omega)
  omega

end CaseRun

/-- No run leads to a code point of a run. -/
theorem not_holds_target : ∀ r ∈ caseRuns, ∀ r' ∈ caseRuns.filter r.isNear, ∀ code ∈ r.codes,
    r'.holds (r.target code) = false := by
  decide +kernel

/-- Each run leads to characters, either outside ASCII or to small letters. -/
theorem isValid_target : ∀ r ∈ caseRuns, ∀ code ∈ r.codes, (r.target code).isValidChar ∧
    r.target code ≠ 0x130 ∧ (r.target code < 128 → 'Z'.toNat < r.target code) := by
  decide +kernel

theorem isLower_toLower : ∀ code < 128, IsLower (Char.ofNat code).toLower := by
  decide +kernel

theorem toLower_eq_of_lt : ∀ code < 128, 'Z'.toNat < code →
    (Char.ofNat code).toLower = Char.ofNat code := by
  decide +kernel

theorem toNat_ofNat {code : Nat} (h : code.isValidChar) : (Char.ofNat code).toNat = code := by
  rw [Char.ofNat, dif_pos h]
  rfl

/-- Capitals lead to characters that stay as they are. -/
theorem isLower_target {r : CaseRun} {code : Nat} (hr : caseRuns.find? (·.holds code) = some r) :
    IsLower (Char.ofNat (r.target code)) := by
  have hholds := List.find?_some hr
  have hmem := List.mem_of_find?_eq_some hr
  obtain ⟨hvalid, hne, hascii⟩ := isValid_target r hmem code (CaseRun.mem_codes hholds)
  have hnone : caseRuns.find? (·.holds (r.target code)) = none := by
    refine List.find?_eq_none.2 fun r' hr' hholds' => ?_
    -- a run that holds what another one leads to is near that one, and none of those does
    have hnear := List.mem_filter.2 ⟨hr', CaseRun.isNear_of_holds hholds hholds'⟩
    have hnot := not_holds_target r hmem r' hnear code (CaseRun.mem_codes hholds)
    rw [hnot] at hholds'
    cases hholds'
  constructor
  · -- the capital sigma is in a run
    intro hsigma
    have hcode : r.target code = 'Σ'.toNat := by rw [← hsigma, toNat_ofNat hvalid]
    rw [hcode] at hnone
    revert hnone
    decide
  · rw [lowercaseChar, toNat_ofNat hvalid, if_neg hne, hnone]
    split
    · next hlt => rw [toLower_eq_of_lt _ hlt (hascii hlt)]
    · rfl

/-- What a character leads to stays as it is. -/
theorem isLower_of_mem {c d : Char} (hc : c ≠ 'Σ') (hd : d ∈ lowercaseChar c) : IsLower d := by
  rw [lowercaseChar] at hd
  split at hd
  · next hlt =>
    rw [List.mem_singleton.1 hd, ← Char.ofNat_toNat c]
    exact isLower_toLower _ hlt
  · next hlt =>
    split at hd
    -- the capital i with a dot is the only character that leads to two
    · have hboth : IsLower 'i' ∧ IsLower (Char.ofNat 0x307) := by decide
      rcases List.mem_cons.1 hd with rfl | hd
      · exact hboth.1
      · rw [List.mem_singleton.1 hd]
        exact hboth.2
    · next hne =>
      split at hd
      · next r hr =>
        rw [List.mem_singleton.1 hd]
        exact isLower_target hr
      · next hnone =>
        rw [List.mem_singleton.1 hd]
        exact ⟨hc, by rw [lowercaseChar, if_neg hlt, if_neg hne, hnone]⟩

theorem isLower_sigma (before after : List Char) : IsLower (lowercaseSigma before after) := by
  rw [lowercaseSigma]
  split <;> decide

theorem isLower_of_mem_lowercaseAfter {before cs : List Char} {d : Char}
    (hd : d ∈ lowercaseAfter before cs) : IsLower d := by
  induction cs generalizing before with
  | nil => cases hd
  | cons c after ih =>
    rw [lowercaseAfter] at hd
    rcases List.mem_append.1 hd with hd | hd
    · split at hd
      · rw [List.mem_singleton.1 hd]
        exact isLower_sigma before after
      · next hc => exact isLower_of_mem hc hd
    · exact ih hd

theorem lowercaseAfter_eq {cs : List Char} (h : ∀ c ∈ cs, IsLower c) (before : List Char) :
    lowercaseAfter before cs = cs := by
  induction cs generalizing before with
  | nil => rfl
  | cons c after ih =>
    obtain ⟨⟨hsigma, hchar⟩, hafter⟩ := List.forall_mem_cons.1 h
    rw [lowercaseAfter, if_neg hsigma, hchar, ih hafter]
    rfl

/-- A text in lower case stays as it is. -/
@[simp] theorem lowercase_lowercase (s : String) : lowercase (lowercase s) = lowercase s := by
  rw [lowercase, lowercase, String.toList_ofList,
    lowercaseAfter_eq fun c hc => isLower_of_mem_lowercaseAfter hc]

end BatchRun.Text
