import Mathlib.Data.List.SplitBy
import BatchRun.Proofs.Partition.Exact
import BatchRun.Settings.Basic

/-!
# How many blocks there are

A greedy block ends where the group changes, or where its items and the next one are too heavy
together. Groups change as often as there are runs of items with one key; and two neighbouring
blocks of the second kind weigh more than a block may, so that there are no more such boundaries
than the greatest weight goes twice into the weight of all items.

The greatest weight that is derived of a total is an even share of it for each of the concurrent
tasks. Unless it is capped, it goes into the total no more often than there are tasks, and a run has
no more than twice as many blocks as tasks, beside those that begin where a group begins.

## Main definitions

* `runCount`: the number of runs of items with one key
* `evenShare`: the weight that is derived of a total before the cap

## Main results

* `GreedyFrom.length_mul_le`: the number of greedy blocks
* `Settings.blockWeight_eq_ok`: valid settings have a greatest weight for every total
* `Settings.blocks_bounded`: the number of blocks under valid settings
-/

namespace BatchRun

variable {ι κ : Type} [BEq κ]

/-! ## Runs of items with one key -/

/-- The number of runs, as long as they can be, of neighbouring items with the same key. -/
def runCount (keyOf : ι → κ) (items : List ι) : Nat :=
  (items.splitBy fun a b => keyOf a == keyOf b).length

section Runs

variable {keyOf : ι → κ}

theorem runCount_pos (keyOf : ι → κ) {items : List ι} (h : items ≠ []) : 0 < runCount keyOf items :=
  List.length_pos_of_ne_nil (List.splitBy_ne_nil.2 h)

/-- Where neighbours have different keys one run ends and another one begins. -/
theorem runCount_append {items : List ι} {next : ι} (rest : List ι)
    (h : ∀ last ∈ items.getLast?, (keyOf last == keyOf next) = false) :
    runCount keyOf (items ++ next :: rest) =
      runCount keyOf items + runCount keyOf (next :: rest) := by
  rw [runCount, List.splitBy_append_cons rest h, List.length_append, runCount, runCount]

/-- An item in front with the same key makes the first run longer. -/
theorem splitBy_cons_of_rel {r : ι → ι → Bool} {first next : ι} {rest run : List ι}
    {runs : List (List ι)} (h : r first next = true)
    (hrest : (next :: rest).splitBy r = run :: runs) :
    (first :: next :: rest).splitBy r = (first :: run) :: runs := by
  obtain ⟨hflatten, hnonempty, hchains, hbreaks⟩ := List.splitBy_eq_iff.1 hrest
  obtain ⟨hrun, hruns⟩ := List.forall_mem_cons.1 hchains
  obtain ⟨next', run', rfl⟩ := List.exists_cons_of_ne_nil
    (List.ne_nil_of_mem_splitBy (hrest ▸ List.mem_cons_self))
  obtain rfl : next = next' := by
    rw [List.flatten_cons, List.cons_append] at hflatten
    exact (List.cons.inj hflatten).1
  refine List.splitBy_eq_iff.2 ⟨?_, ?_, ?_, ?_⟩
  · rw [hflatten]
    rfl
  · simpa using hnonempty
  · exact List.forall_mem_cons.2 ⟨List.isChain_cons_cons.2 ⟨h, hrun⟩, hruns⟩
  · cases runs with
    | nil => exact List.isChain_singleton _
    | cons after runs =>
      rw [List.isChain_cons_cons] at hbreaks ⊢
      obtain ⟨⟨_, hafter, hbreak⟩, hbreaks⟩ := hbreaks
      exact ⟨⟨List.cons_ne_nil _ _, hafter, by rw [List.getLast_cons_cons]; exact hbreak⟩, hbreaks⟩

/-- Items in front never make the runs fewer. -/
theorem runCount_le_append (items : List ι) (next : ι) (rest : List ι) :
    runCount keyOf (next :: rest) ≤ runCount keyOf (items ++ next :: rest) := by
  induction items with
  | nil => exact Nat.le_refl _
  | cons first items ih =>
    refine ih.trans ?_
    obtain ⟨after, more, hmore⟩ : ∃ after more, items ++ next :: rest = after :: more :=
      List.exists_cons_of_ne_nil (by simp)
    rw [List.cons_append, hmore]
    cases hkey : keyOf first == keyOf after with
    | false =>
      have hbreak : ∀ last ∈ [first].getLast?, (keyOf last == keyOf after) = false := by simpa
      have := runCount_append more hbreak
      rw [List.singleton_append] at this
      omega
    | true =>
      obtain ⟨run, runs, hruns⟩ := List.exists_cons_of_ne_nil
        (List.splitBy_ne_nil (r := fun a b => keyOf a == keyOf b).2 (List.cons_ne_nil after more))
      have hfirst := splitBy_cons_of_rel (r := fun a b => keyOf a == keyOf b) hkey hruns
      rw [runCount, runCount, hfirst, hruns]
      exact Nat.le_refl _

end Runs

/-! ## The number of greedy blocks -/

section Greedy

variable [PartialEquivBEq κ] {maxWeight : ℚ} {weightOf : ι → ℚ} {keyOf : ι → κ} {n : Nat}
  {items : List ι} {b : Block ι κ ℚ} {bs : List (Block ι κ ℚ)}

/-- The key of a block is that of its last item too, as far as other keys can tell. -/
theorem Block.IsRow.last_ne (h : b.IsRow maxWeight weightOf keyOf) {next : ι}
    (hnext : (b.key == keyOf next) = false) :
    ∀ last ∈ b.items.toList.getLast?, (keyOf last == keyOf next) = false := by
  intro last hlast
  have hmem := List.mem_of_mem_getLast? hlast
  rw [b.items_eq_cons, List.mem_cons] at hmem
  rcases hmem with rfl | hlater
  · rw [← h.keyed, hnext]
  · rw [← Bool.not_eq_true]
    intro hsame
    rw [PartialEquivBEq.trans (h.grouped last hlater) hsame] at hnext
    cases hnext

/-- The boundaries between greedy blocks are no more than the changes of groups, and those that the
weight of all items allows. -/
theorem GreedyFrom.length_mul_le (h : GreedyFrom maxWeight weightOf keyOf n items (b :: bs))
    (hmax : 0 < maxWeight) (hweights : ∀ item ∈ items, 0 ≤ weightOf item) :
    (b :: bs).length * maxWeight + b.weight ≤
      runCount keyOf items * maxWeight + 2 * totalWeight weightOf items := by
  -- the weight of the first block is spare: it is needed if the boundary in front of it was drawn
  -- because of the weight
  induction bs generalizing b n items with
  | nil =>
    have hruns : (1 : ℚ) ≤ runCount keyOf items := by
      exact_mod_cast runCount_pos keyOf h.items_ne_nil
    have hmore : maxWeight ≤ runCount keyOf items * maxWeight :=
      le_mul_of_one_le_left hmax.le hruns
    have htotal : totalWeight weightOf items = b.weight := h.totalWeight_eq.trans (add_zero _)
    have hnonneg := totalWeight_nonneg hweights
    rw [List.length_singleton, Nat.cast_one]
    linarith
  | cons c cs ih =>
    have hitems := h.append_eq
    have hrowb := h.rows b List.mem_cons_self
    have hrowc := h.rows c (List.mem_cons_of_mem b List.mem_cons_self)
    have hweightsc : ∀ item ∈ c.items.toList, 0 ≤ weightOf item := fun item hitem =>
      hweights item (h.mem_items (List.mem_cons_of_mem b List.mem_cons_self) hitem)
    obtain ⟨rest, hrest⟩ : ∃ rest, ((c :: cs).flatMap fun b => b.items.toList) = c.first :: rest :=
      ⟨_, by rw [List.flatMap_cons, c.items_eq_cons, List.cons_append]⟩
    have hlater := ih h.tail fun item hitem =>
      hweights item (hitems ▸ List.mem_append_right _ hitem)
    have htotal := h.totalWeight_eq
    rw [hrest] at hitems hlater htotal
    rw [List.length_cons, Nat.cast_add, Nat.cast_one]
    rcases h.closed_at hrest with hkey | hheavy
    · -- a run ends with the block
      have hruns : (1 : ℚ) + runCount keyOf (c.first :: rest) ≤ runCount keyOf items := by
        have hbreak := runCount_append rest (hrowb.last_ne hkey)
        have := runCount_pos keyOf b.items_ne_nil
        rw [← hitems]
        exact_mod_cast (by omega : 1 + runCount keyOf (c.first :: rest) ≤
          runCount keyOf (b.items.toList ++ c.first :: rest))
      have := mul_le_mul_of_nonneg_right hruns hmax.le
      have hb := hrowb.weight_nonneg fun item hitem =>
        hweights item (h.mem_items List.mem_cons_self hitem)
      have hc := hrowc.weight_nonneg hweightsc
      linarith
    · -- the block and the next one are too heavy together
      have hruns : (runCount keyOf (c.first :: rest) : ℚ) ≤ runCount keyOf items := by
        rw [← hitems]
        exact_mod_cast runCount_le_append b.items.toList c.first rest
      have := mul_le_mul_of_nonneg_right hruns hmax.le
      have hc : weightOf c.first ≤ c.weight :=
        hrowc.weightOf_le hweightsc (c.items_eq_cons ▸ List.mem_cons_self)
      linarith

/-- There is a block for each run, and no more of the others than the greatest weight goes twice
into the weight of all items. -/
theorem GreedyFrom.length_le_runCount {blocks : List (Block ι κ ℚ)}
    (h : GreedyFrom maxWeight weightOf keyOf n items blocks) (hmax : 0 < maxWeight)
    (hweights : ∀ item ∈ items, 0 ≤ weightOf item) :
    (blocks.length : ℚ) ≤ runCount keyOf items + 2 * totalWeight weightOf items / maxWeight := by
  rw [← sub_le_iff_le_add', le_div_iff₀ hmax, sub_mul]
  have hnonneg := totalWeight_nonneg hweights
  cases blocks with
  | nil =>
    have : 0 ≤ runCount keyOf items * maxWeight := mul_nonneg (Nat.cast_nonneg _) hmax.le
    rw [List.length_nil, Nat.cast_zero, zero_mul]
    linarith
  | cons b bs =>
    have hbound := h.length_mul_le hmax hweights
    have hb := (h.rows b List.mem_cons_self).weight_nonneg fun item hitem =>
      hweights item (h.mem_items List.mem_cons_self hitem)
    linarith

end Greedy

/-! ## The greatest weight of a block -/

/-- An even share of a total for each of a number of tasks, rounded up, and one if there is nothing
to share. -/
def evenShare (total : ℚ) (tasks : Nat) : ℚ := max 1 ⌈total / tasks⌉

theorem evenShare_pos (total : ℚ) (tasks : Nat) : 0 < evenShare total tasks :=
  zero_lt_one.trans_le (le_max_left _ _)

/-- As many even shares as there are tasks are enough for the total. -/
theorem le_evenShare_mul (total : ℚ) {tasks : Nat} (htasks : tasks ≠ 0) :
    total ≤ evenShare total tasks * tasks := by
  have hpos : (0 : ℚ) < tasks := by exact_mod_cast Nat.pos_of_ne_zero htasks
  rw [← div_le_iff₀ hpos]
  exact (Int.le_ceil _).trans (le_max_right _ _)

/-- A share that is rounded up to nothing counts as one. -/
theorem share_or_one (total : ℚ) (tasks : Nat) :
    (if Weight.isPositive (Weight.share total tasks) then Weight.share total tasks
      else Weight.one) = evenShare total tasks := by
  change (if Weight.isPositive (⌈total / tasks⌉ : ℚ) then (⌈total / tasks⌉ : ℚ) else 1) =
    max 1 (⌈total / tasks⌉ : ℚ)
  split
  · next hpos =>
    have hone : 1 ≤ ⌈total / tasks⌉ := by simpa using hpos
    exact (max_eq_right (by exact_mod_cast hone)).symm
  · next hzero =>
    rw [Weight.isPositive_iff, not_lt] at hzero
    exact (max_eq_left (hzero.trans zero_le_one)).symm

/-- The weight that is derived is the even share, and no more than the cap. -/
theorem maxBlockWeight_eq_ok {total : ℚ} (htotal : 0 ≤ total) {tasks : Nat} (htasks : tasks ≠ 0)
    {cap : Option ℚ} (hcap : ∀ c ∈ cap, 0 < c) :
    maxBlockWeight total tasks cap =
      .ok (cap.elim (evenShare total tasks) (min (evenShare total tasks))) := by
  have hordinary : Weight.isOrdinary total = true := Weight.isOrdinary_iff.2 htotal
  rw [maxBlockWeight, if_neg htasks]
  simp only [hordinary, share_or_one, Bool.not_true, Bool.false_eq_true, ↓reduceIte]
  cases cap with
  | none => rfl
  | some c =>
    have hpos : Weight.isPositive c = true := Weight.isPositive_iff.2 (hcap c rfl)
    simp only [hpos, ↓reduceIte, Weight.least_eq_min, Option.elim_some]

namespace Settings

section Valid

variable {W : Type} [Weight W] {s : Settings W}

theorem checkWeight_eq_ok_iff {field : String} {w : Option W} :
    checkWeight field w = .ok () ↔
      ∀ given ∈ w, Weight.isPositive given = true ∧ Weight.isFinite given = true := by
  cases w with
  | none => simp [checkWeight]
  | some given =>
    rw [checkWeight]
    split <;> simp_all

omit [Weight W] in
theorem seq_eq_ok_iff {first rest : Except RunError Unit} :
    (first >>= fun _ => rest) = .ok () ↔ first = .ok () ∧ rest = .ok () := by
  cases first with
  | error error => exact ⟨nofun, fun h => nomatch h.1⟩
  | ok => exact (and_iff_right rfl).symm

/-- Settings are valid if every check is passed. -/
theorem validate_eq_ok_iff : s.validate = .ok () ↔
    s.limit ≠ 0 ∧ s.concurrentTasks ≠ some 0 ∧
      checkWeight "max_block_weight" s.maxBlockWeight = .ok () ∧
        checkWeight "weight_cap" s.weightCap = .ok () ∧ checkSignaling s.signaling = .ok () := by
  rw [validate]
  split
  · next hlimit => exact ⟨nofun, fun h => absurd hlimit h.1⟩
  · next hlimit =>
    rw [and_iff_right hlimit]
    split
    · next htasks => exact ⟨nofun, fun h => absurd htasks h.1⟩
    · next htasks => rw [and_iff_right htasks, seq_eq_ok_iff, seq_eq_ok_iff]

/-- Work is divided into at least one task. -/
theorem effectiveTasks_ne_zero (h : s.validate = .ok ()) : s.effectiveTasks ≠ 0 := by
  obtain ⟨hlimit, htasks, -⟩ := validate_eq_ok_iff.1 h
  rw [effectiveTasks]
  cases hset : s.concurrentTasks with
  | none => exact hlimit
  | some tasks =>
    rintro rfl
    exact htasks hset

end Valid

variable {s : Settings ℚ} {total : ℚ}

/-- The cap is below the weight that would be derived without it. -/
def CapBinds (s : Settings ℚ) (total : ℚ) : Prop :=
  ∃ cap ∈ s.weightCap, cap < evenShare total s.effectiveTasks

/-- Under valid settings there is a greatest weight for every total: the given one, or an even share
up to the cap. -/
theorem blockWeight_eq_ok (h : s.validate = .ok ()) (htotal : 0 ≤ total) :
    s.blockWeight total = .ok (s.maxBlockWeight.getD
      (s.weightCap.elim (evenShare total s.effectiveTasks)
        (min (evenShare total s.effectiveTasks)))) := by
  obtain ⟨-, -, -, hcap, -⟩ := validate_eq_ok_iff.1 h
  rw [blockWeight, h]
  cases hgiven : s.maxBlockWeight with
  | some given => rfl
  | none =>
    exact maxBlockWeight_eq_ok htotal (effectiveTasks_ne_zero h) fun c hc =>
      Weight.isPositive_iff.1 (checkWeight_eq_ok_iff.1 hcap c hc).1

/-- The greatest weight under valid settings is above zero. One that is derived is not above the
cap, and unless the cap binds the tasks have room for the total. -/
theorem exists_blockWeight (h : s.validate = .ok ()) (htotal : 0 ≤ total) :
    ∃ w, s.blockWeight total = .ok w ∧ 0 < w ∧ (∀ given ∈ s.maxBlockWeight, w = given) ∧
      (s.maxBlockWeight = none → (∀ cap ∈ s.weightCap, w ≤ cap) ∧
        (¬ s.CapBinds total → total ≤ w * s.effectiveTasks)) := by
  refine ⟨_, blockWeight_eq_ok h htotal, ?_⟩
  obtain ⟨-, -, hgiven, hcap, -⟩ := validate_eq_ok_iff.1 h
  rw [checkWeight_eq_ok_iff] at hgiven hcap
  have hshare := le_evenShare_mul total (effectiveTasks_ne_zero h)
  cases hmax : s.maxBlockWeight with
  | some given =>
    refine ⟨Weight.isPositive_iff.1 (hgiven given hmax).1, ?_, nofun⟩
    rintro _ ⟨⟩
    rfl
  | none =>
    cases hset : s.weightCap with
    | none => exact ⟨evenShare_pos _ _, nofun, fun _ => ⟨nofun, fun _ => hshare⟩⟩
    | some cap =>
      have hpos : 0 < cap := Weight.isPositive_iff.1 (hcap cap hset).1
      refine ⟨lt_min (evenShare_pos _ _) hpos, nofun, fun _ => ⟨?_, ?_⟩⟩
      · rintro _ ⟨⟩
        exact min_le_right _ _
      · intro hloose
        have hle : evenShare total s.effectiveTasks ≤ cap :=
          not_lt.1 fun hlt => hloose ⟨cap, hset, hlt⟩
        simpa only [Option.getD_none, Option.elim_some, min_eq_left hle] using hshare

/-- Under valid settings items of any weights have a greatest block weight that the splitter takes.
It gives a block for each run of items with one key, and beside these no more than the greatest
weight goes twice into the total, and thus than there are tasks, twice, if it is an even share. -/
theorem blocks_bounded [PartialEquivBEq κ] (hvalid : s.validate = .ok ()) {items : List ι}
    {weightOf : ι → ℚ} (keyOf : ι → κ) (hweights : ∀ item ∈ items, 0 ≤ weightOf item) :
    let total := totalWeight weightOf items
    ∃ w splitter, s.blockWeight total = .ok w ∧ 0 < w ∧
      (∀ given ∈ s.maxBlockWeight, w = given) ∧
      (s.maxBlockWeight = none → (∀ cap ∈ s.weightCap, w ≤ cap) ∧
        (¬ s.CapBinds total → total ≤ w * s.effectiveTasks)) ∧
      Splitter.of (items.map some) w weightOf keyOf = .ok splitter ∧
      splitter.Drains splitter.blocks ∧
      (splitter.blocks.length : ℚ) ≤ runCount keyOf items + 2 * total / w ∧
      (s.maxBlockWeight = none → ¬ s.CapBinds total →
        splitter.blocks.length ≤ runCount keyOf items + 2 * s.effectiveTasks) := by
  intro total
  obtain ⟨w, hw, hpos, hgiven, hderived⟩ :=
    exists_blockWeight hvalid (totalWeight_nonneg hweights)
  obtain ⟨splitter, hsplitter, hdrains, hgreedy⟩ :=
    Splitter.exists_of_eq_ok hpos weightOf keyOf items
  have hlength := hgreedy.length_le_runCount hpos hweights
  refine ⟨w, splitter, hw, hpos, hgiven, hderived, hsplitter, hdrains, hlength, ?_⟩
  intro hnone hloose
  have hshares : 2 * total / w ≤ 2 * s.effectiveTasks := by
    rw [div_le_iff₀ hpos]
    linarith [(hderived hnone).2 hloose]
  exact_mod_cast hlength.trans (add_le_add_right hshares _)

/-- Two tasks share a total of ten, which the cap just allows. An item of the greatest weight leaves
no room for the ones beside it, and two items that weigh nothing are of another group. -/
theorem blocks_bounded_of_twoTasks :
    let weightOf : Nat → ℚ := fun n => [1, 5, 1, 3, 0, 0].getD n 0
    let keyOf : Nat → Bool := fun n => n < 4
    let s : Settings ℚ := { usual 8 with concurrentTasks := some 2, weightCap := some 5 }
    let splitter : Splitter Nat Bool ℚ :=
      ⟨(List.range 6).map some, 5, weightOf, keyOf, none, 0, 0⟩
    s.validate = .ok () ∧ (∀ item ∈ List.range 6, 0 ≤ weightOf item) ∧
      s.maxBlockWeight = none ∧ ¬ s.CapBinds (totalWeight weightOf (List.range 6)) ∧
      s.blockWeight (totalWeight weightOf (List.range 6)) = .ok 5 ∧
      splitter.blocks.map (·.items) = [#[0], #[1], #[2, 3], #[4, 5]] ∧
      splitter.blocks.length ≤ runCount keyOf (List.range 6) + 2 * 2 := by
  intro weightOf keyOf s splitter
  have hvalid : s.validate = .ok () := by
    have hcap : checkWeight "weight_cap" (some (5 : ℚ)) = .ok () :=
      checkWeight_eq_ok_iff.2 (by simp)
    have hsignaling : checkSignaling .usual = .ok () := rfl
    exact validate_eq_ok_iff.2 ⟨by decide, by decide, rfl, hcap, hsignaling⟩
  have hweights : ∀ item ∈ List.range 6, 0 ≤ weightOf item := by decide +kernel
  have htotal : totalWeight weightOf (List.range 6) = 10 := by decide +kernel
  have hloose : ¬ s.CapBinds (totalWeight weightOf (List.range 6)) := by
    rintro ⟨cap, ⟨⟩, hlt⟩
    rw [htotal] at hlt
    exact absurd hlt (by decide +kernel)
  have hweight : s.blockWeight (totalWeight weightOf (List.range 6)) = .ok 5 := by
    have hshare : evenShare 10 2 = 5 := by norm_num [evenShare]
    have hten : (0 : ℚ) ≤ 10 := by norm_num
    rw [htotal, blockWeight_eq_ok hvalid hten]
    exact congrArg Except.ok (show min (evenShare 10 2) 5 = 5 by rw [hshare, min_self])
  obtain ⟨w, t, hw, -, -, -, ht, -, -, hbound⟩ := blocks_bounded hvalid keyOf hweights
  obtain rfl : w = 5 := Except.ok.inj (hw.symm.trans hweight)
  obtain rfl := Splitter.eq_of_of_eq_ok ht
  exact ⟨hvalid, hweights, rfl, hloose, hweight, by decide +kernel, hbound rfl hloose⟩

end Settings

end BatchRun
