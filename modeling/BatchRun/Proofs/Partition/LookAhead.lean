import BatchRun.Proofs.Partition.Greedy

/-!
# Reading one item ahead

A splitter can be asked for blocks one at a time, and whoever asks may stop at any moment. What
counts then is not the partition as a whole but what a call leaves behind: no item is lost between
the blocks that were returned and the one that is being filled, and no item is read that was not
needed to close a block.

A source is known by its answers. It may answer with items again after it has answered with
nothing, and it may go on for ever: of such a source a list has the first answers, and the calls
that return without having heard the end of it are the same for every other way to go on.

Weights and keys are arbitrary, as no step adds or compares anything that matters here.

## Main definitions

* `itemsOf`: the items of a source up to its first nothing
* `Splitter.after`, `Splitter.result`, `Splitter.returned`: a number of calls
* `Splitter.Takes`: items that go into a block and do not close it
* `Splitter.LooksAhead`: what is true between two calls

## Main results

* `Splitter.next_cases`: a call closes a block at a boundary, or hears nothing
* `Splitter.looksAhead`: a splitter reads no further than it needs to, whenever it is asked
-/

namespace BatchRun

variable {ι κ W : Type}

/-- The items of a source up to its first nothing. -/
def itemsOf : List (Option ι) → List ι
  | some item :: rest => item :: itemsOf rest
  | _ => []

theorem itemsOf_append (items : List ι) (rest : List (Option ι)) :
    itemsOf (items.map some ++ rest) = items ++ itemsOf rest := by
  induction items with
  | nil => rfl
  | cons item items ih => rw [List.map_cons, List.cons_append, itemsOf, ih, List.cons_append]

namespace Splitter

/-- The splitter with other answers still to be given. -/
def withSource (s : Splitter ι κ W) (source : List (Option ι)) : Splitter ι κ W := { s with source }

/-! ## Accounts of what was read -/

/-- The items that were read are those of the blocks that were returned and of the one that is
being filled, and the counts are right. -/
structure Accounts (read : List ι) (blocks : List (Block ι κ W)) (s : Splitter ι κ W) : Prop where
  items_eq : ((blocks ++ s.filling.toList).flatMap fun b => b.items.toList) = read
  pulled_eq : s.pulled = read.length
  started_eq : s.started = blocks.length + s.filling.toList.length

namespace Accounts

variable {s : Splitter ι κ W} {read : List ι} {blocks : List (Block ι κ W)}

theorem begin (h : Accounts read blocks s) (hfilling : s.filling = none) (item : ι) :
    Accounts (read ++ [item]) blocks (s.begin item) where
  items_eq := by simp [← h.items_eq, hfilling, Splitter.begin, Block.start]
  pulled_eq := by rw [Splitter.begin, h.pulled_eq, List.length_append, List.length_singleton]
  started_eq := by simp [Splitter.begin, h.started_eq, hfilling]

theorem extend [Weight W] (h : Accounts read blocks s) {b : Block ι κ W}
    (hfilling : s.filling = some b) (item : ι) :
    Accounts (read ++ [item]) blocks (s.extend b item) where
  items_eq := by simp [← h.items_eq, hfilling, Splitter.extend, Block.push]
  pulled_eq := by rw [Splitter.extend, h.pulled_eq, List.length_append, List.length_singleton]
  started_eq := by simp [Splitter.extend, h.started_eq, hfilling]

/-- Handing out the block that is being filled moves its items and loses none. -/
theorem handOut (h : Accounts read blocks s) :
    Accounts read (blocks ++ s.filling.toList) { s with filling := none } where
  items_eq := by simp [← h.items_eq]
  pulled_eq := h.pulled_eq
  started_eq := by simp [h.started_eq]

theorem withSource (h : Accounts read blocks s) (source : List (Option ι)) :
    Accounts read blocks (s.withSource source) :=
  ⟨h.items_eq, h.pulled_eq, h.started_eq⟩

/-- What was read is known by the number of items. -/
theorem take_pulled (h : Accounts read blocks s) {items : List ι} (hread : read <+: items) :
    items.take s.pulled = read ∧ s.pulled ≤ items.length := by
  rw [h.pulled_eq]
  exact ⟨(List.prefix_iff_eq_take.1 hread).symm, hread.length_le⟩

end Accounts

variable [Weight W] [BEq κ]

/-- The splitter after a number of calls. -/
def after (s : Splitter ι κ W) : Nat → Splitter ι κ W
  | 0 => s
  | n + 1 => (s.after n).next.2

/-- What the call gives that follows a number of calls. -/
def result (s : Splitter ι κ W) (n : Nat) : Option (Block ι κ W) := (s.after n).next.1

/-- The blocks that a number of calls have returned. -/
def returned (s : Splitter ι κ W) : Nat → List (Block ι κ W)
  | 0 => []
  | n + 1 => s.returned n ++ (s.result n).toList

/-! ## What a call reads -/

/-- Items go into the block that is being filled, one after the other, and none of them closes
it. -/
inductive Takes : Splitter ι κ W → List ι → Splitter ι κ W → Prop
  | nothing (s : Splitter ι κ W) : Takes s [] s
  | first {s s' : Splitter ι κ W} {item : ι} {items : List ι} (hfilling : s.filling = none)
      (hrest : Takes (s.begin item) items s') : Takes s (item :: items) s'
  | further {s s' : Splitter ι κ W} {b : Block ι κ W} {item : ι} {items : List ι}
      (hfilling : s.filling = some b) (hfits : s.fits b item = true)
      (hrest : Takes (s.extend b item) items s') : Takes s (item :: items) s'

/-- Answers of which the first ends a call: there is nothing, or it is an item that does not fit. -/
inductive Stops (s : Splitter ι κ W) : List (Option ι) → Prop
  | unanswered : Stops s []
  | nothing (rest : List (Option ι)) : Stops s (none :: rest)
  | closed {b : Block ι κ W} {item : ι} (hfilling : s.filling = some b)
      (hfits : s.fits b item = false) (rest : List (Option ι)) : Stops s (some item :: rest)

variable {s s' : Splitter ι κ W} {items : List ι}

/-- Whatever the answers are, some of them go into the block until one of them ends the call. -/
theorem exists_takes (s : Splitter ι κ W) (answers : List (Option ι)) :
    ∃ items s' rest, answers = items.map some ++ rest ∧ Takes s items s' ∧ Stops s' rest := by
  induction answers generalizing s with
  | nil => exact ⟨[], s, [], rfl, .nothing s, .unanswered⟩
  | cons answer answers ih =>
    cases answer with
    | none => exact ⟨[], s, _, rfl, .nothing s, .nothing answers⟩
    | some item =>
      cases hfilling : s.filling with
      | none =>
        obtain ⟨items, s', rest, rfl, htakes, hstops⟩ := ih (s.begin item)
        exact ⟨item :: items, s', rest, rfl, .first hfilling htakes, hstops⟩
      | some b =>
        cases hfits : s.fits b item with
        | true =>
          obtain ⟨items, s', rest, rfl, htakes, hstops⟩ := ih (s.extend b item)
          exact ⟨item :: items, s', rest, rfl, .further hfilling hfits htakes, hstops⟩
        | false => exact ⟨[], s, _, rfl, .nothing s, .closed hfilling hfits answers⟩

namespace Takes

/-- A call goes on behind the items that are taken. -/
theorem nextFrom_append (h : Takes s items s') (answers : List (Option ι)) :
    s.nextFrom (items.map some ++ answers) = s'.nextFrom answers := by
  induction h with
  | nothing s => rfl
  | first hfilling _ ih => rw [List.map_cons, List.cons_append, nextFrom, hfilling, ih]
  | further hfilling hfits _ ih =>
    rw [List.map_cons, List.cons_append, nextFrom_of_fits hfilling hfits, ih]

/-- All that is taken goes into the accounts. -/
theorem accounts (h : Takes s items s') {read : List ι} {blocks : List (Block ι κ W)}
    (hread : Accounts read blocks s) : Accounts (read ++ items) blocks s' := by
  induction h generalizing read with
  | nothing s => rwa [List.append_nil]
  | first hfilling _ ih =>
    rw [List.append_cons]
    exact ih (hread.begin hfilling _)
  | further hfilling _ _ ih =>
    rw [List.append_cons]
    exact ih (hread.extend hfilling _)

/-- The block that is being filled only grows. -/
theorem exists_filling (h : Takes s items s') {b : Block ι κ W} (hfilling : s.filling = some b) :
    ∃ c, s'.filling = some c ∧ b.items.toList <+: c.items.toList := by
  induction h generalizing b with
  | nothing s => exact ⟨b, hfilling, List.prefix_rfl⟩
  | first hnone _ ih => rw [hnone] at hfilling; cases hfilling
  | @further s s' b' item items hsome _ _ ih =>
    obtain rfl := Option.some.inj (hsome.symm.trans hfilling)
    obtain ⟨c, hc, hgrows⟩ := ih (b := b'.push item (s.weightOf item)) rfl
    refine ⟨c, hc, List.IsPrefix.trans ⟨[item], ?_⟩ hgrows⟩
    simp [Block.push]

/-- Taking items leaves alone what decides whether an item fits. -/
theorem fits_eq (h : Takes s items s') : s'.fits = s.fits := by
  induction h with
  | nothing s => rfl
  | first _ _ ih => exact ih
  | further _ _ _ ih => exact ih

/-- A call returns the block that is being filled once it hears of an item that does not fit, and
has heard nothing of what comes behind. -/
theorem next_of_closed (h : Takes s items s') {b : Block ι κ W} {item : ι}
    (hfilling : s'.filling = some b) (hfits : s'.fits b item = false) (rest : List (Option ι)) :
    (s.withSource (items.map some ++ some item :: rest)).next =
      (some b, (s'.begin item).withSource rest) := by
  rw [next, withSource, nextFrom_source, h.nextFrom_append, nextFrom_of_not_fits hfilling hfits,
    withSource]

/-- A call that hears nothing returns the block that is being filled, if there is one. -/
theorem next_of_nothing (h : Takes s items s') {answers : List (Option ι)}
    (hanswers : itemsOf answers = []) :
    (s.withSource (items.map some ++ answers)).next =
      (s'.filling, { s' with source := [], filling := none }) := by
  rw [next, withSource, nextFrom_source, h.nextFrom_append]
  cases answers with
  | nil => rfl
  | cons answer answers =>
    cases answer with
    | none => rfl
    | some item => cases hanswers

end Takes

/-- A call takes items until it closes a block at a boundary, or until it hears nothing. -/
theorem next_cases (s : Splitter ι κ W) : ∃ items s', Takes s items s' ∧
    ((∃ b item rest, s.source = items.map some ++ some item :: rest ∧ s'.filling = some b ∧
        s'.fits b item = false ∧ s.next = (some b, (s'.begin item).withSource rest)) ∨
      (itemsOf s.source = items ∧
        s.next = (s'.filling, { s' with source := [], filling := none }))) := by
  obtain ⟨items, s', rest, hsource, htakes, hstops⟩ := exists_takes s s.source
  refine ⟨items, s', htakes, ?_⟩
  have hnothing (hrest : itemsOf rest = []) : itemsOf s.source = items ∧
      s.next = (s'.filling, { s' with source := [], filling := none }) := by
    constructor
    · rw [hsource, itemsOf_append, hrest, List.append_nil]
    · rw [← htakes.next_of_nothing hrest, ← hsource]
      rfl
  cases hstops with
  | unanswered => exact .inr (hnothing rfl)
  | nothing rest => exact .inr (hnothing rfl)
  | closed hfilling hfits rest =>
    refine .inl ⟨_, _, rest, hsource, hfilling, hfits, ?_⟩
    rw [← htakes.next_of_closed hfilling hfits, ← hsource]
    rfl

/-- The block that is being filled is what a call returns, with all that it takes. -/
theorem next_of_filling {b : Block ι κ W} (hb : s.filling = some b) :
    ∃ c, s.next.1 = some c ∧ b.items.toList <+: c.items.toList := by
  obtain ⟨items, s', htakes, hcall⟩ := s.next_cases
  obtain ⟨c, hc, hgrows⟩ := htakes.exists_filling hb
  refine ⟨c, ?_, hgrows⟩
  obtain ⟨b', item, rest, -, hfilling, -, hnext⟩ | ⟨-, hnext⟩ := hcall
  · rw [hnext, ← hfilling, hc]
  · rw [hnext, hc]

/-- Behind a call a block is being filled only if the call has closed one, and then it has the item
that did not fit. -/
theorem next_of_filling_next {c : Block ι κ W} (hc : s.next.2.filling = some c) :
    ∃ b item, s.next.1 = some b ∧ s.fits b item = false ∧ c.items = #[item] := by
  obtain ⟨items, s', htakes, ⟨b, item, rest, -, -, hfits, hnext⟩ | ⟨-, hnext⟩⟩ := s.next_cases
  · refine ⟨b, item, by rw [hnext], by rw [← htakes.fits_eq, hfits], ?_⟩
    rw [hnext] at hc
    rw [← Option.some.inj hc]
    rfl
  · rw [hnext] at hc
    cases hc

/-- What decides whether an item fits is the same behind every call. -/
theorem fits_after (s : Splitter ι κ W) (n : Nat) : (s.after n).fits = s.fits := by
  induction n with
  | zero => rfl
  | succ n ih =>
    obtain ⟨items, s', htakes, ⟨b, item, rest, -, -, -, hnext⟩ | ⟨-, hnext⟩⟩ :=
      (s.after n).next_cases
    all_goals
      rw [after, hnext, ← ih, ← htakes.fits_eq]
      rfl

/-! ## Between two calls -/

/-- After a number of calls only items were heard, and one of them is in a block that is being
filled, unless nothing was asked yet. -/
structure Underway (s : Splitter ι κ W) (n : Nat) (read : List ι) : Prop where
  accounts : Accounts read (s.returned n) (s.after n)
  source_eq : s.source = read.map some ++ (s.after n).source
  /-- What was not heard makes no difference. -/
  withSource_eq (rest : List (Option ι)) :
    (s.withSource (read.map some ++ rest)).after n = (s.after n).withSource rest ∧
      (s.withSource (read.map some ++ rest)).returned n = s.returned n
  isSome_filling : n ≠ 0 → (s.after n).filling.isSome

/-- After a number of calls the source has answered with nothing. -/
structure Exhausted (s : Splitter ι κ W) (n : Nat) (read : List ι) : Prop where
  accounts : Accounts read (s.returned n) (s.after n)
  items_eq : itemsOf s.source = read
  source_eq : (s.after n).source = []
  filling_eq : (s.after n).filling = none

variable {s t : Splitter ι κ W} {n : Nat} {read : List ι}

namespace Underway

theorem prefix_itemsOf (h : Underway s n read) : read <+: itemsOf s.source := by
  rw [h.source_eq, itemsOf_append]
  exact List.prefix_append _ _

/-- A call that closes a block at a boundary has read what it took and the item that did not
fit. -/
theorem close (h : Underway s n read) (htakes : Takes (s.after n) items t) {b : Block ι κ W}
    {item : ι} {rest : List (Option ι)}
    (hsource : (s.after n).source = items.map some ++ some item :: rest)
    (hfilling : t.filling = some b) (hfits : t.fits b item = false) :
    Underway s (n + 1) (read ++ items ++ [item]) := by
  have hnext := htakes.next_of_closed hfilling hfits
  have hcall : (s.after n).next = (some b, (t.begin item).withSource rest) := by
    rw [← hnext rest, ← hsource]
    rfl
  have hafter : s.after (n + 1) = (t.begin item).withSource rest := by rw [after, hcall]
  have hreturned : s.returned (n + 1) = s.returned n ++ t.filling.toList := by
    rw [returned, result, hcall, hfilling]
  refine ⟨?_, ?_, ?_, ?_⟩
  · rw [hafter, hreturned]
    exact ((htakes.accounts h.accounts).handOut.begin rfl item).withSource rest
  · rw [h.source_eq, hsource, hafter, withSource]
    simp
  · intro rest'
    -- with other answers behind the item that did not fit, the call does the same
    obtain ⟨hsame, hreturned'⟩ := h.withSource_eq (items.map some ++ some item :: rest')
    have hlist : (read ++ items ++ [item]).map some ++ rest' =
        read.map some ++ (items.map some ++ some item :: rest') := by simp
    rw [hlist, after, returned, result, hsame, hreturned', hnext, hafter, hreturned, hfilling]
    exact ⟨rfl, rfl⟩
  · intro _
    rw [hafter]
    rfl

/-- A call that hears nothing has read what it took, and these were the last items. -/
theorem exhaust (h : Underway s n read) (htakes : Takes (s.after n) items t)
    (hitems : itemsOf (s.after n).source = items)
    (hnext : (s.after n).next = (t.filling, { t with source := [], filling := none })) :
    Exhausted s (n + 1) (read ++ items) := by
  have hafter : s.after (n + 1) = { t with source := [], filling := none } := by rw [after, hnext]
  refine ⟨?_, ?_, ?_, ?_⟩
  · rw [hafter, returned, result, hnext]
    exact (htakes.accounts h.accounts).handOut.withSource []
  · rw [h.source_eq, itemsOf_append, hitems]
  · rw [hafter]
  · rw [hafter]

end Underway

namespace Exhausted

/-- Nothing is asked, read or returned any more. -/
theorem next_eq (h : Exhausted s n read) : (s.after n).next = (none, s.after n) := by
  rw [next, h.source_eq, nextFrom, h.filling_eq]
  congr 1
  rw [← h.source_eq, ← h.filling_eq]

theorem after_add (h : Exhausted s n read) (m : Nat) :
    s.after (n + m) = s.after n ∧ s.result (n + m) = none := by
  have hafter : s.after (n + m) = s.after n := by
    induction m with
    | zero => rfl
    | succ m ih => rw [← Nat.add_assoc, after, ih, h.next_eq]
  exact ⟨hafter, by rw [result, hafter, h.next_eq]⟩

theorem step (h : Exhausted s n read) : Exhausted s (n + 1) read := by
  obtain ⟨hafter, -⟩ := h.after_add 1
  have hnone : s.result n = none := (h.after_add 0).2
  refine ⟨?_, h.items_eq, ?_, ?_⟩
  · rw [hafter, returned, hnone, Option.toList_none, List.append_nil]
    exact h.accounts
  · rw [hafter, h.source_eq]
  · rw [hafter, h.filling_eq]

end Exhausted

/-- A splitter that has read nothing is underway. -/
theorem underway_zero {source : List (Option ι)} {maxWeight : W} {weightOf : ι → W} {keyOf : ι → κ}
    (h : of source maxWeight weightOf keyOf = .ok s) : Underway s 0 [] := by
  obtain rfl := eq_of_of_eq_ok h
  exact ⟨⟨rfl, rfl, rfl⟩, rfl, fun _ => ⟨rfl, rfl⟩, fun hn => absurd rfl hn⟩

/-- A new splitter is underway until its source has answered with nothing. -/
theorem exists_underway_or_exhausted {source : List (Option ι)} {maxWeight : W} {weightOf : ι → W}
    {keyOf : ι → κ} (h : of source maxWeight weightOf keyOf = .ok s) (n : Nat) :
    ∃ read, Underway s n read ∨ Exhausted s n read := by
  induction n with
  | zero => exact ⟨[], .inl (underway_zero h)⟩
  | succ n ih =>
    obtain ⟨read, hunderway | hexhausted⟩ := ih
    · obtain ⟨items, t, htakes, ⟨b, item, rest, hsource, hfilling, hfits, -⟩ | ⟨hitems, hnext⟩⟩ :=
        next_cases (s.after n)
      · exact ⟨_, .inl (hunderway.close htakes hsource hfilling hfits)⟩
      · exact ⟨_, .inr (hunderway.exhaust htakes hitems hnext)⟩
    · exact ⟨read, .inr hexhausted.step⟩

/-- At any time the accounts are right, and what was read are the first items. -/
theorem exists_accounts {source : List (Option ι)} {maxWeight : W} {weightOf : ι → W}
    {keyOf : ι → κ} (h : of source maxWeight weightOf keyOf = .ok s) (n : Nat) :
    ∃ read, Accounts read (s.returned n) (s.after n) ∧ read <+: itemsOf s.source := by
  obtain ⟨read, hunderway | hexhausted⟩ := exists_underway_or_exhausted h n
  · exact ⟨read, hunderway.accounts, hunderway.prefix_itemsOf⟩
  · exact ⟨read, hexhausted.accounts, hexhausted.items_eq ▸ List.prefix_rfl⟩

/-- What is true of a splitter that was asked a number of times, and what the next call does. -/
structure LooksAhead (source : List (Option ι)) (s : Splitter ι κ W) (n : Nat) : Prop where
  /-- The items of the blocks that were returned, followed by those of the block that is being
  filled, are the items that were read, in their order. -/
  items_eq : ((s.returned n ++ (s.after n).filling.toList).flatMap fun b => b.items.toList) =
    (itemsOf source).take (s.after n).pulled
  /-- No more is read than the items up to the first nothing. -/
  pulled_le : (s.after n).pulled ≤ (itemsOf source).length
  started_eq : (s.after n).started = (s.returned n).length + (s.after n).filling.toList.length
  /-- The block that is being filled is what the next call returns, with all that it takes. -/
  pending {b : Block ι κ W} (hb : (s.after n).filling = some b) :
    ∃ c, s.result n = some c ∧ b.items.toList <+: c.items.toList
  /-- A call behind which a block is being filled has closed one at a boundary. Beyond the blocks
  that are returned by then it has read one item, the one that did not fit. -/
  ahead {c : Block ι κ W} (hc : (s.after (n + 1)).filling = some c) :
    ∃ b item, s.result n = some b ∧ s.fits b item = false ∧ c.items = #[item] ∧
      (s.after (n + 1)).pulled =
        ((s.returned (n + 1)).flatMap fun b => b.items.toList).length + 1
  /-- As long as a block is being filled, nothing but the items that were read was heard of the
  source: whatever it answers behind them, with items, with nothing or without end, the calls are
  the same and leave it to be heard. -/
  unheard (hfilling : (s.after n).filling.isSome) (rest : List (Option ι)) :
    let t := s.withSource (((itemsOf source).take (s.after n).pulled).map some ++ rest)
    t.after n = (s.after n).withSource rest ∧ t.returned n = s.returned n
  /-- If no block is being filled behind a call, the source has answered with nothing: all items
  up to there were read, no later call reads anything, and each of them returns nothing. -/
  exhausted (hn : n ≠ 0) (hfilling : (s.after n).filling = none) :
    (s.after n).pulled = (itemsOf source).length ∧
      ∀ m, s.after (n + m) = s.after n ∧ s.result (n + m) = none

/-- Whatever the source answers, and whenever the splitter is asked, it loses no item, reads no
further than it needs to, and asks nothing more behind the first nothing. -/
theorem looksAhead {source : List (Option ι)} {maxWeight : W} {weightOf : ι → W} {keyOf : ι → κ}
    (h : of source maxWeight weightOf keyOf = .ok s) (n : Nat) :
    LooksAhead source s n := by
  obtain rfl : source = s.source := by rw [eq_of_of_eq_ok h]
  have hstands := exists_underway_or_exhausted h
  obtain ⟨read, haccounts, hread⟩ := exists_accounts h n
  obtain ⟨htake, hle⟩ := haccounts.take_pulled hread
  refine ⟨?_, hle, haccounts.started_eq, next_of_filling, ?_, ?_, ?_⟩
  · rw [htake, haccounts.items_eq]
  · intro c hc
    obtain ⟨b, item, hb, hfits, hitems⟩ := next_of_filling_next hc
    obtain ⟨read, haccounts, -⟩ := exists_accounts h (n + 1)
    refine ⟨b, item, hb, by rw [← s.fits_after n, hfits], hitems, ?_⟩
    rw [haccounts.pulled_eq, ← haccounts.items_eq, hc]
    simp [hitems]
  · intro hsome rest
    obtain ⟨read, hunderway | hexhausted⟩ := hstands n
    · rw [(hunderway.accounts.take_pulled hunderway.prefix_itemsOf).1]
      exact hunderway.withSource_eq rest
    · rw [hexhausted.filling_eq] at hsome
      cases hsome
  · intro hn hnone
    obtain ⟨read, hunderway | hexhausted⟩ := hstands n
    · have hsome := hunderway.isSome_filling hn
      rw [hnone] at hsome
      cases hsome
    · exact ⟨by rw [hexhausted.accounts.pulled_eq, hexhausted.items_eq], hexhausted.after_add⟩

/-- A source that goes on behind its first nothing: of two items that do not fit together one is
read ahead, and the third one, which would be answered later, is never read. -/
theorem looksAhead_of_reopened :
    let source : List (Option Nat) := [some 0, some 1, none, some 2]
    let weightOf : Nat → Float := fun n => [2.0, 2.0, 1.0].getD n 0.0
    let s : Splitter Nat Unit Float := ⟨source, 3.0, weightOf, fun _ => (), none, 0, 0⟩
    of source 3.0 weightOf (fun _ => ()) = .ok s ∧
      (s.returned 1).map (·.items) = [#[0]] ∧ (s.after 1).pulled = 2 ∧
      (s.returned 4).map (·.items) = [#[0], #[1]] ∧ (s.after 4).pulled = 2 ∧
      LooksAhead source s 1 ∧ LooksAhead source s 4 := by
  intro source weightOf s
  have hs : of source 3.0 weightOf (fun _ => ()) = .ok s := if_pos (by decide)
  exact ⟨hs, by decide, by decide, by decide, by decide, looksAhead hs 1, looksAhead hs 4⟩

end Splitter

end BatchRun
