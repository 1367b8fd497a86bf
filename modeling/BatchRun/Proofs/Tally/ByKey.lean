import BatchRun.Proofs.Tally.Concurrent

/-!
# The history of a key

Values reach a key of a tally in many ways: alone, in a list of entries, in another tally, or
through its place in the tally. All of them come to one row of merges for each key, which begins
with the neutral value and has what was given for that key, in the order of the operations. Another
tally gives one value for each of its keys, so that it does not matter in which order its entries
come. Nothing is asked of the values here: no law of merging is needed.

So a tally is known by its history: it has the keys that were touched, and each of them has what
comes of its row. And there is such a tally exactly if no row of a key ends in a fault.

## Main definitions

* `Tally.Operation`, `Tally.Operation.Does`: what can be done to a tally, and what it does
* `Tally.Came`: tallies that are made and then changed
* `Tally.Folds`: what is given is merged into what is there, key by key

## Main results

* `Tally.Folds.of_mergeEntries`: a row of merges, key by key
* `Tally.Operation.does_iff`: what an operation does, key by key
* `Tally.came_iff`: a tally is the history of its keys
-/

namespace BatchRun.Tally

open Std Mergeable

/-- What can be done to a tally. -/
inductive Operation (κ β : Type) [Ord κ] where
  /-- Look at the value of a key. -/
  | look (k : κ)
  /-- Go to the place of a key, and leave what is there. -/
  | touch (k : κ)
  /-- Go to the place of a key, and merge a value into what is there. -/
  | mergeAt (k : κ) (delta : β)
  /-- Merge a value into a key. -/
  | mergeInto (k : κ) (delta : β)
  /-- Merge the values of entries, in which several may have one key. -/
  | mergeEntries (entries : List (κ × β))
  /-- Merge every value of another tally. -/
  | mergeTally (other : Tally κ β)

namespace Operation

variable {κ β : Type} [Ord κ]

/-- Whether an operation touches a key. -/
def Touches (k : κ) : Operation κ β → Prop
  | look _ => False
  | touch k' | mergeAt k' _ | mergeInto k' _ => k = k'
  | mergeEntries entries => k ∈ entries.map Prod.fst
  | mergeTally other => other.contains k

/-- What an operation gives for a key, in its order. Another tally gives its own value, once. -/
def deltasFor (k : κ) : Operation κ β → List β
  | look _ | touch _ => []
  | mergeAt k' delta | mergeInto k' delta => deltasOf k [(k', delta)]
  | mergeEntries entries => deltasOf k entries
  | mergeTally other => (other.get? k).toList

/-- An operation that does not fault makes one tally of another. The entries of a tally that is
merged come in any order. -/
inductive Does [TransOrd κ] [Mergeable β] (t : Tally κ β) : Operation κ β → Tally κ β → Prop
  | look (k : κ) : Does t (.look k) t
  | touch (k : κ) : Does t (.touch k) (t.touch k)
  | mergeAt {k : κ} {delta : β} {u : Tally κ β} (h : (t.touch k).mergeInto k delta = .ok u) :
      Does t (.mergeAt k delta) u
  | mergeInto {k : κ} {delta : β} {u : Tally κ β} (h : t.mergeInto k delta = .ok u) :
      Does t (.mergeInto k delta) u
  | mergeEntries {entries : List (κ × β)} {u : Tally κ β} (h : t.mergeEntries entries = .ok u) :
      Does t (.mergeEntries entries) u
  | mergeTally {other u : Tally κ β} {row : List (κ × β)} (hrow : row.Perm other.entries)
      (h : t.mergeEntries row = .ok u) : Does t (.mergeTally other) u

end Operation

/-- A tally that was made empty or of entries, and changed by operations since. Entries that it is
made of count as the first operation. -/
inductive Came {κ β : Type} [Ord κ] [TransOrd κ] [Mergeable β] :
    List (Operation κ β) → Tally κ β → Prop
  | empty : Came [] .empty
  | collect {entries : List (κ × β)} {t : Tally κ β} (h : collect entries = .ok t) :
      Came [.mergeEntries entries] t
  | change {ops : List (Operation κ β)} {op : Operation κ β} {t u : Tally κ β} (h : Came ops t)
      (hop : op.Does t u) : Came (ops ++ [op]) u

/-- One tally comes of another one when some keys are touched, and what is given for each key is
merged into what is there, one after the other. -/
structure Folds {κ β : Type} [Ord κ] [Mergeable β] (t u : Tally κ β) (touched : κ → Prop)
    (given : κ → List β) : Prop where
  contains_iff (k : κ) : u.contains k ↔ t.contains k ∨ touched k
  get_eq (k : κ) : (given k).foldlM merge (t.get k) = .ok (u.get k)

variable {κ β : Type} [Ord κ] [TransOrd κ] [LawfulEqOrd κ]

section Deltas

variable {k k' : κ} {delta : β} {entries : List (κ × β)}

omit [LawfulEqOrd κ] in
theorem deltasOf_cons_self (k : κ) (delta : β) (entries : List (κ × β)) :
    deltasOf k ((k, delta) :: entries) = delta :: deltasOf k entries :=
  deltasOf_cons_of_eq ReflOrd.compare_self delta entries

omit [TransOrd κ] in
theorem deltasOf_cons_of_ne (h : k ≠ k') (delta : β) (entries : List (κ × β)) :
    deltasOf k ((k', delta) :: entries) = deltasOf k entries :=
  deltasOf_cons_of_compare_ne (mt Std.compare_eq_iff_eq.1 h) delta entries

omit [TransOrd κ] in
theorem deltasOf_eq_nil (h : k ∉ entries.map Prod.fst) : deltasOf k entries = [] := by
  rw [deltasOf, List.map_eq_nil_iff, List.filter_eq_nil_iff]
  intro e he
  have hne : k ≠ e.1 := fun heq => h (heq ▸ List.mem_map_of_mem he)
  simpa using hne

/-- The entries of a tally have one value for each of its keys, in whichever order they come. -/
theorem deltasOf_of_perm {t : Tally κ β} (h : entries.Perm t.entries) (k : κ) :
    deltasOf k entries = (t.get? k).toList := by
  have hperm : (deltasOf k entries).Perm (deltasOf k t.entries) := (h.filter _).map _
  suffices hsorted : deltasOf k t.entries = (t.get? k).toList by
    rw [hsorted] at hperm
    cases hvalue : t.get? k with
    | none => rw [hvalue] at hperm; exact List.perm_nil.1 hperm
    | some v => rw [hvalue] at hperm; exact List.perm_singleton.1 hperm
  cases hvalue : t.get? k with
  | none => exact deltasOf_eq_nil ((notMem_keys_iff_get? (.refl t.entries)).2 hvalue)
  | some v =>
    -- the key is in one entry only
    obtain ⟨before, after, hentries⟩ :=
      List.append_of_mem ((mem_iff_get? (.refl t.entries)).2 hvalue)
    have hnodup := nodup_keys (.refl t.entries)
    rw [hentries, List.map_append, List.map_cons, List.nodup_append, List.nodup_cons] at hnodup
    obtain ⟨-, ⟨hafter, -⟩, hbefore⟩ := hnodup
    have hnone : k ∉ before.map Prod.fst := fun hk => hbefore k hk k List.mem_cons_self rfl
    have hsplit : deltasOf k (before ++ (k, v) :: after) =
        deltasOf k before ++ deltasOf k ((k, v) :: after) := by
      simp only [deltasOf, List.filter_append, List.map_append]
    rw [hentries, hsplit, deltasOf_eq_nil hnone, deltasOf_cons_self, deltasOf_eq_nil hafter]
    rfl

end Deltas

variable [Mergeable β] {t u w : Tally κ β} {entries : List (κ × β)}

section Folds

variable {touched touched' : κ → Prop} {given given' : κ → List β}

/-- What comes of a fold is known key by key. -/
theorem Folds.unique (hu : Folds t u touched given) (hw : Folds t w touched given) : u = w := by
  refine eq_of_keys (Set.ext fun k => ?_) fun k => ?_
  · exact (hu.contains_iff k).trans (hw.contains_iff k).symm
  · exact Except.ok.inj ((hu.get_eq k).symm.trans (hw.get_eq k))

omit [TransOrd κ] [LawfulEqOrd κ] in
/-- After one fold comes the next one. -/
theorem Folds.trans (h : Folds t u touched given) (h' : Folds u w touched' given') :
    Folds t w (fun k => touched k ∨ touched' k) fun k => given k ++ given' k where
  contains_iff k := by rw [h'.contains_iff, h.contains_iff, or_assoc]
  get_eq k := by
    rw [List.foldlM_append, h.get_eq]
    exact h'.get_eq k

theorem get_set_self (t : Tally κ β) (k : κ) (v : β) : (t.set k v).get k = v :=
  get_of_get? (get?_set_self t k v)

omit [TransOrd κ] [LawfulEqOrd κ] in
/-- A key that is not touched and for which nothing is given stays as it is. -/
theorem Folds.get?_eq (h : Folds t u touched given) {k : κ} (hk : ¬touched k)
    (hgiven : given k = []) : u.get? k = t.get? k := by
  have hcontains : u.contains k ↔ t.contains k := (h.contains_iff k).trans (or_iff_left hk)
  have hget := h.get_eq k
  rw [hgiven] at hget
  have hsame : t.get k = u.get k := Except.ok.inj hget
  simp only [contains_eq, get] at hcontains hsame
  cases ht : t.get? k <;> cases hu : u.get? k <;> simp_all

/-- Touching a key changes the value of none. -/
theorem Folds.of_touch (t : Tally κ β) (k : κ) :
    Folds t (t.touch k) (fun k' => k' = k) fun _ => [] where
  contains_iff k' := contains_set t k (t.get k) k'
  get_eq k' := by
    have hsame : (t.touch k).get k' = t.get k' := by
      by_cases h : k' = k
      · rw [h, touch, get_set_self]
      · exact get_set_of_ne t h (t.get k)
    rw [hsame]
    rfl

/-- A row of merges merges at each key what it has for that key. -/
theorem Folds.of_mergeEntries (h : t.mergeEntries entries = .ok u) :
    Folds t u (fun k => k ∈ entries.map Prod.fst) fun k => deltasOf k entries where
  contains_iff := contains_of_mergeEntries h
  get_eq := foldlM_deltasOf h

/-- A row of merges finishes if, for every key, what it has for that key can be merged. -/
theorem exists_mergeEntries_of_foldlM
    (h : ∀ k, ∃ v, (deltasOf k entries).foldlM merge (t.get k) = .ok v) :
    ∃ u, t.mergeEntries entries = .ok u := by
  induction entries generalizing t with
  | nil => exact ⟨t, rfl⟩
  | cons e rest ih =>
    obtain ⟨k, delta⟩ := e
    obtain ⟨last, hlast⟩ := h k
    rw [deltasOf_cons_self, foldlM_merge_cons_eq_ok_iff] at hlast
    obtain ⟨v, hv, hlast⟩ := hlast
    rw [mergeEntries_cons_ok (mergeInto_eq_ok_iff.2 ⟨v, hv, rfl⟩)]
    refine ih fun k' => ?_
    by_cases hk : k' = k
    · rw [hk, get_set_self]
      exact ⟨last, hlast⟩
    · rw [get_set_of_ne t hk, ← deltasOf_cons_of_ne hk delta]
      exact h k'

end Folds

namespace Operation

variable {op : Operation κ β}

omit [TransOrd κ] [Mergeable β] in
/-- Nothing is given for a key that is not touched. -/
theorem deltasFor_eq_nil {k : κ} (h : ¬op.Touches k) : op.deltasFor k = [] := by
  cases op with
  | look | touch => rfl
  | mergeAt | mergeInto => exact deltasOf_eq_nil (by simpa [Touches] using h)
  | mergeEntries => exact deltasOf_eq_nil h
  | mergeTally other =>
    have hnone : other.get? k = none := by simpa [Touches, contains_eq] using h
    rw [deltasFor, hnone]
    rfl

omit [LawfulEqOrd κ] in
theorem mergeEntries_singleton (t : Tally κ β) (k : κ) (delta : β) :
    t.mergeEntries [(k, delta)] = t.mergeInto k delta := by
  rw [Tally.mergeEntries]
  cases t.mergeInto k delta <;> rfl

/-- A merge into a key is a row of one. -/
theorem folds_of_mergeInto {k : κ} {delta : β} (h : t.mergeInto k delta = .ok u) :
    Folds t u (fun k' => k' = k) fun k' => deltasOf k' [(k, delta)] := by
  rw [← mergeEntries_singleton] at h
  have hrow := Folds.of_mergeEntries h
  simpa only [List.map_cons, List.map_nil, List.mem_singleton] using hrow

theorem Does.folds (h : op.Does t u) : Folds t u op.Touches op.deltasFor := by
  cases h with
  | look k => exact ⟨fun _ => (or_iff_left id).symm, fun _ => rfl⟩
  | touch k => exact Folds.of_touch t k
  | mergeAt h =>
    have hboth := (Folds.of_touch t _).trans (folds_of_mergeInto h)
    simp only [or_self, List.nil_append] at hboth
    exact hboth
  | mergeInto h => exact folds_of_mergeInto h
  | mergeEntries h => exact Folds.of_mergeEntries h
  | mergeTally hrow h =>
    obtain ⟨hkeys, hvalues⟩ := Folds.of_mergeEntries h
    refine ⟨fun k => ?_, fun k => ?_⟩
    · rw [hkeys k, (hrow.map Prod.fst).mem_iff, ← contains_iff_mem_keys]
      rfl
    · rw [← hvalues k, deltasOf_of_perm hrow]
      rfl

/-- An operation finishes if, for every key, what it gives can be merged. -/
theorem exists_does (h : ∀ k, ∃ v, (op.deltasFor k).foldlM merge (t.get k) = .ok v) :
    ∃ u, op.Does t u := by
  cases op with
  | look k => exact ⟨t, .look k⟩
  | touch k => exact ⟨t.touch k, .touch k⟩
  | mergeAt k delta =>
    have htouch (k' : κ) : (t.touch k).get k' = t.get k' :=
      (Except.ok.inj ((Folds.of_touch t k).get_eq k')).symm
    obtain ⟨u, hu⟩ : ∃ u, (t.touch k).mergeEntries [(k, delta)] = .ok u :=
      exists_mergeEntries_of_foldlM fun k' => by rw [htouch]; exact h k'
    exact ⟨u, .mergeAt (mergeEntries_singleton _ k delta ▸ hu)⟩
  | mergeInto k delta =>
    obtain ⟨u, hu⟩ : ∃ u, t.mergeEntries [(k, delta)] = .ok u := exists_mergeEntries_of_foldlM h
    exact ⟨u, .mergeInto (mergeEntries_singleton t k delta ▸ hu)⟩
  | mergeEntries entries =>
    obtain ⟨u, hu⟩ := exists_mergeEntries_of_foldlM h
    exact ⟨u, .mergeEntries hu⟩
  | mergeTally other =>
    obtain ⟨u, hu⟩ : ∃ u, t.mergeEntries other.entries = .ok u :=
      exists_mergeEntries_of_foldlM fun k => by rw [deltasOf_of_perm (.refl _)]; exact h k
    exact ⟨u, .mergeTally (.refl _) hu⟩

/-- What an operation does, key by key. -/
theorem does_iff : op.Does t u ↔ Folds t u op.Touches op.deltasFor := by
  refine ⟨Does.folds, fun h => ?_⟩
  obtain ⟨w, hw⟩ := exists_does fun k => ⟨u.get k, h.get_eq k⟩
  rwa [h.unique hw.folds]

end Operation

section History

variable {ops : List (Operation κ β)}

theorem Came.folds (h : Came ops t) : Folds .empty t (fun k => ∃ op ∈ ops, op.Touches k)
    fun k => ops.flatMap (·.deltasFor k) := by
  induction h with
  | empty => exact ⟨fun k => by simp, fun k => rfl⟩
  | collect h =>
    have hrow := Folds.of_mergeEntries h
    simpa [Operation.Touches, Operation.deltasFor] using hrow
  | change _ hop ih =>
    have hboth := ih.trans hop.folds
    simpa [or_and_right, exists_or] using hboth

/-- There is a tally of a history if, for every key, what was given can be merged. -/
theorem exists_came
    (h : ∀ k, ∃ v, (ops.flatMap (·.deltasFor k)).foldlM merge (neutral : β) = .ok v) :
    ∃ t, Came ops t := by
  induction ops using List.reverseRecOn with
  | nil => exact ⟨.empty, .empty⟩
  | append_singleton before op ih =>
    -- what was given before the last operation is the beginning of each row
    have hsplit (k : κ) : ∃ b, (before.flatMap (·.deltasFor k)).foldlM merge neutral = .ok b ∧
        ∃ v, (op.deltasFor k).foldlM merge b = .ok v := by
      obtain ⟨v, hv⟩ := h k
      rw [List.flatMap_append, List.flatMap_singleton] at hv
      obtain ⟨b, hb, hv⟩ := foldlM_merge_append_eq_ok_iff.1 hv
      exact ⟨b, hb, v, hv⟩
    obtain ⟨t, ht⟩ := ih fun k => (hsplit k).imp fun _ hk => hk.1
    obtain ⟨u, hu⟩ : ∃ u, op.Does t u := Operation.exists_does fun k => by
      obtain ⟨b, hb, hv⟩ := hsplit k
      have hget : t.get k = b := Except.ok.inj ((ht.folds.get_eq k).symm.trans hb)
      rwa [hget]
    exact ⟨u, ht.change hu⟩

/-- A tally is the history of its keys: those are there that were touched, and each has what comes
of merging into the neutral value what was given for it, in the order of the operations. An
operation leaves alone the keys that it does not touch, and looking leaves alone all. -/
theorem came_iff (ops : List (Operation κ β)) (t : Tally κ β) :
    (Came ops t ↔ (∀ k, t.contains k ↔ ∃ op ∈ ops, op.Touches k) ∧
      ∀ k, (ops.flatMap (·.deltasFor k)).foldlM merge neutral = .ok (t.get k)) ∧
    (Came ops t → t.size = {k | ∃ op ∈ ops, op.Touches k}.ncard) ∧
    ∀ op u, Operation.Does t op u →
      (∀ k, ¬op.Touches k → u.get? k = t.get? k) ∧ ∀ k, op = .look k → u = t := by
  have hnone (k : κ) : ¬(empty : Tally κ β).contains k := Bool.false_ne_true
  have hcontains (h : Came ops t) (k : κ) : t.contains k ↔ ∃ op ∈ ops, op.Touches k :=
    (h.folds.contains_iff k).trans (or_iff_right (hnone k))
  refine ⟨⟨fun h => ⟨hcontains h, h.folds.get_eq⟩, ?_⟩, ?_, ?_⟩
  · rintro ⟨hkeys, hvalues⟩
    obtain ⟨u, hu⟩ := exists_came fun k => ⟨t.get k, hvalues k⟩
    have hfolds : Folds .empty t (fun k => ∃ op ∈ ops, op.Touches k)
        fun k => ops.flatMap (·.deltasFor k) :=
      ⟨fun k => (hkeys k).trans (or_iff_right (hnone k)).symm, hvalues⟩
    rwa [hfolds.unique hu.folds]
  · intro h
    rw [size_eq_ncard, keys, Set.ext (hcontains h)]
  · intro op u hop
    refine ⟨fun k hk => hop.folds.get?_eq hk (Operation.deltasFor_eq_nil hk), ?_⟩
    rintro k rfl
    cases hop
    rfl

/-- A number of eight bits. -/
def byte (n : Int) : Unsigned 8 := (Ranged.ofInt? n).getD neutral

/-- The ways in which bytes come to keys. Key 2 is only touched, and key 7 is only looked at. -/
def byteOps : List (Operation Nat (Unsigned 8)) :=
  [.mergeEntries [(1, byte 200)], .touch 2, .look 7, .mergeAt 1 (byte 50),
    .mergeEntries [(3, byte 1), (1, byte 3), (3, byte 2)],
    .mergeTally (ofEntries [(1, byte 2), (4, byte 0)])]

/-- All that was given for key 1 is the greatest byte, and the keys are those that were touched. -/
theorem came_of_bytes :
    let t := ofEntries [(1, byte 255), (2, byte 0), (3, byte 3), (4, byte 0)]
    Came byteOps t ∧ byteOps.flatMap (·.deltasFor 1) = [byte 200, byte 50, byte 3, byte 2] ∧
      [byte 200, byte 50, byte 3, byte 2].foldlM merge neutral = .ok (byte 255) ∧
      {k | ∃ op ∈ byteOps, op.Touches k}.ncard = 4 ∧ ¬t.contains 7 := by
  intro t
  have hcame : Came byteOps t := by
    have hcollect : collect [(1, byte 200)] = .ok (ofEntries [(1, byte 200)]) := rfl
    have hmergeAt : (Operation.mergeAt 1 (byte 50)).Does (ofEntries [(1, byte 200), (2, byte 0)])
        (ofEntries [(1, byte 250), (2, byte 0)]) :=
      .mergeAt rfl
    have hentries : (Operation.mergeEntries [(3, byte 1), (1, byte 3), (3, byte 2)]).Does
        (ofEntries [(1, byte 250), (2, byte 0)])
        (ofEntries [(1, byte 253), (2, byte 0), (3, byte 3)]) :=
      .mergeEntries rfl
    -- the entries of the other tally may come in reverse order
    have htally : (Operation.mergeTally (ofEntries [(1, byte 2), (4, byte 0)])).Does
        (ofEntries [(1, byte 253), (2, byte 0), (3, byte 3)]) t :=
      .mergeTally (.swap (1, byte 2) (4, byte 0) []) rfl
    have htouched := ((Came.collect hcollect).change (.touch 2)).change (.look 7)
    exact ((htouched.change hmergeAt).change hentries).change htally
  obtain ⟨hiff, hsize, -⟩ := came_iff byteOps t
  have hvalue := (hiff.1 hcame).2 1
  exact ⟨hcame, rfl, hvalue, (hsize hcame).symm, by decide⟩

end History

end BatchRun.Tally
