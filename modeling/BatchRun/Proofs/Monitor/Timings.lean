import Mathlib.Algebra.GroupWithZero.Nat
import BatchRun.Monitor
import BatchRun.Proofs.SortedMap

/-!
# What a table of timings adds up to

A table that was filled call by call has an entry for each path that was called. It says how often
that was, and how long it took altogether, without the calls whose time did not fit in any more.

## Main definitions

* `Elapsed.kept`: the times that fit in
* `ScopeTotal.ofTimes`: the entry of calls that took given times
* `Timings.timesOf`: the times of the calls of a path

## Main results

* `Timings.get?_recordAll`: the entries of a table
* `Timings.record_recordAll`: when one more call faults
-/

namespace BatchRun

namespace Elapsed

/-- The longest time. -/
def longest : Elapsed := ⟨UInt64.size * nanosPerSecond - 1, by decide⟩

/-- The nanoseconds of some times. -/
def sum (times : List Elapsed) : Nat := (times.map nanos).sum

/-- The times that are kept of those that are added one after the other. A time that would take the
sum beyond the longest time is left out. -/
def kept (times : List Elapsed) : List Elapsed :=
  times.foldl (fun kept e => if sum kept + e.nanos ≤ longest.nanos then kept ++ [e] else kept) []

/-- What is said about one more time. -/
def faultOf (times : List Elapsed) (e : Elapsed) : Option Fault :=
  if sum (kept times) + e.nanos ≤ longest.nanos then none else some .elapsedSum

theorem lt_iff_le_longest {n : Nat} : n < UInt64.size * nanosPerSecond ↔ n ≤ longest.nanos :=
  Nat.lt_iff_le_pred (by decide)

theorem sum_concat (times : List Elapsed) (e : Elapsed) :
    sum (times ++ [e]) = sum times + e.nanos := by
  simp [sum]

theorem kept_concat (times : List Elapsed) (e : Elapsed) :
    kept (times ++ [e]) =
      if sum (kept times) + e.nanos ≤ longest.nanos then kept times ++ [e] else kept times :=
  List.foldl_concat ..

/-- What is kept fits together. -/
theorem sum_kept_le (times : List Elapsed) : sum (kept times) ≤ longest.nanos := by
  induction times using List.reverseRecOn with
  | nil => exact Nat.zero_le _
  | append_singleton times e ih =>
    rw [kept_concat]
    split
    · next hfits => exact (sum_concat (kept times) e).trans_le hfits
    · exact ih

end Elapsed

open Elapsed (sum kept)

/-- The entry of calls that took the given times, one after the other. -/
def ScopeTotal.ofTimes (times : List Elapsed) : ScopeTotal :=
  ⟨times.length, sum (kept times), Elapsed.lt_iff_le_longest.2 (Elapsed.sum_kept_le times)⟩

namespace Timings

/-- The times of the calls of a path. -/
def timesOf (path : String) (calls : List (String × Elapsed)) : List Elapsed :=
  (calls.filter (·.1 = path)).map Prod.snd

theorem timesOf_concat_self (path : String) (calls : List (String × Elapsed)) (e : Elapsed) :
    timesOf path (calls ++ [(path, e)]) = timesOf path calls ++ [e] := by
  simp [timesOf]

theorem timesOf_concat_of_ne {path path' : String} (h : path' ≠ path)
    (calls : List (String × Elapsed)) (e : Elapsed) :
    timesOf path (calls ++ [(path', e)]) = timesOf path calls := by
  simp [timesOf, h]

theorem mem_timesOf {path : String} {calls : List (String × Elapsed)} {e : Elapsed} :
    e ∈ timesOf path calls ↔ (path, e) ∈ calls := by
  simp [timesOf]

/-- A call is added to the entry of its path, and faults if its time does not fit in. -/
theorem record_eq {t : Timings} {path : String} {times : List Elapsed}
    (h : t.soFar path = .ofTimes times) (e : Elapsed) :
    t.record path e =
      (⟨t.scopes.insert path (.ofTimes (times ++ [e]))⟩, Elapsed.faultOf times e) := by
  have hkept := Elapsed.kept_concat times e
  simp only [record, h, Elapsed.add, Elapsed.ofNanos?, ScopeTotal.ofTimes, Elapsed.faultOf,
    Elapsed.lt_iff_le_longest, List.length_append, List.length_singleton]
  split_ifs at hkept ⊢ with hfits
  · simp only [hkept, Elapsed.sum_concat]
  · simp only [hkept]

theorem recordAll_concat (t : Timings) (calls : List (String × Elapsed)) (path : String)
    (e : Elapsed) :
    t.recordAll (calls ++ [(path, e)]) = ((t.recordAll calls).record path e).1 :=
  List.foldl_concat ..

theorem soFar_eq_ofTimes {t : Timings} {path : String} {times : List Elapsed}
    (h : t.scopes.get? path = if times = [] then none else some (.ofTimes times)) :
    t.soFar path = .ofTimes times := by
  rw [soFar, h]
  split
  · next hnil => rw [hnil]; rfl
  · rfl

/-- The entry of a path adds up the calls of that path. -/
theorem get?_recordAll (calls : List (String × Elapsed)) (path : String) :
    (empty.recordAll calls).scopes.get? path =
      if timesOf path calls = [] then none else some (.ofTimes (timesOf path calls)) := by
  induction calls using List.reverseRecOn generalizing path with
  | nil => rfl
  | append_singleton calls call ih =>
    obtain ⟨called, e⟩ := call
    -- what the earlier calls of the same path added up to is what this one is added to
    rw [recordAll_concat, record_eq (soFar_eq_ofTimes (ih called))]
    by_cases hpath : path = called
    · subst hpath
      rw [SortedMap.get?_insert_self, timesOf_concat_self, if_neg (by simp)]
    · rw [SortedMap.get?_insert_of_ne _ hpath, ih, timesOf_concat_of_ne (Ne.symm hpath)]

/-- What is known of a path so far is what its calls add up to. -/
theorem soFar_recordAll (calls : List (String × Elapsed)) (path : String) :
    (empty.recordAll calls).soFar path = .ofTimes (timesOf path calls) :=
  soFar_eq_ofTimes (get?_recordAll calls path)

/-- One more call faults if its time does not fit in. -/
theorem record_recordAll (calls : List (String × Elapsed)) (path : String) (e : Elapsed) :
    (empty.recordAll calls).record path e =
      (empty.recordAll (calls ++ [(path, e)]), Elapsed.faultOf (timesOf path calls) e) := by
  rw [recordAll_concat, record_eq (soFar_recordAll calls path)]

theorem mem_report_recordAll {calls : List (String × Elapsed)} {path : String} {s : ScopeTotal} :
    (path, s) ∈ (empty.recordAll calls).report ↔
      timesOf path calls ≠ [] ∧ s = .ofTimes (timesOf path calls) := by
  rw [report, ← SortedMap.get?_eq_some_iff, get?_recordAll]
  split
  · next hnil => simp [hnil]
  · next hcalled => simp [hcalled, eq_comm]

end Timings

end BatchRun
