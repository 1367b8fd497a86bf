import BatchRun.Signal.Channel

/-!
# What a channel makes of a payload

A payload passes, is dropped, or is refused; what the channel keeps of it is the number of its
task, or that it was dropped, or nothing.

## Main results

* `Channel.examine_of_passed`, `Channel.examine_of_repeated`: what became of a payload
* `Channel.examine_of_decode`: what becomes of a signal of the run
* `Channel.examine_names`: whatever became of it, a channel has the same names
-/

namespace BatchRun.Channel

variable {c : Channel} {payload : Json} {signal : Signal}

/-- A payload that passes is a signal of the run, and the first one of its task. -/
theorem examine_of_passed (h : (c.examine payload).1 = .passed signal) :
    c.examine payload = (.passed signal, { c with seen := signal.taskNo :: c.seen }) ∧
      Signal.decode payload = .ok signal ∧ signal.runId = c.runId ∧ signal.taskNo ∉ c.seen := by
  simp only [examine] at h ⊢
  split at h
  · cases h
  · next s hdecode =>
    split at h
    · cases h
    · next hrun =>
      split at h
      · cases h
      · next hseen =>
        obtain rfl := Admission.passed.inj h
        rw [if_neg hrun, if_neg hseen]
        exact ⟨rfl, hdecode, by simpa using hrun, hseen⟩

/-- A payload that is dropped is only counted. -/
theorem examine_of_repeated (h : (c.examine payload).1 = .repeated) :
    c.examine payload = (.repeated, { c with discarded := c.discarded + 1 }) := by
  simp only [examine] at h ⊢
  split at h
  · cases h
  · next s hdecode =>
    split at h
    · cases h
    · next hrun =>
      split at h
      · next hseen => rw [if_neg hrun, if_pos hseen]
      · cases h

/-- A signal of the run passes, or is dropped if one of its task has passed. -/
theorem examine_of_decode (hdecode : Signal.decode payload = .ok signal)
    (hrun : signal.runId = c.runId) :
    (c.examine payload).1 = if signal.taskNo ∈ c.seen then .repeated else .passed signal := by
  simp only [examine, hdecode, hrun, ne_eq, not_true, if_false]
  split <;> rfl

/-- A channel keeps its run and its routing key. -/
theorem examine_names (c : Channel) (payload : Json) :
    (c.examine payload).2.runId = c.runId ∧ (c.examine payload).2.routingKey = c.routingKey := by
  simp only [examine]
  split
  · exact ⟨rfl, rfl⟩
  · split
    · exact ⟨rfl, rfl⟩
    · split <;> exact ⟨rfl, rfl⟩

end BatchRun.Channel
