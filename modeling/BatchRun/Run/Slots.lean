/-!
# Slots for tasks in flight

A task is in flight as long as it has a slot, and a slot comes with a permit. There are only so
many permits as the concurrency limit allows: one is taken before there is any work to use it
for, and it is given back when the slot is let go.

## Main definitions

* `Semaphore`: the permits that are left, and `Semaphore.acquire`, `Semaphore.release`
* `Slot`: a task in flight
-/

namespace BatchRun

/-- The right to have one task in flight. -/
structure Permit

/-- The permits that are left to take. -/
structure Semaphore where
  permits : Nat

namespace Semaphore

/-- Take a permit, if one is left. -/
def acquire : Semaphore → Option (Permit × Semaphore)
  | ⟨0⟩ => none
  | ⟨permits + 1⟩ => some (⟨⟩, ⟨permits⟩)

/-- Give a permit back. -/
def release (s : Semaphore) (_ : Permit) : Semaphore := ⟨s.permits + 1⟩

/-- Give several permits back, one after the other. -/
def releaseAll (s : Semaphore) (permits : List Permit) : Semaphore := permits.foldl release s

@[simp] theorem permits_release (s : Semaphore) (permit : Permit) :
    (s.release permit).permits = s.permits + 1 := rfl

theorem permits_releaseAll (s : Semaphore) (permits : List Permit) :
    (s.releaseAll permits).permits = s.permits + permits.length := by
  induction permits generalizing s with
  | nil => rfl
  | cons permit rest ih =>
    have hrest := ih (s.release permit)
    rw [permits_release] at hrest
    rw [releaseAll, List.foldl_cons, ← releaseAll, hrest, List.length_cons]
    omega

theorem acquire_eq_none_iff {s : Semaphore} : s.acquire = none ↔ s.permits = 0 := by
  obtain ⟨permits⟩ := s
  cases permits <;> simp [acquire]

/-- A permit that was taken is one of those that were left. -/
theorem permits_of_acquire {s left : Semaphore} {permit : Permit}
    (h : s.acquire = some (permit, left)) : s.permits = left.permits + 1 := by
  obtain ⟨permits⟩ := s
  cases permits with
  | zero => cases h
  | succ permits =>
    obtain ⟨-, rfl⟩ := Prod.mk.inj (Option.some.inj h)
    rfl

/-- To take a permit and give it back changes nothing. -/
theorem release_of_acquire {s left : Semaphore} {permit : Permit}
    (h : s.acquire = some (permit, left)) : left.release permit = s := by
  rw [release, ← permits_of_acquire h]

end Semaphore

/-- A task in flight. It holds its permit until it is let go. -/
structure Slot where
  label : String
  permit : Permit

/-- Slots are told apart by their labels. -/
@[ext] theorem Slot.ext {a b : Slot} (h : a.label = b.label) : a = b := by
  cases a; cases b; cases h; rfl

end BatchRun
