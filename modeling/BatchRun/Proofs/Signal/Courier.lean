import BatchRun.Proofs.SortedMap
import BatchRun.Signal.Broker

/-!
# Couriers

A courier is a transport that can be relied on a little: it hands out nothing but what was
published since the queue was declared, and it does not close a queue that is in use. It may
still hand out a payload several times, late, in another order, or never.

## Main definitions

* `Courier`: what may be relied on
* `Broker.courier`: the broker in memory is a courier
-/

namespace BatchRun

/-- What may be relied on of a transport that hands out nothing but what was published. -/
structure Courier (σ : Type) [Transport σ] where
  /-- Whether a payload may still be handed out of a queue. -/
  Carries : String → σ → Json → Prop
  /-- Whether a queue is in use. -/
  IsOpen : String → σ → Prop
  declared : ∀ {declaration : QueueDeclaration} {t t' : σ},
    Transport.declare declaration t = .ok t' →
      IsOpen declaration.name t' ∧ ∀ p, ¬Carries declaration.name t' p
  published : ∀ {queue key : String} {payload : Json} {t t' : σ}, IsOpen queue t →
    Transport.publish key payload t = .ok t' →
      IsOpen queue t' ∧ ∀ p, Carries queue t' p → Carries queue t p ∨ p = payload
  received : ∀ {queue : String} {receipt : Receipt} {t t' : σ}, IsOpen queue t →
    Transport.receive queue t = (receipt, t') →
      IsOpen queue t' ∧ receipt ≠ .closed ∧ (∀ p, receipt = .payload p → Carries queue t p) ∧
        ∀ p, Carries queue t' p → Carries queue t p

namespace Broker

/-- The broker in memory is a courier: what waits in a queue is what it may still hand out. -/
def courier : Courier Broker where
  Carries name b p := p ∈ b.waiting name
  IsOpen name b := b.isConsumed name = true
  declared := by
    intro declaration b b' h
    simp only [Transport.declare, declare] at h
    split at h
    · cases h
    · obtain rfl := Except.ok.inj h
      simp [isConsumed, waiting]
  published := by
    intro name key payload b b' hopen h
    obtain rfl := Except.ok.inj h
    simp only [isConsumed, waiting, publish, SortedMap.get?_mapValues] at hopen ⊢
    cases hq : b.queues.get? name with
    | none => simp [hq] at hopen
    | some q =>
      simp only [hq, Option.any_some] at hopen
      simp only [Option.map_some, Option.any_some, Option.getD_some, Queue.offer]
      split
      · exact ⟨hopen, fun p hp => by simpa using hp⟩
      · exact ⟨hopen, fun p hp => .inl hp⟩
  received := by
    intro name receipt b b' hopen h
    simp only [Transport.receive, receive] at h
    cases hq : b.queues.get? name with
    | none => simp [isConsumed, hq] at hopen
    | some q =>
      simp only [isConsumed, hq, Option.any_some] at hopen
      simp only [hq] at h
      split at h
      · obtain ⟨rfl, rfl⟩ := Prod.mk.inj h
        simp [isConsumed, hq, hopen]
      · next payload rest hpayloads =>
        obtain ⟨rfl, rfl⟩ := Prod.mk.inj h
        have hwaiting : b.waiting name = payload :: rest := by simp [waiting, hq, hpayloads]
        refine ⟨by simp [isConsumed, hopen], by simp, ?_, ?_⟩
        · intro p hp
          rw [hwaiting, ← Receipt.payload.inj hp]
          exact List.mem_cons_self
        · intro p hp
          rw [hwaiting]
          exact List.mem_cons_of_mem _ (by simpa [waiting] using hp)

end Broker

end BatchRun
