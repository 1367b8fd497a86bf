import BatchRun.Proofs.Run.Course
import BatchRun.Proofs.Signal.Courier
import BatchRun.Proofs.Signal.Message
import BatchRun.Proofs.Time.Reading

/-!
# Signals that are under way

A courier hands out what workers have published, and a worker publishes the signal of a task
after its outcome was sent. So whatever can be received tells the truth about a task whose
outcome can be found: it is among those sent, was put aside, or was taken when an earlier copy of
the signal passed.

## Main definitions

* `Plan.Published`: a payload is the signal of a task whose outcome was sent
* `Posted`: so is every payload that may be received

## Main results

* `Posted.steps`, `Posted.turn`: whatever a live run does, signals come after outcomes
-/

namespace BatchRun

open Std

variable {σ α κ β : Type} [Ord κ]

/-- The time of a clock can be read back. -/
theorem Commons.read_now (commons : Commons σ κ β) :
    Instant.read commons.now.text = .ok commons.now :=
  Instant.read_text (Instant.isShown_ofMilliseconds (Nat.min_le_right _ _)).isDated

section Published

variable [Workload α]

/-- The signal of a task. -/
def Plan.signalOf (plan : Plan α κ β) (t : Task α) (now : Instant) : Signal :=
  Worker.signalOf plan.shop t.no (Worker.saidOf (plan.outcomeOf t)) now

/-- A payload is the signal of a task, published after the outcome of the task was sent. -/
def Plan.Published (plan : Plan α κ β) (reported : List Nat) (payload : Json) : Prop :=
  ∃ t ∈ plan.tasks, t.no ∈ reported ∧ ∃ now, Instant.read now.text = .ok now ∧
    payload = (plan.signalOf t now).toJson

theorem Plan.Published.mono {plan : Plan α κ β} {reported reported' : List Nat} {payload : Json}
    (hsub : reported ⊆ reported') (h : plan.Published reported payload) :
    plan.Published reported' payload := by
  obtain ⟨t, ht, hno, hnow⟩ := h
  exact ⟨t, ht, hsub hno, hnow⟩

/-- The queue of the run is in use, and every payload that may be received from it was published
by a worker of the run. -/
structure Posted [Transport σ] (plan : Plan α κ β) (courier : Courier σ) (reported : List Nat)
    (transport : σ) : Prop where
  isOpen : courier.IsOpen plan.channel.queue transport
  carried : ∀ p, courier.Carries plan.channel.queue transport p → plan.Published reported p

end Published

/-- Signals have passed of those tasks that are acknowledged. -/
theorem Run.Ledger.mem_reported_iff [Workload α] [TransOrd κ] [Mergeable β] {plan : Plan α κ β}
    {acked : List (Completion κ β)} {begun : List (Task α)} {r : Run σ α κ β}
    (h : r.Ledger plan acked begun) (f : Floor σ α κ β) {no : Nat} :
    no ∈ f.reported r.buffered.values (acked.map (·.taskNo)) ↔
      no ∈ f.reported r.buffered.values r.channel.seen := by
  simp only [Floor.reported, List.mem_append, h.mem_seen_iff]

namespace Posted

variable [Transport σ] [Workload α] {plan : Plan α κ β} {courier : Courier σ}
  {reported reported' : List Nat} {transport : σ}

theorem mono (hsub : reported ⊆ reported') (h : Posted plan courier reported transport) :
    Posted plan courier reported' transport :=
  ⟨h.isOpen, fun p hp => (h.carried p hp).mono hsub⟩

/-- A worker publishes a signal. -/
theorem publish {commons : Commons σ κ β} {taskNo : Nat} {said : Except String Nat}
    (hhonest : (Worker.signalling taskNo said : Worker α κ β).Honest plan reported)
    (h : Posted plan courier reported commons.transport) :
    Posted plan courier reported (commons.publish plan.shop.notifier
      (Worker.signalOf plan.shop taskNo said commons.now)).transport := by
  -- a worker that is about to signal has sent its outcome
  obtain ⟨hreported, t, ht, rfl, rfl⟩ := hhonest
  rw [Commons.publish]
  split
  · next transport hpublish =>
    obtain ⟨hopen, hcarried⟩ := courier.published h.isOpen hpublish
    refine ⟨hopen, ?_⟩
    intro p hp
    rcases hcarried p hp with hp | rfl
    · exact h.carried p hp
    · exact ⟨t, ht, hreported, commons.now, commons.read_now, rfl⟩
  · exact h

/-- A payload is received. -/
theorem receive {receipt : Receipt} {transport' : σ}
    (hreceive : Transport.receive plan.channel.queue transport = (receipt, transport'))
    (h : Posted plan courier reported transport) :
    Posted plan courier reported transport' ∧ receipt ≠ .closed ∧
      ∀ p, receipt = .payload p → plan.Published reported p := by
  obtain ⟨hopen, hclosed, hpayload, hcarried⟩ := courier.received h.isOpen hreceive
  exact ⟨⟨hopen, fun p hp => h.carried p (hcarried p hp)⟩, hclosed,
    fun p hp => h.carried p (hpayload p hp)⟩

variable [TransOrd κ] [Mergeable β] {submitted : Nat} {aside : List (Outcome κ β)}
  {taken : List Nat} {begun : List (Task α)}

/-- A worker whose task has begun goes to its next station. -/
theorem work {w : Worker α κ β} {queue : List (Task α)} {workers workers' : List (Worker α κ β)}
    {commons : Commons σ κ β} (hbusy : w.isBusy = true)
    (hhonest : w.Honest plan ((⟨queue, workers, commons⟩ : Floor σ α κ β).reported aside taken))
    (h : Posted plan courier ((⟨queue, workers, commons⟩ : Floor σ α κ β).reported aside taken)
      commons.transport) :
    Posted plan courier ((⟨queue, workers', (w.step plan.shop commons).2⟩ :
      Floor σ α κ β).reported aside taken) (w.step plan.shop commons).2.transport := by
  cases w, hbusy using Worker.busyCases with
  | running task ends =>
    simp only [Worker.step, Worker.conclude_snd]
    exact h
  | merged task => exact h
  | merging task k delta rest =>
    simp only [Worker.step]
    split
    · exact h
    · split <;> exact h
  | reporting outcome =>
    simp only [Worker.step, Commons.send]
    split
    · -- the outcome comes behind the others that were sent
      apply h.mono
      intro no hno
      simp only [Floor.reported, List.map_append, List.mem_append] at hno ⊢
      rcases hno with (hno | hno) | hno
      · exact .inl (.inl (.inl hno))
      · exact .inl (.inr hno)
      · exact .inr hno
    · exact h
  | signalling taskNo said =>
    obtain ⟨transport, hpublish⟩ := commons.exists_publish_eq
      plan.shop.notifier (Worker.signalOf plan.shop taskNo said commons.now)
    have hposted := h.publish hhonest
    simp only [Worker.step]
    rw [hpublish] at hposted ⊢
    exact hposted

/-- Whatever a worker does, signals come after outcomes. -/
theorem step {f g : Floor σ α κ β} {new : List (Task α)} (hstep : Floor.Step plan.shop f new g)
    (hsound : Sound plan submitted aside taken begun f)
    (h : Posted plan courier (f.reported aside taken) f.commons.transport) :
    Posted plan courier (g.reported aside taken) g.commons.transport := by
  cases hstep with
  | take => exact h
  | leave => exact h
  | begin => exact h
  | work w queue before after commons hbusy =>
    exact h.work hbusy (hsound.honest w (List.mem_append_right _ List.mem_cons_self))
  | desert => exact h

/-- Rows of steps keep signals behind outcomes. -/
theorem steps {f g : Floor σ α κ β} {new : List (Task α)}
    (hrow : Floor.Steps plan.shop f new g) (hsound : Sound plan submitted aside taken begun f)
    (h : Posted plan courier (f.reported aside taken) f.commons.transport) :
    Posted plan courier (g.reported aside taken) g.commons.transport := by
  -- a worker is only known to be honest on a sound floor
  refine hsound.invariant
    (motive := fun f => Posted plan courier (f.reported aside taken) f.commons.transport) hrow h ?_
  intro begun f new g hstep hsound hposted
  exact hposted.step hstep hsound

/-- Whatever a live run does, signals come after outcomes. -/
theorem turn {told : List (Completion κ β)} {r r' : Run σ α κ β}
    (hlive : r.Live plan told begun) (hturn : r.Turn r')
    (h : Posted plan courier r.reported r.commons.transport) :
    Posted plan courier r'.reported r'.commons.transport := by
  cases hturn with
  | idle hcommons hbuffered hchannel' =>
    simp only [Run.reported, hcommons, hbuffered, hchannel']
    exact h
  | received payload hreceive hreported =>
    rw [hlive.ledger.queue_eq] at hreceive
    exact (h.receive hreceive).1.mono hreported
  | steps new hrow hbuffered hchannel' =>
    rw [hlive.ledger.shop] at hrow
    -- rows of steps speak of completions, and the channel of signals that have passed
    have hstart := h.mono fun no hno =>
      (hlive.ledger.mem_reported_iff (r.executor.floor r.commons)).2 hno
    apply (steps hrow hlive.ledger.sound hstart).mono
    intro no hno
    have hno' := (hlive.ledger.mem_reported_iff _).1 hno
    rw [← hbuffered, ← hchannel'] at hno'
    exact hno'

end Posted

/-- A question leaves signals behind outcomes. -/
theorem Posted.ask [Transport σ] [Workload α] {plan : Plan α κ β} {courier : Courier σ}
    {r : Run σ α κ β} (h : Posted plan courier r.reported r.commons.transport) :
    Posted plan courier r.ask.reported r.ask.commons.transport := by
  obtain ⟨phase, hask⟩ := r.ask_eq
  rw [hask]
  exact h

/-- Nothing was published when a run starts. -/
theorem Dispatcher.posted_of_start [Transport σ] [Workload α] [TransOrd κ] [Mergeable β]
    {d : Dispatcher α κ β} {transport : σ} {pending : Pending α} {total : Nat}
    {run : Run σ α κ β} (courier : Courier σ) (h : d.start transport pending total = .ok run) :
    Posted (d.plan pending total) courier run.reported run.commons.transport := by
  obtain ⟨mode, executor, opened, -, hdeclare, rfl⟩ := exists_of_start h
  obtain ⟨hopened, hnone⟩ := courier.declared hdeclare
  exact ⟨hopened, fun p hp => absurd hp (hnone p)⟩

end BatchRun
