import Mathlib.Logic.Relation
import BatchRun.Proofs.Signal.Channel
import BatchRun.Proofs.Signal.History
import BatchRun.Signal.Exchange

/-!
# Channels do not disturb each other

Neither the routing key of a channel nor the name of its queue tells the run apart from the word in
front of it, as both may have points in them. They are built from the same text, however, so that
two channels have one routing key exactly if they have one queue. A broker lets no two consumers
have one queue, and with that it keeps the runs apart.

The invariant is that a subscription and the consumer of the same number belong together.

## Main definitions

* `Exchange.Step`, `Exchange.Reaches`: what can happen on an exchange
* `Exchange.Isolated`: channels that are kept apart

## Main results

* `Exchange.Reaches.isolated`: channels are kept apart, whatever happened
-/

namespace BatchRun

open Relation SharedBroker

namespace RunId

variable {run run' : RunId} {word word' : String}

/-- Routing keys are the same if what they are built from is. -/
theorem routingKey_eq_iff : run.routingKey word = run'.routingKey word' ↔
    word ++ "." ++ run.text = word' ++ "." ++ run'.text := by
  simp only [routingKey, String.append_left_inj]

/-- So are the names of queues. -/
theorem queueName_eq_iff : run.queueName word = run'.queueName word' ↔
    word ++ "." ++ run.text = word' ++ "." ++ run'.text := by
  simp only [queueName, String.append_assoc, String.append_right_inj]

/-- With one word in front, runs have keys and queues of their own. -/
theorem address_injective (word : String) :
    Function.Injective fun run : RunId => word ++ "." ++ run.text := by
  rintro ⟨text⟩ ⟨text'⟩ h
  rw [String.append_right_inj] at h
  exact congrArg RunId.mk h

end RunId

namespace Exchange

/-- What can happen on an exchange. Only a channel that is open can receive or be dropped; anyone
can publish at any time. -/
inductive Step : Exchange → Exchange → Prop
  | subscribe {x x' : Exchange} (run : RunId) (signaling : Signaling)
      (h : x.subscribe run signaling = .ok x') : Step x x'
  | publish {x : Exchange} (routingKey : String) (payload : Json) :
      Step x (x.publish routingKey payload)
  | receive {x : Exchange} {n : Nat} (hopen : x.broker.isThere n) : Step x (x.receive n)
  | drop {x : Exchange} {n : Nat} (hopen : x.broker.isThere n) : Step x (x.drop n)

/-- What an exchange comes to from its beginning, by any number of steps. -/
def Reaches (name : String) : Exchange → Prop := ReflTransGen Step (new name)

/-- The channels of an exchange are kept apart. -/
structure Isolated (x : Exchange) : Prop where
  /-- No two channels that are open have one routing key. -/
  eq_of_routingKey {n m : Nat} {s t : Subscription} (hs : x.open? n = some s)
    (ht : x.open? m = some t) (hkey : s.channel.routingKey = t.channel.routingKey) : n = m
  /-- What the notifier of an open channel publishes comes to this channel, once, and to no other
  one. -/
  delivered {n : Nat} {s : Subscription} (hs : x.open? n = some s) (signal : Signal) :
    ∃ broker, s.channel.notifier.publish signal x.broker = .ok broker ∧
      broker.waiting n = x.broker.waiting n ++ [signal.toJson] ∧
      ∀ m t, x.open? m = some t → m ≠ n → broker.waiting m = x.broker.waiting m
  /-- A channel is refused if its names are taken by one that is open, and only then. -/
  refused_iff (run : RunId) (signaling : Signaling) (error : RunError) :
    Channel.openOn run signaling x.broker = .error error ↔
      error = .transport (.queueTaken (run.queueName signaling.routingWord)) ∧
        ∃ n s, x.open? n = some s ∧ s.address = signaling.routingWord ++ "." ++ run.text
  /-- Runs with one word in front have names of their own. -/
  injective (word : String) : Function.Injective (RunId.routingKey · word) ∧
    Function.Injective (RunId.queueName · word)

/-- The declaration that a channel came with. -/
def declarationOf (run : RunId) (word : String) : QueueDeclaration :=
  .transient (run.queueName word) (run.routingKey word)

/-- A channel is opened by declaring its queue. -/
theorem openOn_eq {σ : Type} [Transport σ] (run : RunId) (signaling : Signaling) (transport : σ) :
    Channel.openOn run signaling transport =
      ((Transport.declare (declarationOf run signaling.routingWord) transport).mapError
        RunError.transport).map (Channel.ofRun run signaling, ·) := by
  simp only [Channel.openOn, Channel.ofRun, declarationOf]
  cases Transport.declare _ transport <;> rfl

/-- Subscriptions and consumers of one number belong together, after some past of the broker. -/
structure Paired (past : List SharedBroker.Event) (x : Exchange) : Prop where
  happened : Happened past x.broker
  declaration?_eq (n : Nat) : Past.declaration? n past =
    (x.subscriptions[n]?).map fun s => declarationOf s.channel.runId s.word
  routingKey_eq {n : Nat} {s : Subscription} (hs : x.subscriptions[n]? = some s) :
    s.channel.routingKey = s.channel.runId.routingKey s.word

namespace Paired

variable {past : List SharedBroker.Event} {x x' : Exchange} {n m : Nat} {s t : Subscription}

/-- The next channel and the next consumer get the same number. -/
theorem length_eq (h : Paired past x) : x.broker.consumers.length = x.subscriptions.length := by
  have hsome (n : Nat) : x.broker.consumers[n]? = none ↔ x.subscriptions[n]? = none := by
    rw [← Option.map_eq_none_iff, h.happened.records.traits_eq, Option.map_eq_none_iff,
      h.declaration?_eq, Option.map_eq_none_iff]
  simp only [List.getElem?_eq_none_iff] at hsome
  exact Nat.le_antisymm ((hsome _).2 (Nat.le_refl _)) ((hsome _).1 (Nat.le_refl _))

theorem new (name : String) : Paired [] (new name) where
  happened := .nothing name
  declaration?_eq _ := rfl
  routingKey_eq hs := nomatch hs

/-- A channel that is opened comes with the consumer of the next number. -/
theorem subscribe (h : Paired past x) {run : RunId} {signaling : Signaling}
    (hsubscribe : x.subscribe run signaling = .ok x') : ∃ past', Paired past' x' := by
  rw [Exchange.subscribe, openOn_eq] at hsubscribe
  simp only [Transport.declare] at hsubscribe
  cases hdeclare : x.broker.declare (declarationOf run signaling.routingWord) with
  | error problem =>
    rw [hdeclare] at hsubscribe
    cases hsubscribe
  | ok declared =>
    obtain ⟨c, broker⟩ := declared
    rw [hdeclare] at hsubscribe
    obtain rfl := Except.ok.inj hsubscribe
    -- the new consumer and the new channel are both the last ones, by `length_eq`
    have hhappened := h.happened.declare hdeclare
    rw [declare] at hdeclare
    split at hdeclare
    · cases hdeclare
    obtain ⟨rfl, rfl⟩ := Prod.mk.inj (Except.ok.inj hdeclare)
    refine ⟨_, hhappened, ?_, ?_⟩
    · intro n
      simp only [Past.declaration?, getElem?_concat_eq, h.length_eq, eq_comm (b := n)]
      split
      · rfl
      · exact h.declaration?_eq n
    · intro n s hs
      rw [getElem?_concat_eq] at hs
      split at hs
      · obtain rfl := Option.some.inj hs
        rfl
      · exact h.routingKey_eq hs

/-- Whatever is received, a channel keeps its names. -/
theorem receive (h : Paired past x) (hopen : x.broker.isThere n) :
    ∃ past', Paired past' (x.receive n) := by
  generalize hreceive : x.broker.receive n = out
  obtain ⟨receipt, broker⟩ := out
  have hhappened := h.happened.receive hopen hreceive
  rw [Exchange.receive, hreceive]
  cases receipt with
  | payload payload =>
    -- a payload may change what the channel has seen, but none of its names
    refine ⟨_, hhappened, ?_, ?_⟩
    · intro m
      rw [List.getElem?_modify, Option.map_eq_map, Option.map_map]
      refine (h.declaration?_eq m).trans (Option.map_congr fun s _ => ?_)
      simp only [Function.comp_apply]
      split <;> simp [(s.channel.examine_names payload).1]
    · intro m s hs
      rw [List.getElem?_modify, Option.map_eq_map, Option.map_eq_some_iff] at hs
      obtain ⟨t, ht, rfl⟩ := hs
      obtain ⟨hrun, hkey⟩ := t.channel.examine_names payload
      split
      · simpa only [hrun, hkey] using h.routingKey_eq ht
      · exact h.routingKey_eq ht
  | pending => exact ⟨_, hhappened, h.declaration?_eq, h.routingKey_eq⟩
  | closed => exact ⟨_, hhappened, h.declaration?_eq, h.routingKey_eq⟩

/-- What happens on an exchange keeps channels and consumers together. -/
theorem step (h : Paired past x) (hstep : Step x x') : ∃ past', Paired past' x' := by
  cases hstep with
  | subscribe run signaling hsubscribe => exact h.subscribe hsubscribe
  | publish routingKey payload =>
    exact ⟨_, h.happened.publish routingKey payload, h.declaration?_eq, h.routingKey_eq⟩
  | receive hopen => exact h.receive hopen
  | drop hopen => exact ⟨_, h.happened.drop hopen, h.declaration?_eq, h.routingKey_eq⟩

/-- A channel that is open has a consumer that is there, which came with its declaration. -/
theorem of_open (h : Paired past x) (hs : x.open? n = some s) : Past.isThere n past = true ∧
    Past.declaration? n past = some (declarationOf s.channel.runId s.word) ∧
      s.channel.routingKey = s.channel.runId.routingKey s.word := by
  rw [open?] at hs
  split at hs
  · next hthere =>
    rw [h.happened.records.isThere_eq] at hthere
    exact ⟨hthere, by rw [h.declaration?_eq, hs]; rfl, h.routingKey_eq hs⟩
  · cases hs

/-- Channels that are open have names of their own. -/
theorem eq_of_routingKey (h : Paired past x) (hs : x.open? n = some s) (ht : x.open? m = some t)
    (hkey : s.channel.routingKey = t.channel.routingKey) : n = m := by
  obtain ⟨hthere, hd, hs⟩ := h.of_open hs
  obtain ⟨hthere', hd', ht⟩ := h.of_open ht
  rw [hs, ht, RunId.routingKey_eq_iff, ← RunId.queueName_eq_iff] at hkey
  -- both came with the latest declaration of their queue
  have hlatest := h.happened.records.latest hthere hd
  have hlatest' := h.happened.records.latest hthere' hd'
  simp only [declarationOf, QueueDeclaration.transient, hkey] at hlatest hlatest'
  exact congrArg Binding.consumer (Option.some.inj (hlatest.symm.trans hlatest'))

/-- A channel is open if its consumer is there. -/
theorem exists_open (h : Paired past x) (hthere : Past.isThere n past)
    {d : QueueDeclaration} (hd : Past.declaration? n past = some d) :
    ∃ s, x.open? n = some s ∧ declarationOf s.channel.runId s.word = d := by
  rw [h.declaration?_eq, Option.map_eq_some_iff] at hd
  obtain ⟨s, hs, hd⟩ := hd
  exact ⟨s, by rw [open?, h.happened.records.isThere_eq, if_pos hthere, hs], hd⟩

/-- A queue is refused if a channel is open whose names are the same. -/
theorem declare_eq_error_iff (h : Paired past x) (run : RunId) (word : String)
    (problem : TransportProblem) : x.broker.declare (declarationOf run word) = .error problem ↔
      problem = .queueTaken (run.queueName word) ∧
        ∃ n s, x.open? n = some s ∧ s.address = word ++ "." ++ run.text := by
  have htaken : ((x.broker.queues.get? (declarationOf run word).name).any fun q =>
      x.broker.isThere q.consumer) ↔
        ∃ n s, x.open? n = some s ∧ s.address = word ++ "." ++ run.text := by
    rw [h.happened.records.refuses_iff]
    constructor
    · rintro ⟨n, d, hthere, hd, hname⟩
      obtain ⟨s, hs, rfl⟩ := h.exists_open hthere hd
      exact ⟨n, s, hs, RunId.queueName_eq_iff.1 hname⟩
    · rintro ⟨n, s, hs, haddress⟩
      obtain ⟨hthere, hd, -⟩ := h.of_open hs
      exact ⟨n, _, hthere, hd, RunId.queueName_eq_iff.2 haddress⟩
  rw [← htaken, SharedBroker.declare]
  split
  · next hany =>
    simp only [hany, and_true, Except.error.injEq, eq_comm (a := problem)]
    rfl
  · next hany => simp [hany]

/-- What is published under the routing key of an open channel comes to that channel alone. -/
theorem waiting_publish (h : Paired past x) (hs : x.open? n = some s) (payload : Json)
    (ht : x.open? m = some t) :
    (x.broker.publish s.channel.routingKey payload).waiting m =
      if m = n then x.broker.waiting m ++ [payload] else x.broker.waiting m := by
  obtain ⟨hthere, hd, hkey⟩ := h.of_open ht
  -- the consumer of a channel is bound to the routing key of no other channel
  have hkeys : t.channel.routingKey = s.channel.routingKey ↔ m = n := by
    constructor
    · exact h.eq_of_routingKey ht hs
    · rintro rfl
      rw [Option.some.inj (ht.symm.trans hs)]
  have hbound : (declarationOf t.channel.runId t.word).routingKey = s.channel.routingKey ↔
      m = n := by
    rw [← hkeys, hkey]
    rfl
  simp only [h.happened.records.waiting_publish hd, hthere, true_and, hbound]

end Paired

theorem Reaches.paired {name : String} {x : Exchange} (h : Reaches name x) :
    ∃ past, Paired past x := by
  -- the past is not part of the exchange: each step says how it goes on
  induction h with
  | refl => exact ⟨[], .new name⟩
  | tail _ hstep ih =>
    obtain ⟨past, ih⟩ := ih
    exact ih.step hstep

/-- Channels on one exchange are kept apart, whatever words are in front of their names, whichever
of them were opened and dropped, and whatever was published. -/
theorem Reaches.isolated {name : String} {x : Exchange} (h : Reaches name x) : Isolated x := by
  obtain ⟨past, h⟩ := h.paired
  refine ⟨h.eq_of_routingKey, ?_, ?_, ?_⟩
  · intro n s hs signal
    refine ⟨_, rfl, ?_, ?_⟩
    · exact (h.waiting_publish hs _ hs).trans (if_pos rfl)
    · intro m t ht hne
      exact (h.waiting_publish hs _ ht).trans (if_neg hne)
  · intro run signaling error
    rw [openOn_eq]
    simp only [Transport.declare]
    cases hdeclare : x.broker.declare (declarationOf run signaling.routingWord) with
    | ok declared =>
      have hfree := fun problem => (h.declare_eq_error_iff run signaling.routingWord problem).2
      rw [hdeclare] at hfree
      refine ⟨nofun, ?_⟩
      rintro ⟨-, htaken⟩
      exact nomatch hfree _ ⟨rfl, htaken⟩
    | error problem =>
      obtain ⟨rfl, htaken⟩ := (h.declare_eq_error_iff run signaling.routingWord problem).1 hdeclare
      simp only [Except.map, Except.mapError, Except.error.injEq, eq_comm (b := error)]
      exact (and_iff_left htaken).symm
  · intro word
    refine ⟨fun run run' heq => ?_, fun run run' heq => ?_⟩
    · exact RunId.address_injective word (RunId.routingKey_eq_iff.1 heq)
    · exact RunId.address_injective word (RunId.queueName_eq_iff.1 heq)

/-- Signals are routed under words with points in them. -/
def dotted (word : String) : Signaling := { Signaling.usual with routingWord := word }

/-- One channel is dropped, and the next one has its names, with other words in front. -/
theorem isolated_of_dotted : ∃ x, Reaches "exchange" x ∧ x.open? 0 = none ∧
    (x.open? 1).map Subscription.address = some "a.b" ∧
      (x.open? 2).map Subscription.address = some "a.b.c" ∧ Isolated x := by
  have hfirst : Reaches "exchange" _ := .single (.subscribe ⟨"c"⟩ (dotted "a.b") rfl)
  have hsecond := hfirst.tail (.subscribe ⟨"b"⟩ (dotted "a") rfl)
  have hdropped := (hsecond.tail (.publish "a.b.c.tasks" .null)).tail (.drop (n := 0) rfl)
  have hlast : Reaches "exchange" _ := hdropped.tail (.subscribe ⟨"b.c"⟩ (dotted "a") rfl)
  exact ⟨_, hlast, rfl, rfl, rfl, hlast.isolated⟩

/-! ## Channels on the broker by names -/

/-- Whoever opens a channel gets the same answer from the broker that knows consumers by the names
of their queues. -/
theorem Reaches.openOn_view {name : String} {x : Exchange} (h : Reaches name x) (run : RunId)
    (signaling : Signaling) : Channel.openOn run signaling x.broker.view =
      (Channel.openOn run signaling x.broker).map fun e => (e.1, e.2.view) := by
  obtain ⟨past, h⟩ := h.paired
  simp only [openOn_eq, Transport.declare, h.happened.view_declare]
  cases x.broker.declare (declarationOf run signaling.routingWord) <;> rfl

end Exchange

end BatchRun
