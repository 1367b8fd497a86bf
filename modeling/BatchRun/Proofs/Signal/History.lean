import BatchRun.Proofs.SortedMap
import BatchRun.Signal.SharedBroker

/-!
# Histories of the broker in memory

What a broker does follows from its past: which queues were declared, what was published and
received, and which consumers were dropped. The past alone says what each consumer is owed, and
which queues there are.

The invariant is that a consumer that is there came with the latest declaration of its queue. So
no other consumer has a queue of the same name, dropping one removes no queue but its own, and
every consumer that is there has a queue that sends to it.

## Main definitions

* `SharedBroker.Event`: what can happen to a broker
* `SharedBroker.Happened`: pasts and the broker they lead to
* `SharedBroker.Semantics`: what the past says about the broker

## Main results

* `SharedBroker.Happened.semantics`: the broker is what its past says
* `SharedBroker.Happened.view_declare` and so on: `Broker` gives the same answers
-/

namespace BatchRun.SharedBroker

/-- What can happen to a broker. -/
inductive Event where
  | declared (d : QueueDeclaration) (c : Nat)
  | refused (d : QueueDeclaration)
  | published (routingKey : String) (payload : Json)
  | received (c : Nat) (receipt : Receipt)
  | dropped (c : Nat)

/-- Pasts, the latest event first, and the broker they lead to. Only a consumer that is there can
receive or be dropped. -/
inductive Happened : List Event → SharedBroker → Prop
  | nothing (exchange : String) : Happened [] (new exchange)
  | declare {past : List Event} {b b' : SharedBroker} {d : QueueDeclaration} {c : Nat}
      (h : Happened past b) (hdeclare : b.declare d = .ok (c, b')) :
      Happened (.declared d c :: past) b'
  | refuse {past : List Event} {b : SharedBroker} {d : QueueDeclaration}
      {problem : TransportProblem} (h : Happened past b)
      (hdeclare : b.declare d = .error problem) : Happened (.refused d :: past) b
  | publish {past : List Event} {b : SharedBroker} (h : Happened past b) (routingKey : String)
      (payload : Json) : Happened (.published routingKey payload :: past)
        (b.publish routingKey payload)
  | receive {past : List Event} {b b' : SharedBroker} {c : Nat} {receipt : Receipt}
      (h : Happened past b) (hthere : b.isThere c) (hreceive : b.receive c = (receipt, b')) :
      Happened (.received c receipt :: past) b'
  | drop {past : List Event} {b : SharedBroker} {c : Nat} (h : Happened past b)
      (hthere : b.isThere c) : Happened (.dropped c :: past) (b.drop c)

namespace Past

/-- The declaration that a consumer came with. -/
def declaration? (c : Nat) : List Event → Option QueueDeclaration
  | [] => none
  | .declared d c' :: past => if c' = c then some d else declaration? c past
  | _ :: past => declaration? c past

/-- The latest declaration of a queue that was not refused, with its consumer. -/
def latest? (name : String) : List Event → Option Binding
  | [] => none
  | .declared d c :: past => if d.name = name then some ⟨d, c⟩ else latest? name past
  | _ :: past => latest? name past

/-- Whether a consumer came and was not dropped. -/
def isThere (c : Nat) : List Event → Bool
  | [] => false
  | .declared _ c' :: past => if c' = c then true else isThere c past
  | .dropped c' :: past => if c' = c then false else isThere c past
  | _ :: past => isThere c past

/-- What a consumer received, oldest first. -/
def received (c : Nat) : List Event → List Json
  | [] => []
  | .received c' (.payload payload) :: past =>
    if c' = c then received c past ++ [payload] else received c past
  | _ :: past => received c past

/-- What was published under the routing key of a consumer since it came, oldest first. -/
def owed (c : Nat) : List Event → List Json
  | [] => []
  | .declared _ c' :: past => if c' = c then [] else owed c past
  | .published routingKey payload :: past =>
    if (declaration? c past).any (·.routingKey == routingKey) then owed c past ++ [payload]
    else owed c past
  | _ :: past => owed c past

/-- The queue of a name, if there is one: that of the latest declaration, unless it went away with
its consumer. -/
def queue? (name : String) (past : List Event) : Option Binding :=
  (latest? name past).filter fun q => isThere q.consumer past || !q.declaration.autoDelete

end Past

/-- What the past says about a broker. -/
structure Semantics (past : List Event) (b : SharedBroker) : Prop where
  /-- A declaration is refused if a consumer of that name is there, and only then. -/
  refused_iff (d : QueueDeclaration) : (∃ problem, b.declare d = .error problem) ↔
    ∃ c d', Past.isThere c past ∧ Past.declaration? c past = some d' ∧ d'.name = d.name
  /-- No two consumers that are there have queues of one name. -/
  unique {c c' : Nat} {d d' : QueueDeclaration} (hthere : Past.isThere c past)
    (hthere' : Past.isThere c' past) (hd : Past.declaration? c past = some d)
    (hd' : Past.declaration? c' past = some d') (hname : d.name = d'.name) : c = c'
  /-- A queue exists if its latest declaration still has its consumer or was to outlive it. -/
  hasQueue_iff (name : String) : b.hasQueue name ↔ ∃ d c, Past.latest? name past = some ⟨d, c⟩ ∧
    (Past.isThere c past ∨ d.autoDelete = false)
  /-- What a consumer received and what waits for it is what was published for it. -/
  received_append_waiting {c : Nat} (hthere : Past.isThere c past) :
    Past.received c past ++ b.waiting c = Past.owed c past
  /-- A consumer that is there has a queue that sends to it. -/
  queues_get? {c : Nat} {d : QueueDeclaration} (hthere : Past.isThere c past)
    (hd : Past.declaration? c past = some d) : b.queues.get? d.name = some ⟨d, c⟩
  /-- Dropping a consumer changes no queue but its own. -/
  drop_other {c : Nat} {name : String} {q : Binding} (hthere : Past.isThere c past)
    (hq : b.queues.get? name = some q) (hother : q.consumer ≠ c) :
    (b.drop c).queues.get? name = some q ∧
      (b.drop c).isThere q.consumer = b.isThere q.consumer ∧
      (b.drop c).waiting q.consumer = b.waiting q.consumer
  /-- No consumer that is there is told that its queue is gone. -/
  receive_ne_closed {c : Nat} (hthere : Past.isThere c past) : (b.receive c).1 ≠ .closed

/-! ## What the past says of the state -/

open Past

/-- What is known of a consumer apart from its payloads. -/
def Consumer.traits (c : Consumer) : String × Bool × Bool := (c.name, c.autoDelete, c.isThere)

/-- The state is what the past says. -/
structure Records (past : List Event) (b : SharedBroker) : Prop where
  unborn {c : Nat} (h : declaration? c past = none) :
    Past.isThere c past = false ∧ received c past = []
  traits_eq (c : Nat) : (b.consumers[c]?).map Consumer.traits =
    (declaration? c past).map fun d => (d.name, d.autoDelete, Past.isThere c past)
  received_append {c : Nat} (hthere : Past.isThere c past) :
    received c past ++ b.waiting c = owed c past
  waiting_eq_nil {c : Nat} (hgone : Past.isThere c past = false) : b.waiting c = []
  /-- A consumer that is there came with the latest declaration of its queue. -/
  latest {c : Nat} {d : QueueDeclaration} (hthere : Past.isThere c past)
    (hd : declaration? c past = some d) : latest? d.name past = some ⟨d, c⟩
  of_latest {name : String} {q : Binding} (h : latest? name past = some q) :
    q.declaration.name = name ∧ declaration? q.consumer past = some q.declaration
  queues_eq (name : String) : b.queues.get? name = queue? name past

section Lists

variable {α : Type}

theorem getElem?_concat_eq (l : List α) (a : α) (i : Nat) :
    (l ++ [a])[i]? = if i = l.length then some a else l[i]? := by
  split
  · next h => simp [h]
  · next h =>
    by_cases hlt : i < l.length
    · rw [List.getElem?_append_left hlt]
    · rw [List.getElem?_eq_none (by simp; omega), List.getElem?_eq_none (by omega)]

end Lists

namespace Records

variable {past : List Event} {b b' : SharedBroker} {c : Nat} {d : QueueDeclaration}

theorem exists_declaration (h : Records past b) (hthere : Past.isThere c past) :
    ∃ d, declaration? c past = some d := by
  cases hd : declaration? c past with
  | none =>
    rw [(h.unborn hd).1] at hthere
    cases hthere
  | some d => exact ⟨d, rfl⟩

theorem exists_consumer (h : Records past b) (hd : declaration? c past = some d) :
    ∃ consumer, b.consumers[c]? = some consumer ∧ consumer.name = d.name ∧
      consumer.autoDelete = d.autoDelete ∧ consumer.isThere = Past.isThere c past := by
  have htraits := h.traits_eq c
  rw [hd, Option.map_some, Option.map_eq_some_iff] at htraits
  obtain ⟨consumer, hconsumer, htraits⟩ := htraits
  simp only [Consumer.traits, Prod.mk.injEq] at htraits
  exact ⟨consumer, hconsumer, htraits⟩

theorem isThere_eq (h : Records past b) (c : Nat) : b.isThere c = Past.isThere c past := by
  have htraits := h.traits_eq c
  rw [SharedBroker.isThere]
  cases hd : declaration? c past with
  | none =>
    rw [hd, Option.map_none, Option.map_eq_none_iff] at htraits
    simp [htraits, (h.unborn hd).1]
  | some d =>
    obtain ⟨consumer, hconsumer, -, -, hthere⟩ := h.exists_consumer hd
    simp [hconsumer, hthere]

theorem queue_of_isThere (h : Records past b) (hthere : Past.isThere c past)
    (hd : declaration? c past = some d) : b.queues.get? d.name = some ⟨d, c⟩ := by
  rw [h.queues_eq, queue?, h.latest hthere hd]
  simp [hthere]

/-- The channel of a consumer that is there has a sending end. -/
theorem hasSender (h : Records past b) (hthere : Past.isThere c past) : b.hasSender c := by
  obtain ⟨d, hd⟩ := h.exists_declaration hthere
  have hqueue := SortedMap.get?_eq_some_iff.1 (h.queue_of_isThere hthere hd)
  rw [SharedBroker.hasSender, List.any_eq_true]
  exact ⟨⟨d, c⟩, List.mem_map.2 ⟨_, hqueue, rfl⟩, by simp⟩

theorem exists_of_queue (h : Records past b) {name : String} {q : Binding}
    (hq : b.queues.get? name = some q) : latest? name past = some q ∧
      q.declaration.name = name ∧ declaration? q.consumer past = some q.declaration := by
  rw [h.queues_eq, queue?, Option.filter_eq_some_iff] at hq
  exact ⟨hq.1, h.of_latest hq.1⟩

/-- A queue of another name has another consumer. -/
theorem ne_consumer (h : Records past b) (hd : declaration? c past = some d) {name : String}
    {q : Binding} (hq : latest? name past = some q) (hname : name ≠ d.name) : c ≠ q.consumer := by
  rintro rfl
  obtain ⟨hqname, hqd⟩ := h.of_latest hq
  obtain rfl := Option.some.inj (hd.symm.trans hqd)
  exact hname hqname.symm

/-- A declaration is refused because a consumer of that name is there. -/
theorem refuses_iff (h : Records past b) (d : QueueDeclaration) :
    ((b.queues.get? d.name).any fun q => b.isThere q.consumer) ↔
      ∃ c d', Past.isThere c past ∧ declaration? c past = some d' ∧ d'.name = d.name := by
  constructor
  · intro hany
    obtain ⟨q, hq, hthere⟩ := (Option.any_eq_true _ _).1 hany
    obtain ⟨-, hname, hdeclared⟩ := h.exists_of_queue hq
    rw [h.isThere_eq] at hthere
    exact ⟨q.consumer, q.declaration, hthere, hdeclared, hname⟩
  · rintro ⟨c, d', hthere, hd', hname⟩
    rw [← hname, h.queue_of_isThere hthere hd']
    simp [h.isThere_eq, hthere]

theorem nothing (exchange : String) : Records [] (new exchange) where
  unborn _ := ⟨rfl, rfl⟩
  traits_eq _ := rfl
  received_append h := nomatch h
  waiting_eq_nil _ := rfl
  latest h := nomatch h
  of_latest h := nomatch h
  queues_eq _ := rfl

theorem refused (h : Records past b) (d : QueueDeclaration) : Records (.refused d :: past) b :=
  ⟨h.unborn, h.traits_eq, h.received_append, h.waiting_eq_nil, h.latest, h.of_latest,
    h.queues_eq⟩

/-- The consumer that comes with a declaration has a number that no one had. -/
theorem declaration?_length (h : Records past b) : declaration? b.consumers.length past = none := by
  have htraits := h.traits_eq b.consumers.length
  rw [List.getElem?_eq_none (Nat.le_refl _)] at htraits
  simpa using htraits.symm

theorem declared (h : Records past b) (hdeclare : b.declare d = .ok (c, b')) :
    Records (.declared d c :: past) b' := by
  rw [declare] at hdeclare
  split at hdeclare
  · cases hdeclare
  next hfree =>
  rw [h.refuses_iff] at hfree
  obtain ⟨rfl, rfl⟩ := Prod.mk.inj (Except.ok.inj hdeclare)
  have hnew := h.declaration?_length
  -- whoever is known of is another one
  have hne : ∀ {c d'}, declaration? c past = some d' → b.consumers.length ≠ c := by
    rintro c d' hd' rfl
    rw [hnew] at hd'
    cases hd'
  refine ⟨?_, ?_, ?_, ?_, ?_, ?_, ?_⟩
  · intro c hc
    simp only [declaration?] at hc
    split at hc
    · cases hc
    · next hne' =>
      simpa [Past.isThere, received, hne'] using h.unborn hc
  · intro c
    by_cases hc : c = b.consumers.length
    · subst hc
      simp [declaration?, Past.isThere, Consumer.traits]
    · simpa [getElem?_concat_eq, declaration?, Past.isThere, hc, Ne.symm hc] using h.traits_eq c
  · intro c hthere
    by_cases hc : c = b.consumers.length
    · subst hc
      simp [received, owed, waiting, (h.unborn hnew).2]
    · have hthere : Past.isThere c past := by simpa [Past.isThere, Ne.symm hc] using hthere
      have happend := h.received_append hthere
      simpa [received, owed, waiting, getElem?_concat_eq, hc, Ne.symm hc] using happend
  · intro c hgone
    obtain ⟨hc, hgone⟩ := by simpa [Past.isThere] using hgone
    have hwaiting := h.waiting_eq_nil hgone
    simpa [waiting, getElem?_concat_eq, Ne.symm hc] using hwaiting
  · intro c d' hthere hd'
    by_cases hc : b.consumers.length = c
    · subst hc
      obtain rfl := Option.some.inj ((if_pos rfl).symm.trans hd')
      simp [latest?]
    · simp only [declaration?, if_neg hc] at hd'
      have hthere : Past.isThere c past := by simpa [Past.isThere, hc] using hthere
      have hname : d.name ≠ d'.name := fun hname => hfree ⟨c, d', hthere, hd', hname.symm⟩
      simp only [latest?, if_neg hname]
      exact h.latest hthere hd'
  · intro name q hq
    simp only [latest?] at hq
    split at hq
    · next hname =>
      obtain rfl := Option.some.inj hq
      exact ⟨hname, by simp [declaration?]⟩
    · obtain ⟨hname, hd'⟩ := h.of_latest hq
      exact ⟨hname, by rw [declaration?, if_neg (hne hd'), hd']⟩
  · intro name
    by_cases hname : name = d.name
    · subst hname
      simp [queue?, latest?, Past.isThere, Option.filter]
    · have hold := h.queues_eq name
      simp only [SortedMap.get?_insert_of_ne b.queues hname, hold, queue?, latest?,
        if_neg (Ne.symm hname)]
      cases hq : latest? name past with
      | none => rfl
      | some q => simp [Option.filter, Past.isThere, hne (h.of_latest hq).2]

/-- The payload that a consumer receives is the one that it is owed next. -/
theorem received (h : Records past b) (hthere : b.isThere c) {receipt : Receipt}
    (hreceive : b.receive c = (receipt, b')) : Records (.received c receipt :: past) b' := by
  rw [receive] at hreceive
  split at hreceive
  · obtain ⟨rfl, rfl⟩ := Prod.mk.inj hreceive
    split
    · exact ⟨h.unborn, h.traits_eq, h.received_append, h.waiting_eq_nil, h.latest, h.of_latest,
        h.queues_eq⟩
    · exact ⟨h.unborn, h.traits_eq, h.received_append, h.waiting_eq_nil, h.latest, h.of_latest,
        h.queues_eq⟩
  next payload rest hwaiting =>
  obtain ⟨rfl, rfl⟩ := Prod.mk.inj hreceive
  rw [h.isThere_eq] at hthere
  obtain ⟨d, hd⟩ := h.exists_declaration hthere
  obtain ⟨consumer, hconsumer⟩ := h.exists_consumer hd
  refine ⟨?_, ?_, ?_, ?_, h.latest, h.of_latest, h.queues_eq⟩
  · intro c' hc'
    have hne : c ≠ c' := by
      rintro rfl
      cases hd.symm.trans hc'
    simpa [Past.isThere, Past.received, hne] using h.unborn hc'
  · intro c'
    have htraits := h.traits_eq c'
    by_cases hc : c = c'
    · subst hc
      simpa [List.getElem?_modify, hconsumer.1, declaration?, Past.isThere, Consumer.traits]
        using htraits
    · simpa [List.getElem?_modify, hc, declaration?, Past.isThere] using htraits
  · intro c' hthere'
    have happend := h.received_append (c := c') hthere'
    by_cases hc : c = c'
    · subst hc
      rw [hwaiting] at happend
      simp [Past.received, owed, waiting, hconsumer.1, ← happend]
    · simpa [Past.received, owed, waiting, List.getElem?_modify, hc] using happend
  · intro c' hgone
    have hne : c ≠ c' := by
      rintro rfl
      cases hthere.symm.trans hgone
    have hold := h.waiting_eq_nil hgone
    simpa [waiting, List.getElem?_modify, hne] using hold

/-- Dropping a consumer removes at most the queue of its name. -/
theorem drop_eq (h : Records past b) (hd : declaration? c past = some d) :
    b.drop c = { b with
      queues := if d.autoDelete then b.queues.erase d.name else b.queues
      consumers := b.consumers.set c ⟨d.name, d.autoDelete, false, []⟩ } := by
  obtain ⟨consumer, hconsumer, hname, hauto, -⟩ := h.exists_consumer hd
  simp only [drop, hconsumer, hname, hauto]

/-- Dropping a consumer keeps the queues of other names. -/
theorem get?_drop_of_ne (h : Records past b) (hd : declaration? c past = some d) {name : String}
    (hname : name ≠ d.name) : (b.drop c).queues.get? name = b.queues.get? name := by
  rw [h.drop_eq hd]
  dsimp only
  split
  · exact SortedMap.get?_erase_of_ne b.queues hname
  · rfl

/-- Dropping a consumer keeps the others. -/
theorem getElem?_drop_of_ne (h : Records past b) (hd : declaration? c past = some d) {c' : Nat}
    (hne : c ≠ c') : (b.drop c).consumers[c']? = b.consumers[c']? := by
  rw [h.drop_eq hd]
  exact List.getElem?_set_ne hne

theorem dropped (h : Records past b) (hthere : b.isThere c) :
    Records (.dropped c :: past) (b.drop c) := by
  rw [h.isThere_eq] at hthere
  obtain ⟨d, hd⟩ := h.exists_declaration hthere
  obtain ⟨consumer, hconsumer, -⟩ := h.exists_consumer hd
  obtain ⟨hlt, -⟩ := List.getElem?_eq_some_iff.1 hconsumer
  have hself : (b.drop c).consumers[c]? = some ⟨d.name, d.autoDelete, false, []⟩ := by
    rw [h.drop_eq hd]
    exact List.getElem?_set_self hlt
  refine ⟨?_, ?_, ?_, ?_, ?_, h.of_latest, ?_⟩
  · intro c' hc'
    have hunborn := h.unborn hc'
    simp [Past.isThere, Past.received, hunborn]
  · intro c'
    by_cases hc : c = c'
    · subst hc
      simp [hself, declaration?, hd, Past.isThere, Consumer.traits]
    · simpa [h.getElem?_drop_of_ne hd hc, declaration?, Past.isThere, hc] using h.traits_eq c'
  · intro c' hthere'
    obtain ⟨hc, hthere'⟩ := by simpa [Past.isThere] using hthere'
    have happend := h.received_append hthere'
    simpa [Past.received, owed, waiting, h.getElem?_drop_of_ne hd hc] using happend
  · intro c' hgone
    by_cases hc : c = c'
    · subst hc
      simp [waiting, hself]
    · have hgone : Past.isThere c' past = false := by simpa [Past.isThere, hc] using hgone
      have hold := h.waiting_eq_nil hgone
      simpa [waiting, h.getElem?_drop_of_ne hd hc] using hold
  · intro c' d' hthere' hd'
    obtain ⟨-, hthere'⟩ := by simpa [Past.isThere] using hthere'
    exact h.latest hthere' hd'
  · intro name
    by_cases hname : name = d.name
    · -- the queue of this name sends to the consumer that is dropped, and to no other
      subst hname
      have hqueue := h.queue_of_isThere hthere hd
      have hlatest := h.latest hthere hd
      rw [h.drop_eq hd]
      cases hauto : d.autoDelete with
      | true =>
        simp [SortedMap.get?_erase_self, queue?, latest?, hlatest, hauto, Past.isThere,
          Option.filter]
      | false => simp [hqueue, queue?, latest?, hlatest, hauto, Option.filter]
    · rw [h.get?_drop_of_ne hd hname, h.queues_eq name, queue?, queue?]
      cases hq : latest? name past with
      | none => simp [latest?, hq]
      | some q =>
        simp [latest?, hq, Past.isThere, h.ne_consumer hd hq hname, Option.filter]

/-- Each queue sends to a consumer of its own. -/
theorem nodup_consumers (h : Records past b) : (b.queues.values.map (·.consumer)).Nodup := by
  -- what is known of a consumer tells the name of the queue
  apply List.Nodup.of_map fun c => (declaration? c past).map (·.name)
  have hnames : b.queues.values.map (fun q => (declaration? q.consumer past).map (·.name))
      = b.queues.keys.map some := by
    rw [SortedMap.values, SortedMap.keys, List.map_map, List.map_map]
    apply List.map_congr_left
    rintro ⟨name, q⟩ he
    obtain ⟨-, hname, hd⟩ := h.exists_of_queue (SortedMap.get?_eq_some_iff.2 he)
    simp [hd, hname]
  rw [List.map_map, Function.comp_def, hnames]
  exact b.queues.nodup_keys.map (fun _ _ => Option.some.inj)

/-- Queues with consumers of their own send one payload to each of these. -/
theorem getElem?_foldl_send {bindings : List Binding}
    (hnodup : (bindings.map (·.consumer)).Nodup) (payload : Json) (consumers : List Consumer)
    (c : Nat) : (bindings.foldl (send payload) consumers)[c]? =
      if c ∈ bindings.map (·.consumer) then (consumers[c]?).map (Consumer.offer payload)
      else consumers[c]? := by
  induction bindings generalizing consumers with
  | nil => simp
  | cons q rest ih =>
    obtain ⟨hq, hrest⟩ := List.nodup_cons.1 hnodup
    rw [List.foldl_cons, ih hrest, send]
    by_cases hc : c = q.consumer
    · subst hc
      simp [hq]
    · simp [hc, Ne.symm hc]

/-- A queue that sends to a consumer is that of its declaration. -/
theorem mem_bound_iff (h : Records past b) (hthere : Past.isThere c past)
    (hd : declaration? c past = some d) (routingKey : String) :
    c ∈ (b.queues.values.filter (·.declaration.routingKey == routingKey)).map (·.consumer) ↔
      d.routingKey = routingKey := by
  simp only [List.mem_map, List.mem_filter, SortedMap.values, Prod.exists, exists_eq_right,
    beq_iff_eq]
  constructor
  · rintro ⟨q, ⟨⟨name, he⟩, hkey⟩, rfl⟩
    obtain ⟨-, -, hqd⟩ := h.exists_of_queue (SortedMap.get?_eq_some_iff.2 he)
    obtain rfl := Option.some.inj (hd.symm.trans hqd)
    exact hkey
  · intro hkey
    have hqueue := SortedMap.get?_eq_some_iff.1 (h.queue_of_isThere hthere hd)
    exact ⟨⟨d, c⟩, ⟨⟨d.name, hqueue⟩, hkey⟩, rfl⟩

/-- A consumer that is there is sent what is published under its routing key, and nothing else. -/
theorem getElem?_publish (h : Records past b) (routingKey : String) (payload : Json) (c : Nat) :
    (b.publish routingKey payload).consumers[c]? = (b.consumers[c]?).map fun consumer =>
      if (declaration? c past).any (·.routingKey == routingKey) then consumer.offer payload
      else consumer := by
  have hnodup : ((b.queues.values.filter (·.declaration.routingKey == routingKey)).map
      (·.consumer)).Nodup :=
    h.nodup_consumers.sublist (List.filter_sublist.map _)
  simp only [publish, getElem?_foldl_send hnodup]
  cases hd : declaration? c past with
  | none =>
    have htraits := h.traits_eq c
    rw [hd, Option.map_none, Option.map_eq_none_iff] at htraits
    simp [htraits]
  | some d =>
    obtain ⟨consumer, hconsumer, -, -, hthere⟩ := h.exists_consumer hd
    simp only [hconsumer, Option.map_some, Option.any_some, beq_iff_eq]
    cases hstays : Past.isThere c past with
    | true =>
      simp only [h.mem_bound_iff hstays hd]
      split <;> rfl
    | false =>
      -- the channel is closed
      have hclosed : consumer.offer payload = consumer := by
        simp [Consumer.offer, hthere, hstays]
      simp [hclosed]

theorem waiting_publish (h : Records past b) (hd : declaration? c past = some d)
    (routingKey : String) (payload : Json) : (b.publish routingKey payload).waiting c =
      if Past.isThere c past ∧ d.routingKey = routingKey then b.waiting c ++ [payload]
      else b.waiting c := by
  obtain ⟨consumer, hconsumer, -, -, hthere⟩ := h.exists_consumer hd
  simp only [waiting, h.getElem?_publish, hd, hconsumer, Option.any_some, beq_iff_eq,
    Option.map_some, Option.getD_some, Consumer.offer, hthere, ite_and]
  split <;> split <;> rfl

theorem published (h : Records past b) (routingKey : String) (payload : Json) :
    Records (.published routingKey payload :: past) (b.publish routingKey payload) := by
  refine ⟨h.unborn, ?_, ?_, ?_, h.latest, h.of_latest, h.queues_eq⟩
  · intro c
    have htraits := h.traits_eq c
    have hkeep : Consumer.traits ∘ (fun consumer : Consumer =>
        if (declaration? c past).any (·.routingKey == routingKey) then consumer.offer payload
        else consumer) = Consumer.traits := by
      funext consumer
      simp only [Function.comp_apply, Consumer.offer]
      split
      · split <;> rfl
      · rfl
    rw [h.getElem?_publish, Option.map_map, hkeep]
    exact htraits
  · intro c hthere
    obtain ⟨d, hd⟩ := h.exists_declaration hthere
    have hthere : Past.isThere c past := hthere
    have happend := h.received_append hthere
    simp only [h.waiting_publish hd, hthere, true_and, Past.received, owed, hd, Option.any_some,
      beq_iff_eq, ← happend]
    split
    · rw [List.append_assoc]
    · rfl
  · intro c hgone
    have hgone : Past.isThere c past = false := hgone
    have hold := h.waiting_eq_nil hgone
    cases hd : declaration? c past with
    | none =>
      have htraits := h.traits_eq c
      rw [hd, Option.map_none, Option.map_eq_none_iff] at htraits
      simp [waiting, h.getElem?_publish, htraits]
    | some d => simp [h.waiting_publish hd, hgone, hold]

end Records

namespace Happened

variable {past : List Event} {b b' : SharedBroker} {c : Nat} {d : QueueDeclaration}

theorem records (h : Happened past b) : Records past b := by
  induction h with
  | nothing exchange => exact .nothing exchange
  | declare _ hdeclare ih => exact ih.declared hdeclare
  | refuse _ _ ih => exact ih.refused _
  | publish _ routingKey payload ih => exact ih.published routingKey payload
  | receive _ hthere hreceive ih => exact ih.received hthere hreceive
  | drop _ hthere ih => exact ih.dropped hthere

/-- What a broker does follows from its past, whatever happened to it. -/
theorem semantics (h : Happened past b) : Semantics past b where
  refused_iff d := by
    rw [← h.records.refuses_iff, SharedBroker.declare]
    split <;> simp_all
  unique hthere hthere' hd hd' hname := by
    have hlatest := h.records.latest hthere hd
    rw [hname, h.records.latest hthere' hd'] at hlatest
    exact (congrArg Binding.consumer (Option.some.inj hlatest)).symm
  hasQueue_iff name := by
    rw [hasQueue, SortedMap.contains, h.records.queues_eq, queue?]
    rw [Option.isSome_filter]
    cases latest? name past with
    | none => simp
    | some q =>
      obtain ⟨d, c⟩ := q
      simp only [Option.any_some, Bool.or_eq_true, Bool.not_eq_true', Option.some.injEq,
        Binding.mk.injEq]
      constructor
      · intro hstays
        exact ⟨d, c, ⟨rfl, rfl⟩, hstays⟩
      · rintro ⟨d, c, ⟨rfl, rfl⟩, hstays⟩
        exact hstays
  received_append_waiting hthere := h.records.received_append hthere
  queues_get? hthere hd := h.records.queue_of_isThere hthere hd
  drop_other {c name q} hthere hq hother := by
    obtain ⟨d, hd⟩ := h.records.exists_declaration hthere
    have hname : name ≠ d.name := by
      rintro rfl
      rw [h.records.queue_of_isThere hthere hd] at hq
      exact hother (congrArg Binding.consumer (Option.some.inj hq)).symm
    have hkeep := h.records.getElem?_drop_of_ne hd hother.symm
    refine ⟨(h.records.get?_drop_of_ne hd hname).trans hq, ?_, ?_⟩
    · rw [SharedBroker.isThere, hkeep, SharedBroker.isThere]
    · rw [waiting, hkeep, waiting]
  receive_ne_closed {c} hthere := by
    rw [SharedBroker.receive, h.records.hasSender hthere]
    split <;> simp

/-- A queue that outlives its consumer. -/
def lasting : QueueDeclaration := ⟨"tasks", "run", true, false⟩

/-- A consumer comes back to its queue, which kept nothing in between, and no second one can
come. -/
def reattached : List Event :=
  [.refused lasting, .received 1 (.payload (.bool true)), .published "run" (.bool true),
    .declared lasting 1, .published "run" .null, .dropped 0, .declared lasting 0]

theorem semantics_of_reattached : ∃ b, Happened reattached b ∧ Semantics reattached b := by
  have hfirst : Happened _ _ := declare (d := lasting) (nothing "exchange") rfl
  have hgone := publish (drop (c := 0) hfirst rfl) "run" .null
  have hsecond := declare (d := lasting) hgone rfl
  have hreceived := receive (c := 1) (publish hsecond "run" (.bool true)) rfl rfl
  have hlast := refuse (d := lasting) hreceived rfl
  exact ⟨_, hlast, hlast.semantics⟩

/-! ## Consumers by the names of their queues -/

theorem view_get? (b : SharedBroker) (name : String) : b.view.queues.get? name =
    (b.queues.get? name).map fun q => ⟨q.declaration, b.isThere q.consumer, b.waiting q.consumer⟩ :=
  SortedMap.get?_mapValues _ _ _

/-- The broker by names has the queue of a consumer that is there. -/
theorem view_get?_of_isThere (h : Happened past b) (hthere : Past.isThere c past)
    (hd : declaration? c past = some d) :
    b.view.queues.get? d.name = some ⟨d, true, b.waiting c⟩ := by
  rw [view_get?, h.records.queue_of_isThere hthere hd, Option.map_some, h.records.isThere_eq,
    hthere]

/-- A queue is seen as before if its consumer did not change. -/
theorem view_get?_congr {name : String} (hq : b'.queues.get? name = b.queues.get? name)
    (hsame : ∀ q, b.queues.get? name = some q →
      b'.consumers[q.consumer]? = b.consumers[q.consumer]?) :
    b'.view.queues.get? name = b.view.queues.get? name := by
  rw [view_get?, view_get?, hq]
  cases hq : b.queues.get? name with
  | none => rfl
  | some q => simp [SharedBroker.isThere, waiting, hsame q hq]

theorem eq_of_queues {b b' : Broker} (hexchange : b.exchange = b'.exchange)
    (hqueues : ∀ name, b.queues.get? name = b'.queues.get? name) : b = b' := by
  have hmaps := SortedMap.eq_of_get?_eq hqueues
  cases b
  cases b'
  cases hexchange
  cases hmaps
  rfl

/-- Whoever declares a queue gets the same answer from the broker by names. -/
theorem view_declare (h : Happened past b) (d : QueueDeclaration) :
    b.view.declare d = (b.declare d).map fun e => e.2.view := by
  have htaken : b.view.isConsumed d.name =
      (b.queues.get? d.name).any fun q => b.isThere q.consumer := by
    rw [Broker.isConsumed, view_get?, Option.any_map]
  rw [Broker.declare, SharedBroker.declare, htaken]
  split
  · rfl
  apply congrArg Except.ok
  refine eq_of_queues rfl ?_
  intro name
  by_cases hname : name = d.name
  · subst hname
    rw [view_get?]
    simp [SharedBroker.isThere, waiting]
  · refine (SortedMap.get?_insert_of_ne _ hname _).trans (view_get?_congr ?_ ?_).symm
    · exact SortedMap.get?_insert_of_ne _ hname _
    · intro q hq
      have hd := (h.records.exists_of_queue hq).2.2
      have hne : q.consumer ≠ b.consumers.length := by
        intro heq
        rw [heq, h.records.declaration?_length] at hd
        cases hd
      rw [getElem?_concat_eq, if_neg hne]

theorem view_publish (h : Happened past b) (routingKey : String) (payload : Json) :
    (b.publish routingKey payload).view = b.view.publish routingKey payload := by
  refine eq_of_queues rfl ?_
  intro name
  rw [Broker.publish, SortedMap.get?_mapValues, view_get?, view_get?]
  have hqueues : (b.publish routingKey payload).queues = b.queues := rfl
  rw [hqueues]
  cases hq : b.queues.get? name with
  | none => rfl
  | some q =>
    have hd := (h.records.exists_of_queue hq).2.2
    have hthere := (h.publish routingKey payload).records.isThere_eq q.consumer
    simp only [Option.map_some, hthere, h.records.waiting_publish hd, h.records.isThere_eq,
      Broker.Queue.offer, Past.isThere, Bool.and_eq_true, beq_iff_eq]
    split <;> rfl

theorem view_receive (h : Happened past b) (hthere : b.isThere c)
    (hd : declaration? c past = some d) :
    b.view.receive d.name = ((b.receive c).1, (b.receive c).2.view) := by
  have hhere : Past.isThere c past := h.records.isThere_eq c ▸ hthere
  obtain ⟨consumer, hconsumer, -, -, hopen⟩ := h.records.exists_consumer hd
  rw [Broker.receive, h.view_get?_of_isThere hhere hd]
  rw [SharedBroker.receive, h.records.hasSender hhere]
  cases hwaiting : b.waiting c with
  | nil => rfl
  | cons payload rest =>
    refine congrArg (Prod.mk _) (eq_of_queues rfl ?_)
    intro name
    dsimp only
    by_cases hname : name = d.name
    · subst hname
      rw [view_get?, SortedMap.get?_insert_self]
      simp [h.records.queue_of_isThere hhere hd, SharedBroker.isThere, waiting, hconsumer, hopen,
        hhere]
    · rw [SortedMap.get?_insert_of_ne _ hname]
      refine (view_get?_congr ?_ ?_).symm
      · rfl
      · intro q hq
        simp [h.records.ne_consumer hd (h.records.exists_of_queue hq).1 hname]

theorem view_drop (h : Happened past b) (hthere : b.isThere c)
    (hd : declaration? c past = some d) : (b.drop c).view = b.view.release d.name := by
  have hhere : Past.isThere c past := h.records.isThere_eq c ▸ hthere
  obtain ⟨consumer, hconsumer, -, -, hopen⟩ := h.records.exists_consumer hd
  obtain ⟨hlt, -⟩ := List.getElem?_eq_some_iff.1 hconsumer
  have hqueue := h.records.queue_of_isThere hhere hd
  rw [Broker.release, h.view_get?_of_isThere hhere hd]
  refine eq_of_queues ?_ ?_
  · rw [h.records.drop_eq hd]
    dsimp only
    split <;> rfl
  intro name
  by_cases hname : name = d.name
  · subst hname
    rw [view_get?, h.records.drop_eq hd]
    cases hauto : d.autoDelete with
    | true => simp [SortedMap.get?_erase_self, hauto]
    | false => simp [hqueue, SharedBroker.isThere, waiting, hlt, hauto]
  · rw [view_get?_congr (h.records.get?_drop_of_ne hd hname) fun q hq =>
      h.records.getElem?_drop_of_ne hd
        (h.records.ne_consumer hd (h.records.exists_of_queue hq).1 hname)]
    dsimp only
    split
    · exact (SortedMap.get?_erase_of_ne _ hname).symm
    · exact (SortedMap.get?_insert_of_ne _ hname _).symm

end Happened

end BatchRun.SharedBroker
