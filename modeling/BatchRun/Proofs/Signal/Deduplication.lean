import BatchRun.Proofs.SortedMap
import BatchRun.Signal.Polling

/-!
# The first signal of each task

Whatever waits in the queue of a run, a channel hands it out in its order and leaves out nothing
but signals of the run about tasks that an earlier signal of the run was about. What is refused on
the way, because it is no signal or one of another run, is told of and leaves no trace, so that it
cannot keep a later signal from passing.

This is said of payloads by what came before each of them, without mention of what a channel
remembers.

## Main definitions

* `RunId.outcomeOf`, `RunId.isRepeat`: what a run receives of a payload, and whether it does
* `Channel.Deduplicated`: what a channel hands out of a row of payloads
* `Channel.Examined`: the invariant behind it
* `Channel.Intake`: a channel on a broker, with what has come and what was received

## Main results

* `Channel.Examined.examine`: one payload
* `Channel.Examined.receive`: payloads up to one that is handed out or refused
* `Channel.Intake.deduplicated`: all payloads that come to a queue, whenever they are received
-/

namespace BatchRun

namespace RunId

/-- What a run receives of a payload that does not repeat another one. -/
def outcomeOf (run : RunId) (payload : Json) : Except RunError Signal :=
  match Signal.shape.decode payload with
  | .error reason => .error (.malformedSignal reason)
  | .ok signal =>
    if signal.runId = run then .ok signal
    else .error (.anomaly run (.foreignRun signal.runId))

/-- The task that a payload is about, if it is a signal of the run. -/
def taskOf? (run : RunId) (payload : Json) : Option Nat :=
  (run.outcomeOf payload).toOption.map (·.taskNo)

theorem taskOf?_of_ok {run : RunId} {payload : Json} {signal : Signal}
    (h : run.outcomeOf payload = .ok signal) : run.taskOf? payload = some signal.taskNo := by
  rw [taskOf?, h]
  rfl

theorem taskOf?_of_error {run : RunId} {payload : Json} {error : RunError}
    (h : run.outcomeOf payload = .error error) : run.taskOf? payload = none := by
  rw [taskOf?, h]
  rfl

/-- Whether a payload is a signal of the run about a task that an earlier one was about, whatever
else the two of them say. -/
def isRepeat (run : RunId) (earlier : List Json) (payload : Json) : Bool :=
  (run.taskOf? payload).any fun taskNo => (earlier.filterMap run.taskOf?).contains taskNo

end RunId

/-- What is received of a payload, unless it was dropped. -/
def Admission.outcome? : Admission → Option (Except RunError Signal)
  | .passed signal => some (.ok signal)
  | .repeated => none
  | .refused error => some (.error error)

/-- The tasks that the signals among some outcomes are about. -/
def passedTasks (outcomes : List (Except RunError Signal)) : List Nat :=
  outcomes.filterMap fun outcome => outcome.toOption.map (·.taskNo)

theorem passedTasks_concat_error (outcomes : List (Except RunError Signal)) (error : RunError) :
    passedTasks (outcomes ++ [.error error]) = passedTasks outcomes := by
  rw [passedTasks, List.filterMap_append]
  exact List.append_nil _

theorem passedTasks_concat_ok (outcomes : List (Except RunError Signal)) (signal : Signal) :
    passedTasks (outcomes ++ [.ok signal]) = passedTasks outcomes ++ [signal.taskNo] := by
  rw [passedTasks, List.filterMap_append]
  rfl

/-- Payloads in their order, each with those that came before it. -/
def withEarlier (payloads : List Json) : List (List Json × Json) :=
  payloads.zipIdx.map fun (payload, n) => (payloads.take n, payload)

theorem withEarlier_concat (payloads : List Json) (payload : Json) :
    withEarlier (payloads ++ [payload]) = withEarlier payloads ++ [(payloads, payload)] := by
  rw [withEarlier, List.zipIdx_append, List.map_append, withEarlier]
  congr 1
  · apply List.map_congr_left
    rintro ⟨other, n⟩ hother
    have hn : n < payloads.length := by simpa using List.snd_lt_of_mem_zipIdx hother
    simp only [List.take_append_of_le_length hn.le]
  · simp

theorem Broker.waiting_of_get? {b : Broker} {name : String} {q : Queue}
    (h : b.queues.get? name = some q) : b.waiting name = q.payloads := by
  rw [waiting, h]
  rfl

namespace Channel

variable {run : RunId} {payloads : List Json} {outcomes : List (Except RunError Signal)}
  {c : Channel}

/-- What a channel has handed out of a row of payloads. -/
structure Deduplicated (run : RunId) (payloads : List Json)
    (outcomes : List (Except RunError Signal)) (c : Channel) : Prop where
  /-- There is an outcome for each payload that is no repeat, in their order. -/
  outcomes_eq : outcomes =
    ((withEarlier payloads).filter fun (earlier, payload) => !run.isRepeat earlier payload).map
      fun (_, payload) => run.outcomeOf payload
  /-- Each repeat is counted, and nothing else. -/
  discarded_eq : c.discarded =
    (withEarlier payloads).countP fun (earlier, payload) => run.isRepeat earlier payload
  /-- A task counts as seen if a signal about it was handed out, and for no other reason. -/
  mem_seen_iff (taskNo : Nat) : taskNo ∈ c.seen ↔ taskNo ∈ passedTasks outcomes
  /-- No two signals that were handed out are about one task. -/
  nodup : (passedTasks outcomes).Nodup

/-- A payload is examined as one that does not repeat another, and then for its task. -/
theorem examine_eq (c : Channel) (payload : Json) :
    c.examine payload = match c.runId.outcomeOf payload with
      | .error error => (.refused error, c)
      | .ok signal =>
        if signal.taskNo ∈ c.seen then (.repeated, { c with discarded := c.discarded + 1 })
        else (.passed signal, { c with seen := signal.taskNo :: c.seen }) := by
  rw [examine, RunId.outcomeOf, Signal.decode]
  cases Signal.shape.decode payload with
  | error reason => rfl
  | ok signal =>
    by_cases hrun : signal.runId = c.runId
    · simp only [hrun, ne_eq, not_true_eq_false, ↓reduceIte]
    · simp only [hrun, ne_eq, not_false_eq_true, ↓reduceIte]

/-! ## One payload after another -/

/-- A channel of a run has examined payloads. Beside what it has handed out, it goes by the task of
every signal of the run among the payloads. -/
structure Examined (run : RunId) (payloads : List Json)
    (outcomes : List (Except RunError Signal)) (c : Channel) : Prop
    extends Deduplicated run payloads outcomes c where
  runId_eq : c.runId = run
  seen_iff (taskNo : Nat) : taskNo ∈ c.seen ↔ taskNo ∈ payloads.filterMap run.taskOf?

namespace Examined

theorem fresh {signaling : Signaling} : Examined run [] [] (ofRun run signaling) where
  outcomes_eq := rfl
  discarded_eq := rfl
  mem_seen_iff _ := Iff.rfl
  nodup := List.nodup_nil
  runId_eq := rfl
  seen_iff _ := Iff.rfl

/-- A signal of the run repeats another one if a channel has seen its task. -/
theorem isRepeat_of_ok (h : Examined run payloads outcomes c) {signal : Signal} {payload : Json}
    (hsignal : run.outcomeOf payload = .ok signal) :
    run.isRepeat payloads payload = decide (signal.taskNo ∈ c.seen) := by
  rw [RunId.isRepeat, RunId.taskOf?_of_ok hsignal, Bool.eq_iff_iff, decide_eq_true_iff, h.seen_iff]
  exact List.contains_iff_mem

/-- What is refused adds nothing but its error. -/
theorem refuse (h : Examined run payloads outcomes c) {error : RunError} {payload : Json}
    (herror : run.outcomeOf payload = .error error) :
    Examined run (payloads ++ [payload]) (outcomes ++ [.error error]) c := by
  have htask := RunId.taskOf?_of_error herror
  have hrepeat : run.isRepeat payloads payload = false := by rw [RunId.isRepeat, htask]; rfl
  exact {
    outcomes_eq := by simp [withEarlier_concat, hrepeat, herror, h.outcomes_eq]
    discarded_eq := by simp [withEarlier_concat, hrepeat, h.discarded_eq]
    mem_seen_iff := by simpa only [passedTasks_concat_error] using h.mem_seen_iff
    nodup := by simpa only [passedTasks_concat_error] using h.nodup
    runId_eq := h.runId_eq
    seen_iff := by simp [h.seen_iff, htask] }

/-- What repeats another signal is counted. -/
theorem discard (h : Examined run payloads outcomes c) {signal : Signal} {payload : Json}
    (hsignal : run.outcomeOf payload = .ok signal) (hseen : signal.taskNo ∈ c.seen) :
    Examined run (payloads ++ [payload]) outcomes { c with discarded := c.discarded + 1 } := by
  have htask := RunId.taskOf?_of_ok hsignal
  have hrepeat : run.isRepeat payloads payload = true := by
    rw [h.isRepeat_of_ok hsignal, decide_eq_true hseen]
  exact {
    outcomes_eq := by simp [withEarlier_concat, hrepeat, h.outcomes_eq]
    discarded_eq := by simp [withEarlier_concat, hrepeat, h.discarded_eq]
    mem_seen_iff := h.mem_seen_iff
    nodup := h.nodup
    runId_eq := h.runId_eq
    seen_iff := by
      intro taskNo
      have hold : taskNo = signal.taskNo → taskNo ∈ payloads.filterMap run.taskOf? := by
        rintro rfl
        exact (h.seen_iff _).1 hseen
      simpa [h.seen_iff, htask] using hold }

/-- The first signal of a task passes, and the task counts as seen from then on. -/
theorem pass (h : Examined run payloads outcomes c) {signal : Signal} {payload : Json}
    (hsignal : run.outcomeOf payload = .ok signal) (hseen : signal.taskNo ∉ c.seen) :
    Examined run (payloads ++ [payload]) (outcomes ++ [.ok signal])
      { c with seen := signal.taskNo :: c.seen } := by
  have htask := RunId.taskOf?_of_ok hsignal
  have hrepeat : run.isRepeat payloads payload = false := by
    rw [h.isRepeat_of_ok hsignal, decide_eq_false hseen]
  exact {
    outcomes_eq := by simp [withEarlier_concat, hrepeat, hsignal, h.outcomes_eq]
    discarded_eq := by simp [withEarlier_concat, hrepeat, h.discarded_eq]
    mem_seen_iff := by simp [passedTasks_concat_ok, h.mem_seen_iff, or_comm]
    nodup := by
      rw [h.mem_seen_iff] at hseen
      rw [passedTasks_concat_ok, ← List.concat_eq_append]
      exact h.nodup.concat hseen
    runId_eq := h.runId_eq
    seen_iff := by simp [h.seen_iff, htask, or_comm] }

/-- Whatever becomes of a payload, a channel has examined one more. -/
theorem examine (h : Examined run payloads outcomes c) (payload : Json) :
    Examined run (payloads ++ [payload]) (outcomes ++ (c.examine payload).1.outcome?.toList)
      (c.examine payload).2 := by
  obtain rfl := h.runId_eq
  rw [examine_eq]
  cases houtcome : c.runId.outcomeOf payload with
  | error error => exact h.refuse houtcome
  | ok signal =>
    by_cases hseen : signal.taskNo ∈ c.seen
    · simpa [hseen, Admission.outcome?] using h.discard houtcome hseen
    · simpa [hseen, Admission.outcome?] using h.pass houtcome hseen

end Examined

/-! ## Receiving from what waits -/

/-- A channel keeps its queue, and the routing key it is bound to. -/
theorem examine_route (c : Channel) (payload : Json) :
    (c.examine payload).2.queue = c.queue ∧
      (c.examine payload).2.routingKey = c.routingKey := by
  rw [examine_eq]
  split
  · exact ⟨rfl, rfl⟩
  · split <;> exact ⟨rfl, rfl⟩

theorem receive_route (waiting : List Json) (c : Channel) :
    (receive waiting c).2.2.queue = c.queue ∧
      (receive waiting c).2.2.routingKey = c.routingKey := by
  induction waiting generalizing c with
  | nil => exact ⟨rfl, rfl⟩
  | cons payload rest ih =>
    have hroute := c.examine_route payload
    rw [receive]
    generalize c.examine payload = result at hroute ⊢
    obtain ⟨admission, c'⟩ := result
    cases admission with
    | passed signal => exact hroute
    | refused error => exact hroute
    | repeated => exact ⟨(ih c').1.trans hroute.1, (ih c').2.trans hroute.2⟩

/-- If nothing is received, nothing waits any longer. -/
theorem receive_none {waiting : List Json} {c : Channel} (h : (receive waiting c).1 = none) :
    (receive waiting c).2.1 = [] := by
  fun_induction receive waiting c with
  | case1 => rfl
  | case2 => cases h
  | case3 => cases h
  | case4 _ _ _ _ _ ih => exact ih h

/-- If something is received, less waits than before. -/
theorem receive_some {waiting : List Json} {c : Channel} {received : Except RunError Signal}
    (h : (receive waiting c).1 = some received) :
    (receive waiting c).2.1.length < waiting.length := by
  fun_induction receive waiting c with
  | case1 => cases h
  | case2 => exact Nat.lt_succ_self _
  | case3 => exact Nat.lt_succ_self _
  | case4 _ _ _ _ _ ih => exact (ih h).trans (Nat.lt_succ_self _)

/-- Receiving examines payloads up to one that is handed out or refused, or all of them. -/
theorem Examined.receive (h : Examined run payloads outcomes c) (waiting : List Json) :
    ∃ examined, waiting = examined ++ (receive waiting c).2.1 ∧
      Examined run (payloads ++ examined) (outcomes ++ (receive waiting c).1.toList)
        (receive waiting c).2.2 := by
  induction waiting generalizing payloads c with
  | nil => exact ⟨[], rfl, by simpa [Channel.receive] using h⟩
  | cons payload rest ih =>
    have hnext := h.examine payload
    rw [Channel.receive]
    generalize c.examine payload = result at hnext ⊢
    obtain ⟨admission, c'⟩ := result
    cases admission with
    | passed signal => exact ⟨[payload], rfl, hnext⟩
    | refused error => exact ⟨[payload], rfl, hnext⟩
    | repeated =>
      simp only [Admission.outcome?, Option.toList_none, List.append_nil] at hnext
      obtain ⟨examined, hrest, hexamined⟩ := ih hnext
      refine ⟨payload :: examined, congrArg (payload :: ·) hrest, ?_⟩
      simpa using hexamined

/-- A poll receives from the queue of the channel, and leaves the rest in it. -/
theorem poll_eq (c : Channel) (b : Broker) :
    c.poll b = ((receive (b.waiting c.queue) c).1, (receive (b.waiting c.queue) c).2.2,
      b.setWaiting c.queue (receive (b.waiting c.queue) c).2.1) := by
  rw [poll]
  exact congrArg (fun queue => (_, _, b.setWaiting queue _)) (receive_route _ c).1

/-- What waits after a poll is what comes behind the payload that was received. -/
theorem waiting_poll (c : Channel) (b : Broker) :
    (c.poll b).2.2.waiting c.queue = (receive (b.waiting c.queue) c).2.1 := by
  rw [poll_eq]
  cases hqueue : b.queues.get? c.queue with
  | none => simp [Broker.setWaiting, Broker.waiting, hqueue, receive]
  | some q => simp [Broker.setWaiting, Broker.waiting, hqueue]

theorem poll_queue (c : Channel) (b : Broker) : (c.poll b).2.1.queue = c.queue :=
  (receive_route _ c).1

theorem poll_none {b : Broker} (h : (c.poll b).1 = none) :
    (c.poll b).2.2.waiting c.queue = [] :=
  (waiting_poll c b).trans (receive_none h)

theorem poll_some {b : Broker} {received : Except RunError Signal}
    (h : (c.poll b).1 = some received) :
    ((c.poll b).2.2.waiting c.queue).length < (b.waiting c.queue).length := by
  rw [waiting_poll]
  exact receive_some h

section PollUpTo

variable {times : Nat} {b : Broker}

theorem pollUpTo_succ_of_none (h : (c.poll b).1 = none) :
    c.pollUpTo (times + 1) b = ([], (c.poll b).2) := by
  rw [pollUpTo]
  generalize c.poll b = result at h ⊢
  obtain ⟨received, c', b'⟩ := result
  obtain rfl : received = none := h
  rfl

theorem pollUpTo_succ_of_some {received : Except RunError Signal}
    (h : (c.poll b).1 = some received) :
    c.pollUpTo (times + 1) b = (received :: ((c.poll b).2.1.pollUpTo times (c.poll b).2.2).1,
      ((c.poll b).2.1.pollUpTo times (c.poll b).2.2).2) := by
  rw [pollUpTo]
  generalize c.poll b = result at h ⊢
  obtain ⟨_, c', b'⟩ := result
  obtain rfl : _ = some received := h
  rfl

theorem pollUpTo_queue (times : Nat) (c : Channel) (b : Broker) :
    (c.pollUpTo times b).2.1.queue = c.queue := by
  induction times generalizing c b with
  | zero => rfl
  | succ times ih =>
    cases hpoll : (c.poll b).1 with
    | none => rw [pollUpTo_succ_of_none hpoll, poll_queue]
    | some received => rw [pollUpTo_succ_of_some hpoll, ih, poll_queue]

/-- Polling as often as there are payloads leaves nothing that waits. -/
theorem waiting_pollUpTo (h : (b.waiting c.queue).length ≤ times) :
    (c.pollUpTo times b).2.2.waiting c.queue = [] := by
  induction times generalizing c b with
  | zero => exact List.eq_nil_of_length_eq_zero (Nat.le_zero.1 h)
  | succ times ih =>
    cases hpoll : (c.poll b).1 with
    | none =>
      rw [pollUpTo_succ_of_none hpoll]
      exact poll_none hpoll
    | some received =>
      have hless := poll_some hpoll
      rw [pollUpTo_succ_of_some hpoll, ← c.poll_queue b]
      apply ih
      rw [poll_queue]
      omega

end PollUpTo

/-! ## A channel on a broker -/

/-- A channel of a run was opened on a broker. Since then payloads have arrived at its queue, and
some outcomes were received, whatever else happened on the broker. -/
inductive Intake (run : RunId) :
    List Json → List (Except RunError Signal) → Channel → Broker → Prop
  | opened {signaling : Signaling} {b₀ b : Broker} {c : Channel}
      (h : openOn run signaling b₀ = .ok (c, b)) : Intake run [] [] c b
  /-- A payload is published, for the channel or for others. -/
  | publish {arrived outcomes c b} (key : String) (payload : Json)
      (h : Intake run arrived outcomes c b) :
      Intake run (if key = c.routingKey then arrived ++ [payload] else arrived) outcomes c
        (b.publish key payload)
  /-- Something happens to other queues. -/
  | elsewhere {arrived outcomes c b b'} (hsame : b'.queues.get? c.queue = b.queues.get? c.queue)
      (h : Intake run arrived outcomes c b) : Intake run arrived outcomes c b'
  | poll {arrived outcomes c b} (h : Intake run arrived outcomes c b) :
      Intake run arrived (outcomes ++ (c.poll b).1.toList) (c.poll b).2.1 (c.poll b).2.2

namespace Intake

variable {arrived : List Json} {b : Broker}

/-- The queue of a channel is consumed and has its routing key. What waits in it has arrived behind
what was examined. -/
theorem kept (h : Intake run arrived outcomes c b) :
    ∃ declaration examined waiting,
      b.queues.get? c.queue = some ⟨declaration, true, waiting⟩ ∧
        declaration.routingKey = c.routingKey ∧ arrived = examined ++ waiting ∧
          Examined run examined outcomes c := by
  induction h with
  | @opened signaling b₀ b c h =>
    simp only [openOn, Transport.declare, Broker.declare] at h
    split at h
    · next hdeclare =>
      split at hdeclare
      · cases hdeclare
      · obtain rfl := Except.ok.inj hdeclare
        obtain ⟨rfl, rfl⟩ := Prod.mk.inj (Except.ok.inj h)
        exact ⟨_, [], [], SortedMap.get?_insert_self _ _ _, rfl, rfl, .fresh⟩
    · cases h
  | @publish arrived outcomes c b key payload h ih =>
    obtain ⟨declaration, examined, waiting, hqueue, hkey, rfl, hexamined⟩ := ih
    by_cases harrives : key = c.routingKey
    · refine ⟨declaration, examined, waiting ++ [payload], ?_, hkey, ?_, hexamined⟩
      · simp [Broker.publish, SortedMap.get?_mapValues, hqueue, Broker.Queue.offer, hkey,
          harrives]
      · rw [if_pos harrives, List.append_assoc]
    · refine ⟨declaration, examined, waiting, ?_, hkey, if_neg harrives, hexamined⟩
      simp [Broker.publish, SortedMap.get?_mapValues, hqueue, Broker.Queue.offer, hkey,
        Ne.symm harrives]
  | elsewhere hsame h ih => rwa [hsame]
  | @poll arrived outcomes c b h ih =>
    obtain ⟨declaration, examined, waiting, hqueue, hkey, rfl, hexamined⟩ := ih
    obtain ⟨taken, hwaiting, htaken⟩ := hexamined.receive waiting
    obtain ⟨hsame, hsamekey⟩ := receive_route waiting c
    rw [poll_eq, Broker.waiting_of_get? hqueue]
    refine ⟨declaration, examined ++ taken, (receive waiting c).2.1, ?_, hkey.trans hsamekey.symm,
      ?_, htaken⟩
    · simp [Broker.setWaiting, hqueue, hsame]
    · rw [List.append_assoc, ← hwaiting]

theorem exists_examined (h : Intake run arrived outcomes c b) :
    ∃ examined, arrived = examined ++ b.waiting c.queue ∧ Examined run examined outcomes c := by
  obtain ⟨declaration, examined, waiting, hqueue, -, harrived, hexamined⟩ := h.kept
  exact ⟨examined, Broker.waiting_of_get? hqueue ▸ harrived, hexamined⟩

/-- Polling up to a number of times is polling. -/
theorem pollUpTo (h : Intake run arrived outcomes c b) (times : Nat) :
    Intake run arrived (outcomes ++ (c.pollUpTo times b).1) (c.pollUpTo times b).2.1
      (c.pollUpTo times b).2.2 := by
  induction times generalizing outcomes c b with
  | zero => simpa [Channel.pollUpTo] using h
  | succ times ih =>
    have hnext := h.poll
    cases hpoll : (c.poll b).1 with
    | none =>
      rw [hpoll] at hnext
      rw [pollUpTo_succ_of_none hpoll]
      exact hnext
    | some received =>
      rw [hpoll] at hnext
      rw [pollUpTo_succ_of_some hpoll]
      simpa using ih hnext

/-- Payloads are published one after another. -/
theorem publishAll (h : Intake run arrived outcomes c b) (payloads : List Json) :
    Intake run (arrived ++ payloads) outcomes c
      (payloads.foldl (fun b payload => b.publish c.routingKey payload) b) := by
  induction payloads generalizing arrived b with
  | nil => simpa using h
  | cons payload rest ih =>
    have hnext := h.publish c.routingKey payload
    rw [if_pos rfl] at hnext
    simpa using ih hnext

/-- At any time a channel has handed out the first signal of each task, and an error for whatever
is no signal of its run, among all that has arrived but does not wait any longer; and once it was
polled as often as payloads were waiting, among all that has arrived. -/
theorem deduplicated (h : Intake run arrived outcomes c b) :
    (∃ examined, arrived = examined ++ b.waiting c.queue ∧
      Deduplicated run examined outcomes c) ∧
    ∀ times, (b.waiting c.queue).length ≤ times →
      (c.pollUpTo times b).2.2.waiting c.queue = [] ∧
        Deduplicated run arrived (outcomes ++ (c.pollUpTo times b).1) (c.pollUpTo times b).2.1 := by
  refine ⟨?_, fun times htimes => ?_⟩
  · obtain ⟨examined, harrived, hexamined⟩ := h.exists_examined
    exact ⟨examined, harrived, hexamined.toDeduplicated⟩
  · have hempty := waiting_pollUpTo htimes
    obtain ⟨examined, harrived, hexamined⟩ := (h.pollUpTo times).exists_examined
    rw [pollUpTo_queue, hempty, List.append_nil] at harrived
    exact ⟨hempty, harrived ▸ hexamined.toDeduplicated⟩

/-- Payloads for the run 7: one that is no signal, one of another run, the first two of a task, of
which the second tells of a failure, and one of another task. -/
def mixed : List Json := [
  .text "done",
  (Signal.completed ⟨"8"⟩ 0 1 .epoch).toJson,
  (Signal.completed ⟨"7"⟩ 0 3 .epoch).toJson,
  (Signal.failure ⟨"7"⟩ 0 "late" .epoch).toJson,
  (Signal.completed ⟨"7"⟩ 1 4 .epoch).toJson]

theorem deduplicated_of_mixed : ∃ b, Intake ⟨"7"⟩ mixed [] (ofRun ⟨"7"⟩ .usual) b ∧
    ((ofRun ⟨"7"⟩ .usual).pollUpTo 5 b).2.1.seen = [1, 0] ∧
      ((ofRun ⟨"7"⟩ .usual).pollUpTo 5 b).2.1.discarded = 1 ∧
        Deduplicated ⟨"7"⟩ mixed ((ofRun ⟨"7"⟩ .usual).pollUpTo 5 b).1
          ((ofRun ⟨"7"⟩ .usual).pollUpTo 5 b).2.1 := by
  have hopened := @opened ⟨"7"⟩ .usual (.new "dispatch_tasks") _ _ rfl
  have hintake := hopened.publishAll mixed
  refine ⟨_, hintake, by decide +kernel, by decide +kernel, ?_⟩
  exact (hintake.deduplicated.2 5 (by decide +kernel)).2

end Intake

end Channel

end BatchRun
