import BatchRun.Proofs.Run.InStep

/-!
# A run on the control node is a plain loop

A run whose tasks are run on the control node, over a broker of its own, does the same as a plain
loop over its tasks: the same tasks are run in the same order, and it ends in the same way. The
limit on the tasks in flight decides how many of them are queued ahead, and does not show in
anything else. Nothing has to be waited for, so that such a run always comes to its end.

The limit itself is bounded: a run whose limit is beyond the permits that can be counted crashes
before it has run anything.

## Main definitions

* `Run.movesLeft`: how many moves of the control node are left at most

## Main results

* `Dispatcher.runs_as_loop`: runs on the control node keep step with the loop, and end
-/

namespace BatchRun

open Std

variable {σ α κ β : Type} [Ord κ]

/-- How many moves the control node has to make before it replies, at most: each task has to be
submitted and acknowledged, and the phases in between come in their order. -/
def Run.movesLeft (plan : Plan α κ β) (r : Run σ α κ β) : Nat :=
  (plan.args.length - r.nextTaskNo) + 3 * (plan.args.length - r.channel.seen.length) +
    match r.phase with
    | .filling _ => 4
    | .deciding => 3
    | .awaiting _ => 2
    | .joining _ => 1
    | .resting | .replied _ | .crashed _ => 0

/-- There are not more moves than four for each task, and four. -/
theorem Run.movesLeft_le (plan : Plan α κ β) (r : Run σ α κ β) :
    r.movesLeft plan ≤ 4 * (plan.args.length + 1) := by
  rw [movesLeft]
  split <;> omega

/-- A question is not answered with an error, and does not leave the control node at rest. -/
theorem Run.phase_ask (r : Run σ α κ β) :
    r.ask.phase ≠ .resting ∧ ∀ error, r.ask.phase ≠ .replied (.error error) := by
  rw [ask]
  split <;> simp [*]

variable [TransOrd κ] [Mergeable β] [Workload α]

/-- Nothing is played on once the control node has replied. -/
theorem Run.play_of_isSettled [Transport σ] {r : Run σ α κ β} (h : r.isSettled = true)
    (held : α → Bool) (patience : Nat) : r.play held patience = r := by
  cases patience with
  | zero => rfl
  | succ patience => rw [play, if_pos h]

namespace Run.InTurn

variable {plan : Plan α κ β} {told : List (Completion κ β)} {begun done queue : List (Task α)}
  {hand : Option (Task α)} {r r' : Run Broker α κ β}

/-- As long as a question is open, the control node has something to do. -/
theorem exists_control? (hfits : plan.Fits) (hlive : r.Live plan told begun)
    (h : r.InTurn plan done hand queue) (hresting : r.phase ≠ .resting)
    (hopen : ∀ reply, r.phase ≠ .replied reply) : ∃ r', r.control? = some r' := by
  cases hphase : r.phase with
  | resting => exact absurd hphase hresting
  | replied reply => exact absurd hphase (hopen reply)
  | crashed fault =>
    have hstaged := hlive.staged
    rw [Staged, hphase] at hstaged
    exact hstaged.elim
  | filling acknowledged => exact ⟨_, by rw [control?, hphase]⟩
  | deciding => exact ⟨_, by rw [control?, hphase]⟩
  | awaiting since =>
    obtain ⟨task, rfl⟩ := Option.isSome_iff_exists.1 (h.awaits.2 ⟨since, hphase⟩)
    obtain ⟨r', hr', -⟩ := h.control?_cases hfits hlive
    exact ⟨r', hr'⟩
  | joining last =>
    obtain ⟨closed, hexecutor⟩ := h.executor
    simp only [control?, hphase, join?, hexecutor]
    split
    · exact ⟨_, rfl⟩
    · exact ⟨_, rfl⟩

/-- The executor of a run that is done is not waited for, as nothing is queued any more. -/
theorem join?_eq (hlimit : 0 < plan.limit) (hlive : r.Live plan told begun)
    (h : r.InTurn plan done hand queue) {last : Option (Completion κ β)}
    (hphase : r.phase = .joining last) :
    r.join? last = some ({ r with phase := .replied (.ok last) }.note (.runCompleted r.runId)) := by
  have hstaged := hlive.staged
  rw [Staged, hphase] at hstaged
  obtain ⟨-, hfull, hfinished⟩ := hstaged
  obtain ⟨-, -, rfl⟩ := h.done_eq hlimit hlive hfull (Bool.and_eq_true_iff.1 hfinished).2
  obtain ⟨closed, hexecutor⟩ := h.executor
  rw [join?, if_pos (by rw [hexecutor]; rfl)]

/-- Each move of the control node takes it closer to a reply. -/
theorem movesLeft_lt (hlimit : 0 < plan.limit) (hfits : plan.Fits)
    (hlive : r.Live plan told begun) (h : r.InTurn plan done hand queue)
    (hmove : r.control? = some r') :
    (∃ reply, r'.phase = .replied reply) ∨ (∃ fault, r'.phase = .crashed fault) ∨
      r'.phase ≠ .resting ∧ r'.movesLeft plan < r.movesLeft plan := by
  have hseen := congrArg List.length h.seen
  rw [List.length_reverse, List.length_map] at hseen
  have hdone := h.done_prefix.length_le
  rw [plan.length_tasks] at hdone
  cases hand with
  | some task =>
    obtain ⟨since, hphase⟩ := h.awaits.1 rfl
    obtain ⟨r₁, hr₁, hcases⟩ := h.control?_cases hfits hlive
    obtain rfl := Option.some.inj (hmove.symm.trans hr₁)
    rcases hcases with ⟨_, _, hfailed⟩ | ⟨_, _, _, hfailed⟩ | ⟨⟨completion, hfilling⟩, hnext⟩
    · exact .inl ⟨_, hfailed.phase⟩
    · exact .inl ⟨_, hfailed.phase⟩
    · -- one more signal has passed, which counts for more than filling again
      have hlive' := (hlive.control? hmove).live (by simp [hfilling]) (by simp [hfilling])
      have hseen' := congrArg List.length hnext.seen
      have hdone' := hnext.done_prefix.length_le
      have hsame := hnext.nextTaskNo_eq hlive'
      rw [List.length_reverse, List.length_map] at hseen'
      rw [plan.length_tasks] at hdone'
      rw [List.length_append] at hseen' hdone' hsame
      have hbefore := h.nextTaskNo_eq hlive
      simp only [Option.toList_some, Option.toList_none, List.length_singleton,
        List.length_nil] at hsame hbefore hseen' hdone'
      refine .inr (.inr ⟨by simp [hfilling], ?_⟩)
      simp only [movesLeft, hphase, hfilling]
      omega
  | none =>
    have hnothing : ∀ since, r.phase ≠ .awaiting since := fun since hphase => by
      simpa using h.awaits.2 ⟨since, hphase⟩
    cases did_of_control? hmove with
    | submit acknowledged args rest permit semaphore executor hphase _ _ hpending =>
      have hdrop := congrArg List.length (hpending.symm.trans hlive.ledger.pending)
      rw [List.length_cons, List.length_drop] at hdrop
      refine .inr (.inr ⟨by simp [hphase], ?_⟩)
      simp only [movesLeft]
      omega
    | fill hphase => exact .inr (.inr ⟨by simp, by simp only [movesLeft, hphase]; omega⟩)
    | reply completion => exact .inl ⟨_, rfl⟩
    | finish last hphase =>
      refine .inr (.inr ⟨by simp [finish], ?_⟩)
      rcases hphase with ⟨hphase, -⟩ | ⟨hphase, -⟩ <;>
      · simp only [movesLeft, finish, hphase]
        omega
    | drive executor commons phase hphase =>
      rcases hphase with ⟨hphase, -, rfl⟩ | ⟨last, hphase, rfl⟩
      · refine .inr (.inr ⟨by simp, ?_⟩)
        simp only [movesLeft, hphase]
        omega
      · -- nothing is queued any more, so that the executor is not waited for
        rw [control?, hphase] at hmove
        simp only [h.join?_eq hlimit hlive hphase, Option.some.injEq] at hmove
        cases congrArg Run.phase hmove
    | crash fault => exact .inr (.inl ⟨fault, rfl⟩)
    | join last => exact .inl ⟨_, rfl⟩
    | drop since _ _ hphase => exact absurd hphase (hnothing since)
    | acknowledge since _ _ _ _ _ _ _ _ _ hphase => exact absurd hphase (hnothing since)
    | fail error _ _ hfailed => exact .inl ⟨_, hfailed.phase⟩

end Run.InTurn

namespace Session

variable {plan : Plan α κ β} {s : Session Broker α κ β}

/-- Rows of steps keep a session in turn. -/
theorem TakesTurns.steps (hlimit : 0 < plan.limit) (hfits : plan.Fits)
    (hmerges : plan.MergesInTurn)
    {t : Session Broker α κ β} (hrow : Relation.ReflTransGen Step s t) (h : s.TakesTurns plan) :
    t.TakesTurns plan := by
  induction hrow with
  | refl => exact h
  | tail _ hstep ih => exact ih.step hlimit hfits hmerges hstep

/-- A run whose tasks come in turn has not crashed. -/
theorem TakesTurns.phase_ne_crashed (h : s.TakesTurns plan) (fault : Fault) :
    s.run.phase ≠ .crashed fault := by
  intro hphase
  cases h with
  | live _ _ _ hlive =>
    have hstaged := hlive.staged
    rw [Run.Staged, hphase] at hstaged
    exact hstaged.elim
  | failed _ herror =>
    rw [hphase] at herror
    cases herror

/-- A session is played until the control node replies, if there are enough moves. -/
theorem TakesTurns.play_replied (hlimit : 0 < plan.limit) (hfits : plan.Fits)
    (hmerges : plan.MergesInTurn)
    (held : α → Bool) {patience : Nat} (h : s.TakesTurns plan) (hresting : s.run.phase ≠ .resting)
    (hpatience : s.run.movesLeft plan < patience) :
    ∃ reply, (s.run.play held patience).phase = .replied reply := by
  -- with each move that is played fewer are left
  induction patience generalizing s with
  | zero => omega
  | succ patience ih =>
    by_cases hreplied : ∃ reply, s.run.phase = .replied reply
    · obtain ⟨reply, hphase⟩ := hreplied
      rw [Run.play_of_isSettled (by rw [Run.isSettled, hphase])]
      exact ⟨reply, hphase⟩
    · have hopen : ∀ reply, s.run.phase ≠ .replied reply := not_exists.1 hreplied
      obtain ⟨run, hmove, hnext⟩ : ∃ run, s.run.control? = some run ∧
          ((∃ reply, run.phase = .replied reply) ∨ (∃ fault, run.phase = .crashed fault) ∨
            run.phase ≠ .resting ∧ run.movesLeft plan < s.run.movesLeft plan) := by
        cases h with
        | failed _ herror => exact absurd herror (hopen _)
        | live done hand queue hlive hturn =>
          obtain ⟨run, hmove⟩ := hturn.exists_control? hfits hlive hresting hopen
          exact ⟨run, hmove, hturn.movesLeft_lt hlimit hfits hlive hmove⟩
      have hsettled : s.run.isSettled = false := by
        have hcrashed := h.phase_ne_crashed
        rw [Run.isSettled]
        split <;> simp_all
      have hplayed : s.run.play held (patience + 1) = run.play held patience := by
        rw [Run.play, hsettled, Run.nextMove, hmove]
        rfl
      have hstep := h.step hlimit hfits hmerges (.move (m := .control) hmove)
      rw [hplayed]
      rcases hnext with ⟨reply, hphase⟩ | ⟨fault, hphase⟩ | ⟨hresting', hless⟩
      · rw [Run.play_of_isSettled (by rw [Run.isSettled, hphase])]
        exact ⟨reply, hphase⟩
      · exact absurd hphase (hstep.phase_ne_crashed fault)
      · exact ih hstep hresting' (by simp only; omega)

/-- A caller was told of no more tasks than there are. -/
theorem TakesTurns.length_le (h : s.TakesTurns plan)
    (hnotFailed : ∀ error, s.run.phase ≠ .replied (.error error)) :
    s.acknowledged.length ≤ plan.args.length := by
  cases h with
  | failed error hphase => exact absurd hphase (hnotFailed error)
  | live done hand queue hlive hturn =>
    have hdone := congrArg List.length (hturn.map_no_done hlive)
    have hle := hturn.done_prefix.length_le
    rw [List.length_map, List.length_map, List.length_append] at hdone
    rw [plan.length_tasks] at hle
    omega

/-- A run that takes turns does not stall, if there are enough moves and questions. -/
theorem TakesTurns.toEnd_ne_stalled (hlimit : 0 < plan.limit) (hfits : plan.Fits)
    (hmerges : plan.MergesInTurn)
    {patience questions : Nat} (hpatience : 4 * (plan.args.length + 1) < patience)
    (h : s.TakesTurns plan) {r : Run Broker α κ β} (hs : s.run = r.ask)
    (hquestions : plan.args.length < s.acknowledged.length + questions) :
    (r.toEnd patience questions s.result).1 ≠ .stalled := by
  -- each question but the last is answered with one more completion
  induction questions generalizing s r with
  | zero =>
    have hle := h.length_le (hs ▸ r.phase_ask.2)
    omega
  | succ questions ih =>
    obtain ⟨begun, hrow⟩ := reaches_play (fun _ => false) patience s
    have hplayed := h.steps hlimit hfits hmerges hrow
    obtain ⟨reply, hphase⟩ := h.play_replied hlimit hfits hmerges (fun _ => false)
      (hs ▸ r.phase_ask.1) (Nat.lt_of_le_of_lt (s.run.movesLeft_le plan) hpatience)
    rw [Run.toEnd, Run.next, ← hs]
    generalize s.run.play (fun _ => false) patience = played at hplayed hphase
    cases reply with
    | error error => simp [hphase]
    | ok last =>
      cases last with
      | none =>
        rcases played.conclude_eq s.result with ⟨result, heq⟩ | ⟨fault, heq⟩ <;>
          simp [hphase, heq]
      | some completion =>
        -- the caller goes on with what it has merged
        have hgoes : ∀ result, s.result.absorb completion.part = .ok result →
            (played.toEnd patience questions result).1 ≠ .stalled := by
          intro result hresult
          have hstep : Step ⟨played, s.result, begun, s.acknowledged⟩
              ⟨played.ask, result, begun, s.acknowledged ++ [completion]⟩ :=
            .absorb hphase hresult
          refine ih (hplayed.step hlimit hfits hmerges hstep) rfl ?_
          rw [List.length_append, List.length_singleton]
          omega
        simp only [hphase]
        cases hpart : completion.part with
        | none => exact hgoes _ (by rw [hpart]; rfl)
        | some part =>
          cases hmerge : s.result.mergeTally part with
          | error fault => simp [hmerge]
          | ok result =>
            simp only [hmerge]
            exact hgoes _ (by rw [hpart, Tally.absorb, hmerge])

end Session

namespace Dispatcher

variable {d : Dispatcher α κ β} {pending : Pending α} {total : Nat} {expected : Option Nat}

omit [TransOrd κ] [Mergeable β] [Workload α] in
/-- A run on the control node starts over a broker of its own, whatever its limit. -/
theorem exists_start (exchange : String) (total : Nat)
    (hexpected : d.expectedTasks pending = .ok expected)
    (hmode : d.settings.mode.resolve d.settings.limit expected = .sequential) :
    ∃ opened : Broker,
      opened.Keeps (d.plan pending total).channel.queue (d.plan pending total).channel.routingKey
        [] ∧
      d.start (Broker.new exchange) pending total =
        .ok (d.fresh pending total .sequential (.sequential [] false) opened) := by
  have hfree : (Broker.new exchange).isConsumed (d.plan pending total).channel.queue = false := rfl
  obtain ⟨opened, hdeclare, hkeeps⟩ :=
    Broker.exists_declare hfree (d.plan pending total).channel.routingKey
  have hopen : Channel.openOn d.runId d.settings.signaling (Broker.new exchange) =
      .ok ((d.plan pending total).channel, opened) := by
    have hdeclare' : Transport.declare (.transient
        (Channel.ofRun d.runId d.settings.signaling).queue
        (Channel.ofRun d.runId d.settings.signaling).routingKey) (Broker.new exchange) =
          .ok opened := hdeclare
    simp only [Channel.openOn, hdeclare']
    rfl
  refine ⟨opened, hkeeps, ?_⟩
  simp only [start, hexpected, hopen, hmode, Executor.ofMode]
  rfl

section Fresh

variable {run : Run Broker α κ β} {opened : Broker}

/-- The tasks of a run that was just started on the control node come in turn, if its permits can
be counted. -/
theorem takesTurns_start (hpermits : d.settings.limit ≤ mostPermits)
    (hkeeps : opened.Keeps (d.plan pending total).channel.queue
      (d.plan pending total).channel.routingKey [])
    (hstart : d.start (Broker.new exchange) pending total = .ok run)
    (hrun : run = d.fresh pending total .sequential (.sequential [] false) opened) :
    (Session.start run).TakesTurns (d.plan pending total) := by
  subst hrun
  have hphase : (d.fresh pending total .sequential (.sequential [] false) opened).phase =
      .resting := if_neg (Nat.not_lt.2 hpermits)
  have hlive := ((live_of_start hstart).resolve_left fun h => by rw [hphase] at h; cases h.1)
  refine .live [] none [] hlive ?_ rfl rfl
  rw [Session.start, Run.ask_of_resting hphase rfl]
  exact {
    submitted := List.take_zero
    executor := ⟨false, rfl⟩
    seen := rfl
    computed := rfl
    awaits := by simp
    buffered := rfl
    outcomes := rfl
    keeps := ⟨_, Commons.read_now (.start opened false d.timings : Commons Broker κ β), hkeeps⟩
    shared := by
      intro shared hshared
      simp only [fresh, Commons.start, Option.ite_none_right_eq_some,
        Option.some.injEq] at hshared
      rw [← hshared.2]
      rfl }

/-- If its permits cannot be counted, a run on the control node has crashed before its caller asks
for anything, and no task is run. -/
theorem reaches_of_overloaded (hpermits : mostPermits < d.settings.limit)
    (hrun : run = d.fresh pending total .sequential (.sequential [] false) opened)
    {s : Session Broker α κ β} (hreaches : Session.Reaches run s) :
    s.begun = [] ∧ s.ending? = some (.crashed (.permits mostPermits)) := by
  subst hrun
  have hphase : (d.fresh pending total .sequential (.sequential [] false) opened).phase =
      .crashed (.permits mostPermits) := if_pos hpermits
  -- a crashed control node makes no move, and a sequential executor has no other workers
  have hkept : s.begun = [] ∧ s.run.phase = .crashed (.permits mostPermits) ∧
      ∃ queue closed, s.run.executor = .sequential queue closed := by
    induction hreaches with
    | refl =>
      have hask : (d.fresh pending total .sequential (.sequential [] false) opened).ask =
          d.fresh pending total .sequential (.sequential [] false) opened := by
        simp only [Run.ask, hphase]
      rw [Session.start, hask]
      exact ⟨rfl, hphase, [], false, rfl⟩
    | tail _ hstep ih =>
      obtain ⟨hbegun, hcrashed, queue, closed, hexecutor⟩ := ih
      cases hstep with
      | absorb hreplied => rw [hcrashed] at hreplied; cases hreplied
      | @move m run hmove =>
        cases m with
        | control => simp [Run.move?, Run.control?, hcrashed] at hmove
        | expire => simp [Run.move?, Run.expire?, hcrashed] at hmove
        | worker index => simp [Run.move?, Run.worker?, hexecutor, Executor.step] at hmove
  refine ⟨hkept.1, ?_⟩
  rw [Session.ending?, hkept.2.1]

end Fresh

/-- A run that has crashed before it is played is not played. -/
theorem ending_of_crashed {run : Run Broker α κ β} {fault : Fault} {exchange : String}
    (hstart : d.start (Broker.new exchange) pending total = .ok run)
    (hphase : run.phase = .crashed fault) (patience : Nat) :
    (d.execute patience (Broker.new exchange) pending total).ending = .crashed fault := by
  have hask : run.ask = run := by simp only [Run.ask, hphase]
  have hnext : run.next patience = run := by
    rw [Run.next, hask, Run.play_of_isSettled (by rw [Run.isSettled, hphase])]
  rw [execute, hstart]
  simp only [Played.ofRun, Run.questions, Run.toEnd, hnext, hphase]

/-- A run on the control node over a broker of its own does what a plain loop over its tasks does,
whatever the limit on the tasks in flight, as long as its permits can be counted: it starts,
whatever it comes to keeps step with the loop, and it ends as the loop does. Under a greater limit
it crashes as it is set up, and runs no task. -/
theorem runs_as_loop [LawfulEqOrd κ] (exchange : String) (hlimit : 0 < d.settings.limit)
    (hexpected : d.expectedTasks pending = .ok expected)
    (hmode : d.settings.mode.resolve d.settings.limit expected = .sequential)
    (hfits : (d.plan pending total).Fits)
    (hsettles : (d.plan pending total).shares = true → Mergeable.Settles β)
    (hmerges : (d.plan pending total).MergesInTurn) :
    ∃ run, d.start (Broker.new exchange) pending total = .ok run ∧
      (d.settings.limit ≤ mostPermits →
        (∀ s, Session.Reaches run s → s.InStep (d.plan pending total)) ∧
        ∀ patience, 4 * ((d.plan pending total).args.length + 1) < patience →
          (d.execute patience (Broker.new exchange) pending total).ending.upshot =
            some (d.plan pending total).looped.upshot) ∧
      (mostPermits < d.settings.limit →
        (∀ s, Session.Reaches run s →
          s.begun = [] ∧ s.ending? = some (.crashed (.permits mostPermits))) ∧
        ∀ patience, (d.execute patience (Broker.new exchange) pending total).ending =
          .crashed (.permits mostPermits)) := by
  obtain ⟨opened, hkeeps, hstart⟩ := exists_start exchange total hexpected hmode
  refine ⟨_, hstart, fun hpermits => ?_, fun hpermits => ?_⟩
  · have hturns := takesTurns_start hpermits hkeeps hstart rfl
    have hinStep : ∀ s, Session.Reaches _ s → s.InStep (d.plan pending total) :=
      fun s hreaches => (hturns.steps hlimit hfits hmerges hreaches).inStep hlimit hfits hsettles
    refine ⟨hinStep, fun patience hpatience => ?_⟩
    have hquestions : (d.plan pending total).args.length <
        (d.fresh pending total .sequential (.sequential [] false) opened).questions := by
      simp [Run.questions, fresh, plan]
    have hends := hturns.toEnd_ne_stalled hlimit hfits hmerges hpatience rfl
      (by simpa [Session.start] using hquestions)
    obtain ⟨s, hreaches, -, hending⟩ := Session.exists_of_toEnd rfl hends
    have hupshot := ((hinStep s hreaches).ending _ hending).1
    rw [execute, hstart]
    exact hupshot
  · exact ⟨fun s hreaches => reaches_of_overloaded hpermits rfl hreaches,
      ending_of_crashed hstart (if_pos hpermits)⟩

open ScriptedTask in
/-- Three tasks, two of which are queued at a time. They share a tally, and the second fails. -/
def lookingAhead : Dispatcher ScriptedTask String Count :=
  scripted { Settings.usual 2 with mode := .sequential, accumulation := .inWorker }
    [slow 20 [("a", count 1)],
      { slow 10 [] with mishap := some (.fails (.said "broken")) },
      slow 5 [("a", count 2)]]

/-- Three tasks of which the second fails: a run over them ends as the loop does, with that
failure. -/
theorem upshot_lookingAhead :
    0 < lookingAhead.settings.limit ∧ lookingAhead.settings.limit ≤ mostPermits ∧
      lookingAhead.expectedTasks .none = .ok (some 3) ∧
      lookingAhead.settings.mode.resolve lookingAhead.settings.limit (some 3) = .sequential ∧
      (lookingAhead.plan .none 3).Fits ∧ (lookingAhead.plan .none 3).shares = true ∧
      Mergeable.Settles Count ∧ (lookingAhead.plan .none 3).MergesInTurn ∧
      (lookingAhead.execute 17 (Broker.new "rehearsal") .none 3).ending.upshot =
        some (.ok (.error (.taskFailed 1 "slow" (.said "broken")))) := by
  have hexpected : lookingAhead.expectedTasks .none = .ok (some 3) := by decide +kernel
  have hfits : (lookingAhead.plan .none 3).Fits := ⟨by decide, by decide⟩
  have hmerges : (lookingAhead.plan .none 3).MergesInTurn := by
    intro _
    have hok : (Tally.empty.mergeEntries ((lookingAhead.plan .none 3).looped.ran.flatMap
        (lookingAhead.plan .none 3).entriesOf)).toBool = true := by decide +kernel
    cases hmerged : Tally.empty.mergeEntries ((lookingAhead.plan .none 3).looped.ran.flatMap
        (lookingAhead.plan .none 3).entriesOf) with
    | ok merged => exact ⟨merged, rfl⟩
    | error fault =>
      rw [hmerged] at hok
      cases hok
  obtain ⟨run, -, hloops, -⟩ := runs_as_loop "rehearsal" (by decide) hexpected (by decide) hfits
    (fun _ => Mergeable.settles_of_lawful) hmerges
  obtain ⟨-, hends⟩ := hloops (by decide)
  refine ⟨by decide, by decide, hexpected, by decide, hfits, rfl, Mergeable.settles_of_lawful,
    hmerges, ?_⟩
  rw [hends 17 (by decide)]
  rfl

open ScriptedTask in
/-- A task that may be one of more than can be counted. -/
def overloaded : Dispatcher ScriptedTask String Count :=
  scripted { Settings.usual (mostPermits + 1) with mode := .sequential } [slow 10 [("a", count 1)]]

/-- Under a limit beyond what can be counted a run does not do what the loop does: it crashes before
any task is run, and the loop gets through. -/
theorem exists_not_inStep_overloaded :
    0 < overloaded.settings.limit ∧ overloaded.expectedTasks .none = .ok (some 1) ∧
      overloaded.settings.mode.resolve overloaded.settings.limit (some 1) = .sequential ∧
      (overloaded.plan .none 1).Fits ∧ Mergeable.Settles Count ∧
      (overloaded.plan .none 1).MergesInTurn ∧
      ∃ (run : Run Broker ScriptedTask String Count) (merged : Tally String Count),
        overloaded.start (Broker.new "rehearsal") .none 1 = .ok run ∧
        (Session.start run).ending? = some (.crashed (.permits mostPermits)) ∧
        (overloaded.plan .none 1).looped.upshot = .ok (.ok merged) ∧
        ¬(Session.start run).InStep (overloaded.plan .none 1) := by
  refine ⟨by decide, by decide +kernel, by decide, ⟨by decide, by decide⟩,
    Mergeable.settles_of_lawful, by simp [Plan.MergesInTurn, plan, overloaded, scripted,
      Settings.usual], ?_⟩
  refine ⟨_, _, rfl, rfl, rfl, ?_⟩
  intro hinStep
  obtain ⟨hupshot, -⟩ := hinStep.ending _ rfl
  cases hupshot

end Dispatcher

end BatchRun
