import BatchRun.Proofs.Run.Aftermath
import BatchRun.Proofs.Run.Reporting
import BatchRun.Proofs.Run.Window

/-!
# Streams of completions

A caller may hand out the completions of a run as the items of a stream: it asks for the next one
whenever it is asked for an item, and after an error, or when there is nothing more, the stream
has ended. What happens meanwhile is a row of occasions, in any order: moves of the run, arrivals
that nobody has published here, and the caller going on from an item.

Whatever the occasions, a stream yields completions of different tasks that count up, and at most
one error, which is its last item. Without an error it ends only when all units are computed.

## Main definitions

* `Occasion`, `upshot?`: what can happen, and what comes of a row of it
* `Inquiry.follow?`, `Run.streams?`: a stream from one occasion to the next, and up to its end
* `Inquiry.IsStream`: what is true of a stream at any time

## Main results

* `Inquiry.Carries.countsUp`: the completions count up, in any surroundings
* `Inquiry.isStream_of_follow`: on whatever occasions, a stream is as it should be
-/

namespace BatchRun

open Std Relation

variable {σ α κ β : Type} [Ord κ]

/-- What can happen while a caller follows a run. -/
inductive Occasion (σ : Type) where
  | move (m : Move)
  /-- Something arrives that nobody has published here, or is lost on the way. -/
  | arrive (transport : σ)
  /-- The caller is through with the completion that it was told, and asks for the next one. -/
  | goOn

/-- What comes of a row of occasions: the verdict at the first time that there is one. -/
def upshot? {ς ω ρ : Type} (verdict? : ς → Option ρ) (after? : ς → ω → Option ς) :
    ς → List ω → Option ρ
  | s, [] => verdict? s
  | s, o :: rest => (verdict? s).or ((after? s o).bind fun s => upshot? verdict? after? s rest)

section Upshot

variable {ς ω ρ : Type} {verdict? : ς → Option ρ} {after? : ς → ω → Option ς}

theorem upshot?_of_verdict {s : ς} {r : ρ} (h : verdict? s = some r) (occasions : List ω) :
    upshot? verdict? after? s occasions = some r := by
  cases occasions with
  | nil => exact h
  | cons o rest => rw [upshot?, h, Option.some_or]

theorem upshot?_cons {s : ς} (h : verdict? s = none) (o : ω) (rest : List ω) :
    upshot? verdict? after? s (o :: rest) =
      (after? s o).bind fun s => upshot? verdict? after? s rest := by
  rw [upshot?, h, Option.none_or]

/-- An upshot is the verdict after some of the occasions. -/
theorem exists_of_upshot? {s : ς} {occasions : List ω} {r : ρ}
    (h : upshot? verdict? after? s occasions = some r) :
    ∃ front t, front <+: occasions ∧ front.foldlM after? s = some t ∧ verdict? t = some r := by
  induction occasions generalizing s with
  | nil => exact ⟨[], s, List.prefix_rfl, rfl, h⟩
  | cons o rest ih =>
    cases hverdict : verdict? s with
    | some r' =>
      rw [upshot?_of_verdict hverdict] at h
      exact ⟨[], s, List.nil_prefix, rfl, hverdict.trans h⟩
    | none =>
      rw [upshot?_cons hverdict, Option.bind_eq_some_iff] at h
      obtain ⟨s', hafter, hrest⟩ := h
      obtain ⟨front, t, hfront, hrow, ht⟩ := ih hrest
      refine ⟨o :: front, t, List.cons_prefix_cons.2 ⟨rfl, hfront⟩, ?_, ht⟩
      rw [List.foldlM_cons, hafter]
      exact hrow

/-- What every occasion keeps is kept by a row of them. -/
theorem foldlM_invariant {motive : ς → Prop} {s t : ς} {occasions : List ω} (hs : motive s)
    (hstep : ∀ s o s', motive s → after? s o = some s' → motive s')
    (h : occasions.foldlM after? s = some t) : motive t := by
  induction occasions generalizing s with
  | nil => exact Option.some.inj h ▸ hs
  | cons o rest ih =>
    rw [List.foldlM_cons] at h
    obtain ⟨s', hafter, hrest⟩ := Option.bind_eq_some_iff.1 h
    exact ih (hstep s o s' hs hafter) hrest

end Upshot

/-- What the transport of a run holds may change by itself. -/
def Run.arrive (r : Run σ α κ β) (transport : σ) : Run σ α κ β :=
  { r with commons := { r.commons with transport } }

/-- The item of a stream that a reply is, if it is one. -/
def Reply.item? : Reply κ β → Option (Except RunError (Completion κ β))
  | .ok (some completion) => some (.ok completion)
  | .ok none => none
  | .error error => some (.error error)

/-- Each completion tells the sum of all amounts up to its own, out of the total. -/
def CountsUp (total : Nat) (completions : List (Completion κ β)) : Prop :=
  ∀ i completion, completions[i]? = some completion →
    completion.progress.computed = ((completions.take (i + 1)).map (·.amount)).sum ∧
      completion.progress.total = total

/-- The counters that the last completion tells, or those of the start if there is none. -/
def lastProgress (total : Nat) (completions : List (Completion κ β)) : Progress :=
  (completions.getLast?.map Completion.progress).getD (.start total)

namespace CountsUp

variable {total : Nat} {completions : List (Completion κ β)}

/-- One more completion, whose counters go on from the sum so far. -/
theorem concat (h : CountsUp total completions) {completion : Completion κ β}
    (hcomputed : completion.progress.computed =
      (completions.map (·.amount)).sum + completion.amount)
    (htotal : completion.progress.total = total) :
    CountsUp total (completions ++ [completion]) := by
  intro i c hc
  by_cases hlt : i < completions.length
  · rw [List.getElem?_append_left hlt] at hc
    rw [List.take_append_of_le_length hlt]
    exact h i c hc
  · rw [List.getElem?_append_right (Nat.not_lt.1 hlt), List.getElem?_singleton] at hc
    split at hc
    · next hlast =>
      obtain rfl := Option.some.inj hc
      have hall : (completions ++ [completion]).length ≤ i + 1 := by
        rw [List.length_append, List.length_singleton]
        omega
      rw [List.take_of_length_le hall, List.map_append, List.sum_append]
      exact ⟨by simpa using hcomputed, htotal⟩
    · cases hc

theorem of_prefix {told : List (Completion κ β)} (h : CountsUp total completions)
    (htold : told <+: completions) : CountsUp total told := by
  obtain ⟨rest, rfl⟩ := htold
  intro i c hc
  have hlt : i < told.length := (List.getElem?_eq_some_iff.1 hc).1
  have hcounts := h i c (by rw [List.getElem?_append_left hlt, hc])
  rwa [List.take_append_of_le_length hlt] at hcounts

/-- The last of the completions tells the sum of them all. -/
theorem lastProgress_eq (h : CountsUp total completions) :
    (lastProgress total completions).computed = (completions.map (·.amount)).sum ∧
      (lastProgress total completions).total = total := by
  rw [lastProgress]
  cases hlast : completions.getLast? with
  | none =>
    rw [List.getLast?_eq_none_iff.1 hlast]
    exact ⟨rfl, rfl⟩
  | some completion =>
    have hlength : completions.length - 1 + 1 = completions.length :=
      Nat.sub_add_cancel (List.length_pos_of_mem (List.mem_of_getLast? hlast))
    obtain ⟨hcomputed, htotal⟩ := h _ completion (List.getLast?_eq_getElem? ▸ hlast)
    rw [hlength, List.take_length] at hcomputed
    exact ⟨hcomputed, htotal⟩

end CountsUp

/-- Whether the caller was told an error, or that there is nothing more. -/
def Run.saysNoMore (r : Run σ α κ β) : Bool :=
  match r.phase with
  | .replied (.ok none) | .replied (.error _) => true
  | _ => false

/-- A run that has replied is in the phase that says so. -/
theorem Run.phase_of_reply? {r : Run σ α κ β} {reply : Reply κ β} (h : r.reply? = some reply) :
    r.phase = .replied reply := by
  rw [reply?] at h
  split at h
  · next hphase => rw [hphase, Option.some.inj h]
  · cases h

/-- A run that has nothing left to tell, and has not failed, is done. -/
theorem Run.Orderly.of_told {r : Run σ α κ β} (h : r.Orderly) (hopen : r.state ≠ .aborted)
    (hphase : r.phase = .replied (.ok none)) : r.state = .done ∧ r.isFinished = true := by
  cases h with
  | failed _ haborted => exact absurd haborted hopen
  | crashed _ hcrashed => rw [hphase] at hcrashed; cases hcrashed
  | staged hstaged =>
    rw [Staged, hphase] at hstaged
    exact ⟨hstaged.1, hstaged.2.2⟩

namespace Inquiry

/-- What a stream has yielded. -/
def items (q : Inquiry σ α κ β) : List (Except RunError (Completion κ β)) :=
  q.replies.filterMap Reply.item?

/-- A stream has ended once its caller has got the last reply. -/
def hasEnded (q : Inquiry σ α κ β) : Bool := q.run.saysNoMore

/-- The stream, if it has ended. -/
def streamed? (q : Inquiry σ α κ β) : Option (Inquiry σ α κ β) :=
  if q.hasEnded then some q else none

theorem streamed?_eq_some_iff {q q' : Inquiry σ α κ β} :
    q.streamed? = some q' ↔ q.hasEnded = true ∧ q' = q := by
  rw [streamed?]
  split
  · next hended => simp [hended, eq_comm]
  · next hended => simp [hended]

variable {q : Inquiry σ α κ β}

/-- The caller has got one completion after the other, has asked for more each time, and may have
got another reply since. -/
def IsFollowed (q : Inquiry σ α κ β) (done : List (Completion κ β)) : Prop :=
  q.replies = done.map (fun completion => .ok (some completion)) ++ q.run.reply?.toList

theorem isFollowed_start (r : Run σ α κ β) : (start r).ask.IsFollowed [] := rfl

/-- How a stream stands: it waits for a reply, or it was told something. -/
inductive Standing (q : Inquiry σ α κ β) (done : List (Completion κ β)) : Prop
  | waiting (hreply : q.run.reply? = none) (htold : q.told = done) (herrors : q.errors = [])
  | told (completion : Completion κ β) (hphase : q.run.phase = .replied (.ok (some completion)))
      (htold : q.told = done ++ [completion]) (herrors : q.errors = [])
  | spent (hphase : q.run.phase = .replied (.ok none)) (htold : q.told = done)
      (herrors : q.errors = [])
  | failed (error : RunError) (hphase : q.run.phase = .replied (.error error))
      (htold : q.told = done) (herrors : q.errors = [error])

namespace IsFollowed

variable {done : List (Completion κ β)}

theorem told_eq (h : q.IsFollowed done) :
    q.told = done ++ q.run.reply?.toList.filterMap Reply.completion? := by
  have hdone : (done.map fun completion => (.ok (some completion) : Reply κ β)).filterMap
      Reply.completion? = done := by
    rw [List.filterMap_map]
    exact List.filterMap_some
  rw [told, h, List.filterMap_append, hdone]

theorem errors_eq (h : q.IsFollowed done) :
    q.errors = q.run.reply?.toList.filterMap Reply.error? := by
  have hdone : (done.map fun completion => (.ok (some completion) : Reply κ β)).filterMap
      Reply.error? = [] := by
    rw [List.filterMap_map, List.filterMap_eq_nil_iff]
    exact fun _ _ => rfl
  rw [errors, h, List.filterMap_append, hdone, List.nil_append]

theorem items_eq (h : q.IsFollowed done) :
    q.items = done.map .ok ++ q.run.reply?.toList.filterMap Reply.item? := by
  have hdone : (done.map fun completion => (.ok (some completion) : Reply κ β)).filterMap
      Reply.item? = done.map .ok := by
    rw [List.filterMap_map]
    exact congrFun List.filterMap_eq_map' done
  rw [items, h, List.filterMap_append, hdone]

/-- A stream that is followed stands in one of these ways. -/
theorem standing (h : q.IsFollowed done) : q.Standing done := by
  have htold := h.told_eq
  have herrors := h.errors_eq
  cases hreply : q.run.reply? with
  | none =>
    rw [hreply] at htold herrors
    exact .waiting hreply (htold.trans (List.append_nil _)) herrors
  | some reply =>
    have hphase := Run.phase_of_reply? hreply
    rw [hreply] at htold herrors
    cases reply with
    | error error => exact .failed error hphase (htold.trans (List.append_nil _)) herrors
    | ok last =>
      cases last with
      | none => exact .spent hphase (htold.trans (List.append_nil _)) herrors
      | some completion => exact .told completion hphase htold herrors

/-- The items are the completions, and then the errors. -/
theorem items_eq_append (h : q.IsFollowed done) :
    q.items = q.told.map .ok ++ q.errors.map .error := by
  rw [h.items_eq, h.told_eq, h.errors_eq, List.map_append, List.append_assoc]
  congr 1
  cases q.run.reply? with
  | none => rfl
  | some reply =>
    cases reply with
    | error error => rfl
    | ok last => cases last <;> rfl

end IsFollowed

/-- Without a reply a stream goes on. -/
theorem hasEnded_of_waiting (h : q.run.reply? = none) : q.hasEnded = false := by
  rw [hasEnded, Run.saysNoMore]
  split
  · next hphase => simp [Run.reply?, hphase] at h
  · next hphase => simp [Run.reply?, hphase] at h
  · rfl

namespace Standing

variable {done : List (Completion κ β)}

theorem errors_length_le (h : q.Standing done) : q.errors.length ≤ 1 := by
  cases h with
  | failed error _ _ herrors => rw [herrors, List.length_singleton]
  | _ => simp [*]

/-- A stream that ends without an error was told that there is nothing more. -/
theorem phase_of_hasEnded (h : q.Standing done) (hended : q.hasEnded = true)
    (hnone : q.errors = []) : q.run.phase = .replied (.ok none) := by
  cases h with
  | spent hphase => exact hphase
  | waiting hreply => simp [hasEnded_of_waiting hreply] at hended
  | told completion hphase => simp [hasEnded, Run.saysNoMore, hphase] at hended
  | failed error _ _ herrors => simp [herrors] at hnone

theorem hasEnded_of_errors (h : q.Standing done) (hne : q.errors ≠ []) : q.hasEnded = true := by
  cases h with
  | failed error hphase => rw [hasEnded, Run.saysNoMore, hphase]
  | waiting _ _ herrors => exact absurd herrors hne
  | told _ _ _ herrors => exact absurd herrors hne
  | spent _ _ herrors => exact absurd herrors hne

end Standing

end Inquiry

variable [TransOrd κ] [Mergeable β]

variable [Transport σ] [Workload α]

/-- A stream after an occasion: it asks for the next completion only when it was told one. -/
def Inquiry.follow? (q : Inquiry σ α κ β) : Occasion σ → Option (Inquiry σ α κ β)
  | .move m => (q.run.move? m).map (q.move m)
  | .arrive transport => some { q with run := q.run.arrive transport }
  | .goOn =>
    match q.run.phase with
    | .replied (.ok (some _)) => some q.ask
    | _ => none

/-- The stream of a run, once it has ended on one of these occasions. -/
def Run.streams? (r : Run σ α κ β) (occasions : List (Occasion σ)) : Option (Inquiry σ α κ β) :=
  upshot? Inquiry.streamed? Inquiry.follow? (Inquiry.start r).ask occasions

namespace Inquiry

variable {d : Dispatcher α κ β} {transport : σ} {pending : Pending α} {total : Nat}
  {run : Run σ α κ β} {t : Traffic α κ β} {q q' : Inquiry σ α κ β}

/-- The tasks that were acknowledged count up to what is computed, until the run is aborted. -/
theorem Carries.countsUp (hstart : d.start transport pending total = .ok run)
    (h : Carries run t q) :
    CountsUp total t.acknowledged ∧ (q.run.state ≠ .aborted →
      q.run.progress.computed = (t.acknowledged.map (·.amount)).sum) := by
  induction h with
  | start =>
    obtain ⟨mode, executor, opened, -, -, rfl⟩ := Dispatcher.exists_of_start hstart
    exact ⟨fun i c hc => by simp [Traffic.empty] at hc, fun _ => rfl⟩
  | ask h hask ih =>
    obtain ⟨hstate, hprogress, -⟩ := Run.ask_keeps hask
    rw [run_ask, hstate, hprogress]
    exact ih
  | elsewhere h executor commons ih => exact ih
  | @move t q m run' tasks h hmove htasks ih =>
    have horderly := h.anyReaches.orderly hstart
    rcases Run.did_or_step_of_move? hmove with ⟨hdid, -⟩ | ⟨_, executor, commons, -, -, rfl⟩
    · have hcomputed := ih.2 (hdid.staged horderly.run).ne_aborted
      rcases hdid.acknowledges_cases with
        ⟨hnone, hsame⟩ | ⟨completion, hnew, -, hadvance, hprogress⟩
      · rw [Traffic.acknowledged_add, hnone, List.append_nil]
        exact ⟨ih.1, fun hopen => (congrArg Progress.computed (hsame hopen)).trans hcomputed⟩
      · obtain ⟨hsum, htotal⟩ := Progress.eq_of_advance hadvance
        rw [hcomputed] at hsum
        rw [Traffic.acknowledged_add, hnew, run_move, hprogress]
        exact ⟨ih.1.concat hsum (htotal.trans horderly.total), fun _ => by simpa using hsum⟩
    · rw [Traffic.acknowledged_add, Run.acknowledges_of_phase_eq (by rfl), List.append_nil]
      exact ih

/-- What was replied before and what a move tells is what was replied after it. -/
theorem reply_append_tells {r r' : Run σ α κ β} {m : Move} (h : r.move? m = some r') :
    r.reply?.toList ++ r.tells r' = r'.reply?.toList := by
  cases hreply : r.reply? with
  | none => simp only [Run.tells, hreply, Option.toList_none, List.nil_append]
  | some reply =>
    rcases Run.did_or_step_of_move? h with ⟨hdid, -⟩ | ⟨_, executor, commons, -, -, rfl⟩
    · rw [hdid.reply?_eq_none] at hreply
      cases hreply
    · have hsame : ({ r with executor, commons } : Run σ α κ β).reply? = some reply := hreply
      rw [Run.tells_of_phase_eq (by rfl), hsame, List.append_nil]

/-- A stream is followed from one occasion to the next. -/
theorem IsFollowed.follow? {done : List (Completion κ β)} {o : Occasion σ}
    (h : q.IsFollowed done) (hstep : q.follow? o = some q') :
    (q'.IsFollowed done ∧ o ≠ .goOn) ∨ ∃ completion, o = .goOn ∧
      q.run.phase = .replied (.ok (some completion)) ∧ q' = q.ask ∧
        q'.IsFollowed (done ++ [completion]) := by
  cases o with
  | move m =>
    obtain ⟨r', hmove, rfl⟩ := Option.map_eq_some_iff.1 hstep
    refine .inl ⟨?_, by simp⟩
    have hreplies : (q.move m r').replies = q.replies ++ q.run.tells r' := rfl
    rw [IsFollowed] at h
    rw [IsFollowed, hreplies, h, List.append_assoc, reply_append_tells hmove, run_move]
  | arrive transport =>
    obtain rfl := Option.some.inj hstep
    exact .inl ⟨h, by simp⟩
  | goOn =>
    rw [Inquiry.follow?] at hstep
    split at hstep
    · next completion hphase =>
      obtain rfl := Option.some.inj hstep
      refine .inr ⟨completion, rfl, hphase, rfl, ?_⟩
      have hreply : q.run.reply? = some (.ok (some completion)) := by rw [Run.reply?, hphase]
      rw [IsFollowed, hreply] at h
      rw [IsFollowed, ask, h]
      simp
    · cases hstep

/-- What is true of a stream of a run over the given arguments at any time. -/
structure IsStream (args : List α) (total : Nat) (q : Inquiry σ α κ β) : Prop where
  /-- It yields completions, and behind them at most one error, with which it ends. -/
  items : q.items = q.told.map .ok ++ q.errors.map .error
  errors : q.errors.length ≤ 1
  ended : q.errors ≠ [] → q.hasEnded = true
  /-- No task is told of twice, so that it yields no more completions than there are tasks. -/
  distinct : (q.told.map (·.taskNo)).Nodup
  length_le : q.told.length ≤ args.length
  counts : CountsUp total q.told
  /-- Without an error it ends only when all units are computed. -/
  complete : q.hasEnded = true → q.errors = [] →
    (lastProgress total q.told).isComplete = true ∧ q.run.state = .done
  /-- After an error nothing is left to be looked at. -/
  hidden : q.errors ≠ [] → q.run.accumulator = none
  /-- Once it has ended it yields nothing more. -/
  silent : q.hasEnded = true → ∀ o q', q.follow? o = some q' →
    q'.hasEnded = true ∧ q'.items = q.items

/-- A stream that yields nothing but completions tells of no error. -/
theorem IsStream.errors_eq_nil {args : List α} (h : q.IsStream args total)
    (hall : ∀ item ∈ q.items, item.isOk = true) : q.errors = [] := by
  cases herrors : q.errors with
  | nil => rfl
  | cons error rest => cases hall (.error error) (by rw [h.items, herrors]; simp)

/-- A stream that has ended has nothing in front of it but steps of workers. -/
theorem silent_of_hasEnded (hended : q.hasEnded = true) {o : Occasion σ}
    (hstep : q.follow? o = some q') :
    q'.run.phase = q.run.phase ∧ q'.replies = q.replies := by
  obtain ⟨reply, hphase, hlast⟩ : ∃ reply, q.run.phase = .replied reply ∧
      ∀ completion, reply ≠ .ok (some completion) := by
    rw [hasEnded, Run.saysNoMore] at hended
    split at hended
    · next hphase => exact ⟨_, hphase, by simp⟩
    · next hphase => exact ⟨_, hphase, by simp⟩
    · cases hended
  cases o with
  | move m =>
    obtain ⟨r', hmove, rfl⟩ := Option.map_eq_some_iff.1 hstep
    rcases Run.did_or_step_of_move? hmove with ⟨hdid, -⟩ | ⟨_, executor, commons, -, -, rfl⟩
    · have hnone := hdid.reply?_eq_none
      rw [Run.reply?, hphase] at hnone
      cases hnone
    · refine ⟨rfl, ?_⟩
      rw [move, Run.tells_of_phase_eq (by rfl)]
      exact List.append_nil _
  | arrive transport =>
    obtain rfl := Option.some.inj hstep
    exact ⟨rfl, rfl⟩
  | goOn =>
    rw [follow?] at hstep
    split at hstep
    · next completion htold => exact absurd (Phase.replied.inj (hphase.symm.trans htold)) (hlast _)
    · cases hstep

/-- An occasion of a stream is a step of an inquiry. -/
theorem anyStep_of_follow? {o : Occasion σ} (h : q.follow? o = some q') : q.AnyStep q' := by
  cases o with
  | move m =>
    obtain ⟨r', hmove, rfl⟩ := Option.map_eq_some_iff.1 h
    exact .step (.move hmove)
  | arrive transport =>
    obtain rfl := Option.some.inj h
    exact .step (.arrive transport)
  | goOn =>
    rw [follow?] at h
    split at h
    · next completion hphase =>
      obtain rfl := Option.some.inj h
      exact .step (.ask (by rw [Run.mayAsk, hphase]))
    · cases h

/-- What a stream has yielded it does not take back. -/
theorem told_isPrefix {occasions : List (Occasion σ)}
    (h : occasions.foldlM Inquiry.follow? q = some q') : q.told <+: q'.told := by
  refine foldlM_invariant (motive := fun p => q.told <+: p.told) List.prefix_rfl ?_ h
  intro p o p' hp hstep
  refine hp.trans (List.IsPrefix.filterMap _ ?_)
  cases o with
  | move m =>
    obtain ⟨r', hmove, rfl⟩ := Option.map_eq_some_iff.1 hstep
    exact List.prefix_append _ _
  | arrive transport =>
    obtain rfl := Option.some.inj hstep
    exact List.prefix_rfl
  | goOn =>
    rw [follow?] at hstep
    split at hstep
    · obtain rfl := Option.some.inj hstep
      exact List.prefix_append _ _
    · cases hstep

/-- A run that has crashed never replies. -/
theorem phase_of_crashed {occasions : List (Occasion σ)} {fault : Fault}
    (hcrashed : q.run.phase = .crashed fault)
    (h : occasions.foldlM Inquiry.follow? q = some q') : q'.run.phase = .crashed fault := by
  refine foldlM_invariant (motive := fun p => p.run.phase = .crashed fault) hcrashed ?_ h
  intro p o p' hp hstep
  cases o with
  | move m =>
    obtain ⟨r', hmove, rfl⟩ := Option.map_eq_some_iff.1 hstep
    rcases Run.did_or_step_of_move? hmove with ⟨hdid, -⟩ | ⟨_, executor, commons, -, -, rfl⟩
    · rcases hdid.phase_cases with ⟨_, h⟩ | h | ⟨_, h⟩ | ⟨_, h⟩ <;> simp [hp] at h
    · exact hp
  | arrive transport =>
    obtain rfl := Option.some.inj hstep
    exact hp
  | goOn => simp [follow?, hp] at hstep

/-- The first question can be asked, or does nothing as the run has crashed at its start. -/
theorem anyReaches_start (hstart : d.start transport pending total = .ok run) :
    AnyReaches run (start run).ask := by
  obtain ⟨mode, executor, opened, -, -, rfl⟩ := Dispatcher.exists_of_start hstart
  by_cases hlimit : mostPermits < d.settings.limit
  · have hphase : (d.fresh pending total mode executor opened).phase =
        .crashed (.permits mostPermits) := if_pos hlimit
    have hsame : (start (d.fresh pending total mode executor opened)).ask =
        start (d.fresh pending total mode executor opened) := by
      simp [ask, start, Run.ask, hphase, Run.reply?]
    rw [hsame]
    exact .refl
  · exact .single (.step (.ask (by simp [Run.mayAsk, Dispatcher.fresh, hlimit])))

/-- Whatever happens, a stream is as it should be. -/
theorem IsFollowed.isStream (hstart : d.start transport pending total = .ok run)
    (hreaches : AnyReaches run q) {done : List (Completion κ β)} (h : q.IsFollowed done) :
    q.IsStream (d.queued ++ pending.args) total := by
  have horderly := hreaches.orderly hstart
  have hstanding := h.standing
  obtain ⟨t, hcarries⟩ := hreaches.exists_carries
  have hwindow := (hreaches.window hstart).2 t hcarries
  obtain ⟨hcounts, hcomputed⟩ := hcarries.countsUp hstart
  have hopen : q.errors = [] → q.run.state ≠ .aborted := fun hnone haborted => by
    have hone := horderly.errors
    rw [hnone, if_pos haborted] at hone
    cases hone
  refine ⟨h.items_eq_append, hstanding.errors_length_le, hstanding.hasEnded_of_errors, ?_, ?_,
    hcounts.of_prefix hwindow.told, ?_, ?_, ?_⟩
  · exact hwindow.ordered.nodup.sublist (hwindow.told.map _).sublist
  · obtain ⟨hsubmitted, hall⟩ := hwindow.ordered.length_acknowledged_le
    exact hwindow.told.length_le.trans (hsubmitted.trans hall)
  · intro hended hnone
    have hphase := hstanding.phase_of_hasEnded hended hnone
    obtain ⟨hstate, hfinished⟩ := horderly.run.of_told (hopen hnone) hphase
    -- all that was acknowledged was told, so that the last one told of has the final counters
    have hacknowledged := hwindow.inHand (hopen hnone) (by simp [hphase])
    rw [Run.inHand, hphase, List.append_nil] at hacknowledged
    have hsum := hcomputed (hopen hnone)
    rw [hacknowledged] at hcounts hsum
    obtain ⟨hlast, htotal⟩ := hcounts.lastProgress_eq
    refine ⟨?_, hstate⟩
    rw [Progress.isComplete, beq_iff_eq, hlast, htotal, ← hsum, ← horderly.total]
    exact (Run.isFinished_iff.1 hfinished).1
  · intro hne
    refine (horderly.stands.aborted ?_).2.2
    by_contra hopen
    have hnone := horderly.errors
    rw [if_neg hopen, List.length_eq_zero_iff] at hnone
    exact hne hnone
  · intro hended o q' hstep
    obtain ⟨hphase, hreplies⟩ := silent_of_hasEnded hended hstep
    refine ⟨?_, by rw [items, hreplies, items]⟩
    rw [hasEnded, Run.saysNoMore, hphase]
    exact hended

/-- Through whatever occasions a stream is followed, it is as it should be. -/
theorem isStream_of_follow (hstart : d.start transport pending total = .ok run)
    {occasions : List (Occasion σ)}
    (h : occasions.foldlM Inquiry.follow? (start run).ask = some q) :
    q.IsStream (d.queued ++ pending.args) total := by
  obtain ⟨hreaches, done, hfollowed⟩ : AnyReaches run q ∧ ∃ done, q.IsFollowed done := by
    refine foldlM_invariant (motive := fun p => AnyReaches run p ∧ ∃ done, p.IsFollowed done)
      ⟨anyReaches_start hstart, [], isFollowed_start run⟩ ?_ h
    rintro p o p' ⟨hreaches, done, hfollowed⟩ hstep
    refine ⟨hreaches.tail (anyStep_of_follow? hstep), ?_⟩
    rcases hfollowed.follow? hstep with ⟨hfollowed', -⟩ | ⟨completion, -, -, -, hfollowed'⟩
    · exact ⟨done, hfollowed'⟩
    · exact ⟨_, hfollowed'⟩
  exact hfollowed.isStream hstart hreaches

end Inquiry

section Shared

variable {shop : Workshop α κ β}

/-- Workers neither bring a shared tally nor take it away. -/
theorem Floor.Steps.isSome_shared {f g : Floor σ α κ β} {begun : List (Task α)}
    (h : Steps shop f begun g) : g.commons.shared.isSome = f.commons.shared.isSome := by
  induction h with
  | refl => rfl
  | tail _ hlast ih =>
    rw [← ih]
    cases hlast with
    | work w queue before after commons => exact (Worker.step_keeps shop w commons).2
    | _ => rfl

theorem Executor.isSome_shared_step {index : Nat} {e e' : Executor α κ β}
    {commons commons' : Commons σ κ β} (h : e.step shop index commons = some (e', commons')) :
    commons'.shared.isSome = commons.shared.isSome := by
  obtain ⟨p, p', rfl, rfl, hdid⟩ := did_of_step h
  cases hdid with
  | work w => exact (Worker.step_keeps shop w commons).2
  | lose w => exact (Worker.step_keeps shop w commons).2
  | _ => rfl

theorem Executor.isSome_shared_drive {fault : Option Fault} {e e' : Executor α κ β}
    {commons commons' : Commons σ κ β} (h : e.drive shop commons = (fault, e', commons')) :
    commons'.shared.isSome = commons.shared.isSome := by
  cases e with
  | pool p =>
    obtain ⟨-, -, rfl⟩ := h
    rfl
  | sequential queue closed =>
    cases queue with
    | nil =>
      obtain ⟨-, -, rfl⟩ := h
      rfl
    | cons task rest =>
      obtain ⟨w, hrow, -⟩ := Worker.steps_runTask shop task rest commons
      have hcommons : (Worker.runTask shop task commons).2 = commons' :=
        congrArg (fun result => result.2.2) h
      rw [← hcommons]
      exact hrow.isSome_shared

/-- A run that shows no shared tally never will. -/
theorem Run.accumulator_of_move {r r' : Run σ α κ β} {m : Move} (h : r.accumulator = none)
    (hmove : r.move? m = some r') : r'.accumulator = none := by
  -- what is shown may be hidden, and what is shared stays what it is
  suffices hkeeps : (r'.showsShared = true → r.showsShared = true) ∧
      (r'.showsShared = true → r'.commons.shared.isSome = r.commons.shared.isSome) by
    rw [accumulator]
    split
    · next hshows =>
      rw [accumulator, if_pos (hkeeps.1 hshows)] at h
      have hnone := hkeeps.2 hshows
      rw [h] at hnone
      exact Option.not_isSome_iff_eq_none.1 (by simp [hnone])
    · rfl
  rcases did_or_step_of_move? hmove with ⟨hdid, -⟩ | ⟨_, executor, commons, -, hstep, rfl⟩
  · cases hdid with
    | drive _ _ _ _ hdrive => exact ⟨id, fun _ => Executor.isSome_shared_drive hdrive⟩
    | crash _ _ _ _ hdrive => exact ⟨id, fun _ => Executor.isSome_shared_drive hdrive⟩
    | fail _ _ _ hfailed => simp [hfailed.shows]
    | _ => exact ⟨id, fun _ => rfl⟩
  · exact ⟨id, fun _ => Executor.isSome_shared_step hstep⟩

end Shared

/-- Where the control node merges, there is never a shared tally. -/
theorem Inquiry.accumulator_of_follow {d : Dispatcher α κ β} {transport : σ}
    {pending : Pending α} {total : Nat} {run : Run σ α κ β} {q : Inquiry σ α κ β}
    (hstart : d.start transport pending total = .ok run)
    (hmerges : d.settings.accumulation = .controlNode) {occasions : List (Occasion σ)}
    (h : occasions.foldlM Inquiry.follow? (start run).ask = some q) :
    q.run.accumulator = none := by
  have hask : run.ask.accumulator = none := by
    obtain ⟨mode, executor, opened, -, -, rfl⟩ := Dispatcher.exists_of_start hstart
    obtain ⟨phase, heq⟩ := Run.ask_eq (d.fresh pending total mode executor opened)
    rw [heq]
    simp [Run.accumulator, Dispatcher.fresh, Commons.start, hmerges]
  refine foldlM_invariant (motive := fun p => p.run.accumulator = none) hask ?_ h
  intro p o p' hp hstep
  cases o with
  | move m =>
    obtain ⟨r', hmove, rfl⟩ := Option.map_eq_some_iff.1 hstep
    exact Run.accumulator_of_move hp hmove
  | arrive transport =>
    obtain rfl := Option.some.inj hstep
    exact hp
  | goOn =>
    rw [follow?] at hstep
    split at hstep
    · obtain rfl := Option.some.inj hstep
      obtain ⟨phase, heq⟩ := p.run.ask_eq
      rw [run_ask, heq]
      exact hp
    · cases hstep

end BatchRun
