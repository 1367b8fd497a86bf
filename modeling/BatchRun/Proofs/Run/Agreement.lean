import BatchRun.Proofs.Run.Streaming

/-!
# Streams agree with what is merged

A session merges each partial result before it asks for the next completion; a stream hands the
completion out. Both follow the same run, but each has its own way to go on and to stop. On the
same occasions in the same order they agree: how the session ends can be told from the items that
the stream has yielded by its end.

They differ in one respect. Merging may overflow; then the session ends suddenly where the stream
goes on, which may well end without an error.

## Main definitions

* `Session.follow?`, `Run.merges?`: a session from one occasion to the next, and up to its end
* `Inquiry.ending`: the end of a stream with all its items merged
* `Mirrors`: a stream and a session that stand alike
* `Run.StreamsOn`, `Run.MergesOn`: occasions on which a run goes as it is played

## Main results

* `Mirrors.follow?`: on every occasion both go on alike
* `Run.exists_occasions`: what is played is what happens on some occasions, in both ways
* `Run.followed_alike`: a stream is as it should be, and its items tell how the session ends
-/

namespace BatchRun

open Std Relation

variable {σ α κ β : Type} [Ord κ] [TransOrd κ] [Mergeable β]

/-- What merging the partial results of completions gives, one after the other. -/
def mergedOf (completions : List (Completion κ β)) : Except Fault (Tally κ β) :=
  completions.foldlM (fun t completion => t.absorb completion.part) .empty

theorem mergedOf_concat (completions : List (Completion κ β)) (completion : Completion κ β) :
    mergedOf (completions ++ [completion]) =
      (mergedOf completions).bind fun result => result.absorb completion.part := by
  simp only [mergedOf, List.foldlM_append, List.foldlM_cons, List.foldlM_nil, bind_pure]
  rfl

/-- A merge that faults is not made up for by what comes later. -/
theorem mergedOf_of_isPrefix {completions told : List (Completion κ β)} {fault : Fault}
    (htold : completions <+: told) (h : mergedOf completions = .error fault) :
    mergedOf told = .error fault := by
  obtain ⟨rest, rfl⟩ := htold
  rw [mergedOf] at h
  rw [mergedOf, List.foldlM_append, h]
  rfl

/-- How a stream that has ended turns out for whoever merges its items. -/
def Inquiry.ending (q : Inquiry σ α κ β) : Ending κ β :=
  match mergedOf q.told with
  | .error fault => .crashed fault
  | .ok result =>
    match q.errors with
    | [] => q.run.conclude result
    | error :: _ => .failed error

variable [Transport σ] [Workload α]

/-- A session after an occasion: the caller merges a completion before it asks for the next. -/
def Session.follow? (s : Session σ α κ β) : Occasion σ → Option (Session σ α κ β)
  | .move m => (s.run.move? m).map fun run => { s with run, begun := s.begun ++ s.run.begins m }
  | .arrive transport => some { s with run := s.run.arrive transport }
  | .goOn =>
    match s.run.phase with
    | .replied (.ok (some completion)) =>
      match s.result.absorb completion.part with
      | .ok result => some { s with
          run := s.run.ask, result, acknowledged := s.acknowledged ++ [completion] }
      | .error _ => none
    | _ => none

/-- How a run turns out whose partial results are merged, once it is over on one of these
occasions. -/
def Run.merges? (r : Run σ α κ β) (occasions : List (Occasion σ)) : Option (Ending κ β) :=
  upshot? Session.ending? Session.follow? (Session.start r) occasions

/-- A stream and a session that stand alike: the session has merged what the stream has gone on
from. -/
structure Mirrors (q : Inquiry σ α κ β) (s : Session σ α κ β) : Prop where
  run : q.run = s.run
  followed : q.IsFollowed s.acknowledged
  merged : mergedOf s.acknowledged = .ok s.result

namespace Mirrors

variable {q : Inquiry σ α κ β} {s : Session σ α κ β}

omit [Transport σ] [Workload α] in
theorem start (r : Run σ α κ β) : Mirrors (Inquiry.start r).ask (Session.start r) :=
  ⟨rfl, Inquiry.isFollowed_start r, rfl⟩

/-- On every occasion both go on alike, as long as the session is not over. -/
theorem follow? (h : Mirrors q s) (hopen : s.ending? = none) (o : Occasion σ) :
    (q.follow? o = none ∧ s.follow? o = none) ∨
      ∃ q' s', q.follow? o = some q' ∧ s.follow? o = some s' ∧ Mirrors q' s' := by
  obtain ⟨hrun, hfollowed, hmerged⟩ := h
  cases o with
  | move m =>
    cases hmove : s.run.move? m with
    | none => exact .inl ⟨by simp [Inquiry.follow?, hrun, hmove], by simp [Session.follow?, hmove]⟩
    | some r' =>
      have hq : q.follow? (.move m) = some (q.move m r') := by
        simp [Inquiry.follow?, hrun, hmove]
      have hs : s.follow? (.move m) =
          some { s with run := r', begun := s.begun ++ s.run.begins m } := by
        simp [Session.follow?, hmove]
      refine .inr ⟨_, _, hq, hs, rfl, ?_, hmerged⟩
      rcases hfollowed.follow? hq with ⟨hfollowed', -⟩ | ⟨_, hgoOn, -⟩
      · exact hfollowed'
      · cases hgoOn
  | arrive transport =>
    exact .inr ⟨_, _, rfl, rfl, congrArg (·.arrive transport) hrun, hfollowed, hmerged⟩
  | goOn =>
    cases hq : q.follow? .goOn with
    | none =>
      refine .inl ⟨rfl, ?_⟩
      rw [Session.follow?]
      split
      · next completion hphase => simp [Inquiry.follow?, hrun, hphase] at hq
      · rfl
    | some q' =>
      rcases hfollowed.follow? hq with ⟨-, hnot⟩ | ⟨completion, -, hphase, rfl, hfollowed'⟩
      · exact absurd rfl hnot
      · -- the session is not over, so that the completion is merged without a fault
        rw [hrun] at hphase
        simp only [Session.ending?, hphase] at hopen
        cases habsorb : s.result.absorb completion.part with
        | error fault => simp [habsorb] at hopen
        | ok result =>
          have hs : s.follow? .goOn = some { s with
              run := s.run.ask, result, acknowledged := s.acknowledged ++ [completion] } := by
            simp only [Session.follow?, hphase, habsorb]
          refine .inr ⟨_, _, rfl, hs, congrArg Run.ask hrun, hfollowed', ?_⟩
          rw [mergedOf_concat, hmerged]
          exact habsorb

omit [Transport σ] [Workload α] in
/-- A stream that has ended turns out as the session does. -/
theorem ending?_eq (h : Mirrors q s) (hended : q.hasEnded = true) :
    s.ending? = some q.ending := by
  have hmerged := h.merged
  cases h.followed.standing with
  | waiting hreply => simp [Inquiry.hasEnded_of_waiting hreply] at hended
  | told completion hphase => simp [Inquiry.hasEnded, Run.saysNoMore, hphase] at hended
  | spent hphase htold herrors =>
    rw [h.run] at hphase
    simp only [Session.ending?, hphase, Inquiry.ending, htold, herrors, hmerged, h.run]
  | failed error hphase htold herrors =>
    rw [h.run] at hphase
    simp only [Session.ending?, hphase, Inquiry.ending, htold, herrors, hmerged]

omit [Transport σ] [Workload α] in
/-- A session that is over before the stream has ended is one with a fault: in a merge, or of the
run. -/
theorem fault_of_ending? (h : Mirrors q s) (hended : q.hasEnded = false) {ending : Ending κ β}
    (hending : s.ending? = some ending) :
    ∃ fault, ending = .crashed fault ∧
      (mergedOf q.told = .error fault ∨ q.run.phase = .crashed fault) := by
  rw [Session.ending?] at hending
  split at hending
  · next completion hphase =>
    cases habsorb : s.result.absorb completion.part with
    | ok result => simp [habsorb] at hending
    | error fault =>
      have htold : q.told = s.acknowledged ++ [completion] := by
        rw [h.followed.told_eq, h.run, Run.reply?, hphase]
        rfl
      refine ⟨fault, by simpa [habsorb] using hending.symm, .inl ?_⟩
      rw [htold, mergedOf_concat, h.merged]
      exact habsorb
  · next hphase => simp [Inquiry.hasEnded, Run.saysNoMore, h.run, hphase] at hended
  · next hphase => simp [Inquiry.hasEnded, Run.saysNoMore, h.run, hphase] at hended
  · next fault hphase => exact ⟨fault, (Option.some.inj hending).symm, .inr (h.run ▸ hphase)⟩
  · cases hending

/-- Once its stream has ended, a session is over, and has turned out as the items say. -/
theorem upshot_of_streamed (h : Mirrors q s) {occasions : List (Occasion σ)}
    {q' : Inquiry σ α κ β}
    (hstream : upshot? Inquiry.streamed? Inquiry.follow? q occasions = some q') :
    upshot? Session.ending? Session.follow? s occasions = some q'.ending := by
  induction occasions generalizing q s with
  | nil =>
    obtain ⟨hended, rfl⟩ := Inquiry.streamed?_eq_some_iff.1 hstream
    exact h.ending?_eq hended
  | cons o rest ih =>
    cases hended : q.hasEnded with
    | true =>
      rw [upshot?_of_verdict (Inquiry.streamed?_eq_some_iff.2 ⟨hended, rfl⟩)] at hstream
      obtain rfl := Option.some.inj hstream
      exact upshot?_of_verdict (h.ending?_eq hended) _
    | false =>
      have hwaits : q.streamed? = none := by simp [Inquiry.streamed?, hended]
      cases hending : s.ending? with
      | some ending =>
        obtain ⟨fault, rfl, hfault⟩ := h.fault_of_ending? hended hending
        rw [upshot?_of_verdict hending]
        obtain ⟨front, t, -, hrow, hlast⟩ := exists_of_upshot? hstream
        obtain ⟨hended', rfl⟩ := Inquiry.streamed?_eq_some_iff.1 hlast
        rcases hfault with hfault | hcrashed
        · have htold := mergedOf_of_isPrefix (Inquiry.told_isPrefix hrow) hfault
          rw [Inquiry.ending, htold]
        · have hphase := Inquiry.phase_of_crashed hcrashed hrow
          simp [Inquiry.hasEnded, Run.saysNoMore, hphase] at hended'
      | none =>
        rw [upshot?_cons hwaits] at hstream
        rw [upshot?_cons hending]
        rcases h.follow? hending o with ⟨hnone, -⟩ | ⟨q₁, s₁, hq, hs, hnext⟩
        · rw [hnone] at hstream
          cases hstream
        · rw [hq] at hstream
          rw [hs]
          exact ih hnext hstream

/-- A session that is over without a fault has a stream that has ended. -/
theorem exists_streamed_of_upshot (h : Mirrors q s) {occasions : List (Occasion σ)}
    {ending : Ending κ β}
    (hupshot : upshot? Session.ending? Session.follow? s occasions = some ending)
    (hreturns : ∀ fault, ending ≠ .crashed fault) :
    ∃ q', upshot? Inquiry.streamed? Inquiry.follow? q occasions = some q' := by
  induction occasions generalizing q s with
  | nil =>
    cases hended : q.hasEnded with
    | true => exact ⟨q, Inquiry.streamed?_eq_some_iff.2 ⟨hended, rfl⟩⟩
    | false =>
      obtain ⟨fault, hfault, -⟩ := h.fault_of_ending? hended hupshot
      exact absurd hfault (hreturns fault)
  | cons o rest ih =>
    cases hended : q.hasEnded with
    | true =>
      exact ⟨q, upshot?_of_verdict (Inquiry.streamed?_eq_some_iff.2 ⟨hended, rfl⟩) _⟩
    | false =>
      have hwaits : q.streamed? = none := by simp [Inquiry.streamed?, hended]
      cases hending : s.ending? with
      | some ending' =>
        rw [upshot?_of_verdict hending] at hupshot
        obtain rfl := Option.some.inj hupshot
        obtain ⟨fault, hfault, -⟩ := h.fault_of_ending? hended hending
        exact absurd hfault (hreturns fault)
      | none =>
        rw [upshot?_cons hending] at hupshot
        rw [upshot?_cons hwaits]
        rcases h.follow? hending o with ⟨-, hnone⟩ | ⟨q₁, s₁, hq, hs, hnext⟩
        · rw [hnone] at hupshot
          cases hupshot
        · rw [hs] at hupshot
          rw [hq]
          exact ih hnext hupshot

end Mirrors

section Play

/-- On these occasions a run goes from one point to another, whoever follows it, with nothing told
in between. -/
structure Run.Goes (r r' : Run σ α κ β) (occasions : List (Occasion σ)) : Prop where
  streams (q : Inquiry σ α κ β) (done : List (Completion κ β)) (h : q.IsFollowed done)
    (hrun : q.run = r) :
    ∃ q' : Inquiry σ α κ β, q'.IsFollowed done ∧ q'.run = r' ∧ ∀ later,
      upshot? Inquiry.streamed? Inquiry.follow? q (occasions ++ later) =
        upshot? Inquiry.streamed? Inquiry.follow? q' later
  sessions (s : Session σ α κ β) (hrun : s.run = r) :
    ∃ begun, ∀ later, upshot? Session.ending? Session.follow? s (occasions ++ later) =
      upshot? Session.ending? Session.follow? { s with run := r', begun } later

namespace Run.Goes

variable {r r' r'' : Run σ α κ β}

theorem refl (r : Run σ α κ β) : r.Goes r [] where
  streams q _ h hrun := ⟨q, h, hrun, fun _ => rfl⟩
  sessions s hrun := by
    subst hrun
    exact ⟨s.begun, fun _ => rfl⟩

theorem trans {occasions more : List (Occasion σ)} (h : r.Goes r' occasions)
    (h' : r'.Goes r'' more) : r.Goes r'' (occasions ++ more) where
  streams q done hq hrun := by
    obtain ⟨q', hq', hrun', heq⟩ := h.streams q done hq hrun
    obtain ⟨q'', hq'', hrun'', heq'⟩ := h'.streams q' done hq' hrun'
    exact ⟨q'', hq'', hrun'', fun later => by rw [List.append_assoc, heq, heq']⟩
  sessions s hrun := by
    obtain ⟨begun, heq⟩ := h.sessions s hrun
    obtain ⟨begun', heq'⟩ := h'.sessions { s with run := r', begun } rfl
    exact ⟨begun', fun later => by rw [List.append_assoc, heq, heq']⟩

/-- A move of a run that is not settled is an occasion of its own. -/
theorem move {m : Move} (hbusy : r.isSettled = false) (hmove : r.move? m = some r') :
    r.Goes r' [.move m] where
  streams q done h hrun := by
    have hwaits : q.streamed? = none := by
      rw [Inquiry.streamed?, Inquiry.hasEnded, hrun, saysNoMore]
      split <;> simp_all [isSettled]
    have hq : q.follow? (.move m) = some (q.move m r') := by simp [Inquiry.follow?, hrun, hmove]
    refine ⟨q.move m r', ?_, rfl, fun later => ?_⟩
    · rcases h.follow? hq with ⟨hfollowed, -⟩ | ⟨_, hgoOn, -⟩
      · exact hfollowed
      · cases hgoOn
    · rw [List.singleton_append, upshot?_cons hwaits, hq, Option.bind_some]
  sessions s hrun := by
    subst hrun
    have hopen : s.ending? = none := by
      rw [Session.ending?]
      split <;> simp_all [isSettled]
    refine ⟨s.begun ++ s.run.begins m, fun later => ?_⟩
    rw [List.singleton_append, upshot?_cons hopen, Session.follow?, hmove, Option.map_some,
      Option.bind_some]

/-- Playing a run is such a row of occasions. -/
theorem exists_of_play (held : α → Bool) (patience : Nat) (r : Run σ α κ β) :
    ∃ occasions, r.Goes (r.play held patience) occasions := by
  induction patience generalizing r with
  | zero => exact ⟨[], .refl r⟩
  | succ patience ih =>
    rw [play]
    split
    · exact ⟨[], .refl r⟩
    · next hbusy =>
      cases hnext : r.nextMove held with
      | none => exact ⟨[], .refl r⟩
      | some r' =>
        obtain ⟨m, hmove⟩ := exists_move_of_nextMove hnext
        obtain ⟨occasions, hrest⟩ := ih r'
        exact ⟨_, (move (eq_false_of_ne_true hbusy) hmove).trans hrest⟩

end Run.Goes

/-- A run that is played to its end goes on after a completion with what is merged. -/
theorem Run.toEnd_succ_of_told {patience questions : Nat} {r : Run σ α κ β}
    {result : Tally κ β} {completion : Completion κ β}
    (hphase : (r.next patience).phase = .replied (.ok (some completion))) :
    (r.toEnd patience (questions + 1) result).1 =
      match result.absorb completion.part with
      | .ok result => ((r.next patience).toEnd patience questions result).1
      | .error fault => .crashed fault := by
  simp only [toEnd, hphase]
  cases completion.part with
  | none => rfl
  | some part =>
    simp only [Tally.absorb]
    cases result.mergeTally part <;> rfl

/-- A session that has got its last reply, or has crashed, is over as its run is. -/
theorem Session.ending?_of_not_told {patience questions : Nat} {r : Run σ α κ β}
    {s : Session σ α κ β} (hrun : s.run = r.next patience)
    (htells : ∀ completion, (r.next patience).phase ≠ .replied (.ok (some completion)))
    (hends : (r.toEnd patience (questions + 1) s.result).1 ≠ .stalled) :
    s.ending? = some (r.toEnd patience (questions + 1) s.result).1 := by
  rw [Session.ending?, hrun]
  simp only [Run.toEnd] at hends ⊢
  cases hphase : (r.next patience).phase with
  | replied reply =>
    cases reply with
    | error error => rfl
    | ok last =>
      cases last with
      | none => rfl
      | some completion => exact absurd hphase (htells completion)
  | crashed fault => rfl
  | _ => simp [hphase] at hends

/-- A stream that has got its last reply yields it as its last item, if it is one. -/
theorem Inquiry.IsFollowed.streamed?_of_not_told {patience questions : Nat} {r : Run σ α κ β}
    {q : Inquiry σ α κ β} {done : List (Completion κ β)} (h : q.IsFollowed done)
    (hrun : q.run = r.next patience)
    (htells : ∀ completion, (r.next patience).phase ≠ .replied (.ok (some completion)))
    (hover : (r.completions patience (questions + 1)).2.saysNoMore = true) :
    q.streamed? = some q ∧ q.run = (r.completions patience (questions + 1)).2 ∧
      q.items = done.map .ok ++ (r.completions patience (questions + 1)).1 := by
  rw [h.items_eq, Inquiry.streamed?_eq_some_iff, Inquiry.hasEnded, hrun]
  cases hphase : (r.next patience).phase with
  | replied reply =>
    cases reply with
    | error error =>
      simp [Run.completions, Run.saysNoMore, Run.reply?, Reply.item?, hphase]
    | ok last =>
      cases last with
      | none => simp [Run.completions, Run.saysNoMore, Run.reply?, Reply.item?, hphase]
      | some completion => exact absurd hphase (htells completion)
  | _ => simp [Run.completions, Run.saysNoMore, hphase] at hover

/-- A stream of a run goes on these occasions as the run is played: after what it has yielded it
yields the completions that are listed. -/
def Run.StreamsOn (patience questions : Nat) (r : Run σ α κ β) (occasions : List (Occasion σ)) :
    Prop :=
  ∀ (q : Inquiry σ α κ β) (done : List (Completion κ β)), q.IsFollowed done → q.run = r.ask →
    (r.completions patience questions).2.saysNoMore = true →
    ∃ q', upshot? Inquiry.streamed? Inquiry.follow? q occasions = some q' ∧
      q'.run = (r.completions patience questions).2 ∧
      q'.items = done.map .ok ++ (r.completions patience questions).1

/-- A session that asked a run goes on these occasions as the run is played: it ends as the run
does that is played to its end. -/
def Run.MergesOn (patience questions : Nat) (r : Run σ α κ β) (occasions : List (Occasion σ)) :
    Prop :=
  ∀ s : Session σ α κ β, s.run = r.ask → (r.toEnd patience questions s.result).1 ≠ .stalled →
    upshot? Session.ending? Session.follow? s occasions =
      some (r.toEnd patience questions s.result).1

section Reply

variable {patience questions : Nat} {r : Run σ α κ β} {occasions moves : List (Occasion σ)}

theorem Run.StreamsOn.told {completion : Completion κ β}
    (h : (r.next patience).StreamsOn patience questions occasions)
    (hgoes : r.ask.Goes (r.next patience) moves)
    (hphase : (r.next patience).phase = .replied (.ok (some completion))) :
    r.StreamsOn patience (questions + 1) (moves ++ .goOn :: occasions) := by
  intro q done hq hrun hover
  obtain ⟨q₁, hfollowed, hplayed, heq⟩ := hgoes.streams q done hq hrun
  have hwaits : q₁.streamed? = none := by
    rw [Inquiry.streamed?, Inquiry.hasEnded, hplayed, saysNoMore, hphase]
    rfl
  have hgoOn : q₁.follow? .goOn = some q₁.ask := by
    rw [Inquiry.follow?, hplayed, hphase]
  rcases hfollowed.follow? hgoOn with ⟨-, hnot⟩ | ⟨completion', -, hphase', -, hfollowed'⟩
  · exact absurd rfl hnot
  · rw [hplayed, hphase] at hphase'
    obtain rfl : completion = completion' := by simpa using hphase'
    simp only [completions, hphase] at hover ⊢
    obtain ⟨q', hq', hrun', hitems⟩ := h q₁.ask _ hfollowed' (congrArg Run.ask hplayed) hover
    refine ⟨q', ?_, hrun', by simp [hitems]⟩
    rw [heq, upshot?_cons hwaits, hgoOn, Option.bind_some]
    exact hq'

theorem Run.StreamsOn.of_not_told (hgoes : r.ask.Goes (r.next patience) moves)
    (htells : ∀ completion, (r.next patience).phase ≠ .replied (.ok (some completion))) :
    r.StreamsOn patience (questions + 1) moves := by
  intro q done hq hrun hover
  obtain ⟨q₁, hfollowed, hplayed, heq⟩ := hgoes.streams q done hq hrun
  obtain ⟨hended, hrun', hitems⟩ := hfollowed.streamed?_of_not_told hplayed htells hover
  refine ⟨q₁, ?_, hrun', hitems⟩
  rw [← List.append_nil moves, heq]
  exact hended

theorem Run.MergesOn.told {completion : Completion κ β}
    (h : (r.next patience).MergesOn patience questions occasions)
    (hgoes : r.ask.Goes (r.next patience) moves)
    (hphase : (r.next patience).phase = .replied (.ok (some completion))) :
    r.MergesOn patience (questions + 1) (moves ++ .goOn :: occasions) := by
  intro s hrun hends
  obtain ⟨begun, heq⟩ := hgoes.sessions s hrun
  rw [heq]
  rw [toEnd_succ_of_told hphase] at hends ⊢
  cases habsorb : s.result.absorb completion.part with
  | error fault => exact upshot?_of_verdict (by simp [Session.ending?, hphase, habsorb]) _
  | ok result =>
    rw [habsorb] at hends
    rw [upshot?_cons (by simp [Session.ending?, hphase, habsorb])]
    simp only [Session.follow?, hphase, habsorb, Option.bind_some]
    exact h _ rfl hends

theorem Run.MergesOn.of_not_told (hgoes : r.ask.Goes (r.next patience) moves)
    (htells : ∀ completion, (r.next patience).phase ≠ .replied (.ok (some completion))) :
    r.MergesOn patience (questions + 1) moves := by
  intro s hrun hends
  obtain ⟨begun, heq⟩ := hgoes.sessions s hrun
  rw [← List.append_nil moves, heq]
  exact Session.ending?_of_not_told (s := { s with run := r.next patience, begun }) rfl htells
    hends

end Reply

/-- What is played is what happens on some occasions, in both ways. -/
theorem Run.exists_occasions_from (patience questions : Nat) (r : Run σ α κ β)
    (hopen : r.saysNoMore = false) :
    ∃ occasions : List (Occasion σ),
      r.StreamsOn patience questions occasions ∧ r.MergesOn patience questions occasions := by
  induction questions generalizing r with
  | zero =>
    refine ⟨[], fun q done _ _ hover => ?_, fun s _ hstalled => absurd rfl hstalled⟩
    rw [completions, hopen] at hover
    cases hover
  | succ questions ih =>
    obtain ⟨moves, hgoes⟩ : ∃ moves, r.ask.Goes (r.next patience) moves :=
      Run.Goes.exists_of_play (fun _ => false) patience r.ask
    by_cases htells : ∃ completion, (r.next patience).phase = .replied (.ok (some completion))
    · -- the caller goes on, and the induction hypothesis takes over
      obtain ⟨completion, hphase⟩ := htells
      obtain ⟨occasions, hstreams, hmerges⟩ := ih (r.next patience) (by rw [saysNoMore, hphase])
      exact ⟨_, hstreams.told hgoes hphase, hmerges.told hgoes hphase⟩
    · exact ⟨moves, .of_not_told hgoes (not_exists.1 htells),
        .of_not_told hgoes (not_exists.1 htells)⟩

end Play

/-- There are occasions on which a run that was started goes as it is played, in both ways. -/
theorem Run.exists_occasions {d : Dispatcher α κ β} {transport : σ} {pending : Pending α}
    {total : Nat} {run : Run σ α κ β} (hstart : d.start transport pending total = .ok run)
    (patience questions : Nat) :
    ∃ occasions : List (Occasion σ),
      ((run.completions patience questions).2.saysNoMore = true →
        ∃ q, run.streams? occasions = some q ∧ q.run = (run.completions patience questions).2 ∧
          q.items = (run.completions patience questions).1) ∧
      ((run.toEnd patience questions .empty).1 ≠ .stalled →
        run.merges? occasions = some (run.toEnd patience questions .empty).1) := by
  have hopen : run.saysNoMore = false := by
    obtain ⟨mode, executor, opened, -, -, rfl⟩ := Dispatcher.exists_of_start hstart
    by_cases hlimit : mostPermits < d.settings.limit <;>
      simp [saysNoMore, Dispatcher.fresh, hlimit]
  obtain ⟨occasions, hstreams, hsessions⟩ := run.exists_occasions_from patience questions hopen
  exact ⟨occasions, hstreams _ [] (Inquiry.isFollowed_start run) rfl, hsessions (.start run) rfl⟩

/-- How a run turns out that is followed in both ways on the same occasions. -/
structure Run.FollowedAlike (args : List α) (total : Nat) (accumulation : Accumulation)
    (occasions : List (Occasion σ)) (r : Run σ α κ β) : Prop where
  /-- What the stream has yielded by then is as it should be. -/
  stream : ∀ q, occasions.foldlM Inquiry.follow? (Inquiry.start r).ask = some q →
    q.IsStream args total
  /-- Once it has ended, its items tell how the run turns out that is merged. -/
  ended : ∀ q, r.streams? occasions = some q →
    q.hasEnded = true ∧ q.IsStream args total ∧ r.merges? occasions = some q.ending
  /-- There is a result if and only if the stream ends without an error and no merge faults. -/
  finished_iff : (∃ result summary, r.merges? occasions = some (.finished result summary)) ↔
    ∃ q, r.streams? occasions = some q ∧ q.errors = [] ∧ ∀ fault, q.ending ≠ .crashed fault
  /-- There is an error if and only if the stream ends with it, and no merge faults before. -/
  failed_iff : ∀ error, r.merges? occasions = some (.failed error) ↔
    ∃ q, r.streams? occasions = some q ∧ q.errors = [error] ∧
      ∃ result, mergedOf q.told = .ok result
  /-- Where the control node merges, the result is what merging the items gives. -/
  result_eq : accumulation = .controlNode → ∀ q, r.streams? occasions = some q → q.errors = [] →
    q.ending = match mergedOf q.told with
      | .ok result => .finished result q.run.summary
      | .error fault => .crashed fault

namespace Inquiry

variable {q : Inquiry σ α κ β}

omit [Transport σ] [Workload α]

theorem ending_of_errors_nil {result : Tally κ β} (hmerged : mergedOf q.told = .ok result)
    (herrors : q.errors = []) : q.ending = q.run.conclude result := by
  rw [ending, hmerged, herrors]

theorem ending_of_errors {result : Tally κ β} {error : RunError}
    (hmerged : mergedOf q.told = .ok result) (herrors : q.errors = [error]) :
    q.ending = .failed error := by
  rw [ending, hmerged, herrors]

/-- With an end without a fault no merge of the items faults. -/
theorem exists_merged_of_ending (hreturns : ∀ fault, q.ending ≠ .crashed fault) :
    ∃ result, mergedOf q.told = .ok result := by
  cases hmerged : mergedOf q.told with
  | ok result => exact ⟨result, rfl⟩
  | error fault => exact absurd (by rw [ending, hmerged]) (hreturns fault)

/-- A result tells that there was no error. -/
theorem errors_of_finished {result : Tally κ β} {summary : Summary}
    (h : q.ending = .finished result summary) : q.errors = [] := by
  obtain ⟨merged, hmerged⟩ := exists_merged_of_ending (q := q) (by simp [h])
  cases herrors : q.errors with
  | nil => rfl
  | cons error rest => simp [ending, hmerged, herrors] at h

/-- An error at the end is the one that was told. -/
theorem errors_of_failed {error : RunError} (hone : q.errors.length ≤ 1)
    (h : q.ending = .failed error) : q.errors = [error] := by
  obtain ⟨merged, hmerged⟩ := exists_merged_of_ending (q := q) (by simp [h])
  cases herrors : q.errors with
  | nil =>
    rw [ending_of_errors_nil hmerged herrors] at h
    rcases q.run.conclude_eq merged with ⟨result, heq⟩ | ⟨fault, heq⟩ <;> cases h.symm.trans heq
  | cons told rest =>
    obtain rfl : rest = [] := List.eq_nil_of_length_eq_zero (by simpa [herrors] using hone)
    rw [ending_of_errors hmerged herrors] at h
    rw [Ending.failed.inj h]

end Inquiry

/-- Whatever happens to a run, a stream of its completions is as it should be, and its items tell
how the run turns out whose completions are merged on the same occasions. -/
theorem Run.followed_alike {d : Dispatcher α κ β} {transport : σ} {pending : Pending α}
    {total : Nat} {run : Run σ α κ β} (hstart : d.start transport pending total = .ok run)
    (occasions : List (Occasion σ)) :
    run.FollowedAlike (d.queued ++ pending.args) total d.settings.accumulation occasions := by
  have hended : ∀ q, run.streams? occasions = some q →
      q.hasEnded = true ∧ q.IsStream (d.queued ++ pending.args) total ∧
        run.merges? occasions = some q.ending := by
    intro q hstream
    obtain ⟨front, q', -, hrow, hlast⟩ := exists_of_upshot? hstream
    obtain ⟨hover, rfl⟩ := Inquiry.streamed?_eq_some_iff.1 hlast
    exact ⟨hover, Inquiry.isStream_of_follow hstart hrow,
      (Mirrors.start run).upshot_of_streamed hstream⟩
  have hstreamed : ∀ ending, run.merges? occasions = some ending →
      (∀ fault, ending ≠ .crashed fault) →
        ∃ q, run.streams? occasions = some q ∧ q.ending = ending := by
    intro ending hmerges hreturns
    obtain ⟨q, hstream⟩ := (Mirrors.start run).exists_streamed_of_upshot hmerges hreturns
    exact ⟨q, hstream, Option.some.inj ((hended q hstream).2.2.symm.trans hmerges)⟩
  refine ⟨fun q hrow => Inquiry.isStream_of_follow hstart hrow, hended, ⟨?_, ?_⟩,
    fun error => ⟨?_, ?_⟩, ?_⟩
  · rintro ⟨result, summary, hmerges⟩
    obtain ⟨q, hstream, hending⟩ := hstreamed _ hmerges (by simp)
    exact ⟨q, hstream, Inquiry.errors_of_finished hending, by simp [hending]⟩
  · rintro ⟨q, hstream, herrors, hreturns⟩
    obtain ⟨merged, hmerged⟩ := Inquiry.exists_merged_of_ending hreturns
    have hending := Inquiry.ending_of_errors_nil hmerged herrors
    rw [(hended q hstream).2.2]
    rcases q.run.conclude_eq merged with ⟨result, heq⟩ | ⟨fault, heq⟩
    · exact ⟨result, _, congrArg some (hending.trans heq)⟩
    · exact absurd (hending.trans heq) (hreturns fault)
  · intro hmerges
    obtain ⟨q, hstream, hending⟩ := hstreamed _ hmerges (by simp)
    exact ⟨q, hstream, Inquiry.errors_of_failed (hended q hstream).2.1.errors hending,
      Inquiry.exists_merged_of_ending (by simp [hending])⟩
  · rintro ⟨q, hstream, herrors, merged, hmerged⟩
    rw [(hended q hstream).2.2, Inquiry.ending_of_errors hmerged herrors]
  · intro hmerges q hstream herrors
    obtain ⟨front, q', -, hrow, hlast⟩ := exists_of_upshot? hstream
    obtain ⟨-, rfl⟩ := Inquiry.streamed?_eq_some_iff.1 hlast
    have hnone := Inquiry.accumulator_of_follow hstart hmerges hrow
    cases hmerged : mergedOf q.told with
    | error fault => rw [Inquiry.ending, hmerged]
    | ok merged => rw [Inquiry.ending_of_errors_nil hmerged herrors, Run.conclude, hnone]

/-- Two tasks are told of, and merged to a result. -/
theorem Run.followed_alike_of_twoTasks :
    ∃ (run : Run FaultyBroker ScriptedTask String Count)
      (occasions : List (Occasion FaultyBroker))
      (q : Inquiry FaultyBroker ScriptedTask String Count) (result : Tally String Count)
      (summary : Summary),
      (Dispatcher.twoTasks .controlNode).start FaultyBroker.doubling .none 4 = .ok run ∧
        run.streams? occasions = some q ∧ q.items.length = 2 ∧
        run.merges? occasions = some (.finished result summary) ∧
        run.FollowedAlike (Dispatcher.twoTasks .controlNode).queued 4 .controlNode occasions := by
  have hplayed : (match (Dispatcher.twoTasks .controlNode).start FaultyBroker.doubling .none 4 with
      | .ok run =>
        ((run.completions 40 3).2.saysNoMore && (run.completions 40 3).1.length == 2) &&
          match (run.toEnd 40 3 .empty).1 with
          | .finished .. => true
          | _ => false
      | .error _ => false) = true := by decide +kernel
  split at hplayed
  · next run hstart =>
    obtain ⟨hstream, hmerges⟩ := Bool.and_eq_true_iff.1 hplayed
    obtain ⟨hover, hlength⟩ := Bool.and_eq_true_iff.1 hstream
    obtain ⟨occasions, hstreams, hsessions⟩ := Run.exists_occasions hstart 40 3
    obtain ⟨q, hq, -, hitems⟩ := hstreams hover
    split at hmerges
    · next result summary hfinished =>
      rw [hfinished] at hsessions
      have halike := Run.followed_alike hstart occasions
      exact ⟨run, occasions, q, result, summary, hstart, hq, by rw [hitems, eq_of_beq hlength],
        hsessions (by simp), halike⟩
    · cases hmerges
  · cases hplayed

/-- Two tasks with counts that are too much for one number. -/
def Dispatcher.overflowing : Dispatcher ScriptedTask String Count :=
  { twoTasks .controlNode with
    queued := [
      { ScriptedTask.plain "first" (.ofInt 2) with
        result := some [("a", .ofInt (2 ^ 64 - 1))] },
      { ScriptedTask.plain "second" (.ofInt 2) with result := some [("a", .ofInt 1)] }] }

/-- A stream may end without an error where merging its items overflows: then there is no result
on the same occasions. -/
theorem Run.not_finished_of_overflowing :
    ∃ (run : Run FaultyBroker ScriptedTask String Count)
      (occasions : List (Occasion FaultyBroker))
      (q : Inquiry FaultyBroker ScriptedTask String Count),
      Dispatcher.overflowing.start FaultyBroker.doubling .none 4 = .ok run ∧
        run.streams? occasions = some q ∧ q.errors = [] ∧
        ¬∃ result summary, run.merges? occasions = some (.finished result summary) := by
  have hplayed : (match Dispatcher.overflowing.start FaultyBroker.doubling .none 4 with
      | .ok run =>
        ((run.completions 40 3).2.saysNoMore && (run.completions 40 3).1.all Except.isOk) &&
          match (run.toEnd 40 3 .empty).1 with
          | .crashed _ => true
          | _ => false
      | .error _ => false) = true := by decide +kernel
  split at hplayed
  · next run hstart =>
    obtain ⟨hstream, hmerges⟩ := Bool.and_eq_true_iff.1 hplayed
    obtain ⟨hover, hall⟩ := Bool.and_eq_true_iff.1 hstream
    obtain ⟨occasions, hstreams, hsessions⟩ := Run.exists_occasions hstart 40 3
    obtain ⟨q, hq, -, hitems⟩ := hstreams hover
    refine ⟨run, occasions, q, hstart, hq, ?_, ?_⟩
    · obtain ⟨front, q', -, hrow, hlast⟩ := exists_of_upshot? hq
      obtain ⟨-, rfl⟩ := Inquiry.streamed?_eq_some_iff.1 hlast
      refine (Inquiry.isStream_of_follow hstart hrow).errors_eq_nil ?_
      rw [hitems]
      exact List.all_eq_true.1 hall
    · rintro ⟨result, summary, hfinished⟩
      split at hmerges
      · next fault hcrashed =>
        rw [hcrashed] at hsessions
        cases (hsessions (by simp)).symm.trans hfinished
      · cases hmerges
  · cases hplayed

end BatchRun
