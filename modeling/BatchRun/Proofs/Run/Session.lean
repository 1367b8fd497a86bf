import Mathlib.Logic.Relation
import BatchRun.Run.Schedule

/-!
# Sessions: a run and its caller

A caller who wants the merged result of a run asks for one completion after the other, merges
what each brings, and stops at the first reply that brings none. Meanwhile the moves of the run
come in any order. A session is a run together with what its caller has merged and seen so far,
and what workers were given to do; its steps leave the order of moves open.

`Run.toEnd` plays one of these orders, so that whatever holds of all sessions holds of it.

## Main definitions

* `Run.begins`: the tasks whose work functions a move calls
* `Session`, `Session.Step`, `Session.Reaches`: sessions and their steps
* `Session.ending?`: how a session turned out, once it is over

## Main results

* `Session.reaches_toEnd`: a run that is played to its end is a session
-/

namespace BatchRun

open Relation

section Begins

variable {σ α κ β : Type} [Ord κ]

/-- The task whose work function is called by the next step of a worker: it was taken before, and
is not skipped. -/
def Pool.begins (p : Pool α κ β) (index : Nat) : List (Task α) :=
  match p.workers[index]? with
  | some (.holding task) => if p.cancelled then [] else [task]
  | _ => []

namespace Executor

/-- The task whose work function is called by the next step of a worker. -/
def begins (index : Nat) : Executor α κ β → List (Task α)
  | sequential .. => []
  | pool p => p.begins index

/-- The task whose work function is called when queued tasks are given a chance to run. -/
def driven : Executor α κ β → List (Task α)
  | sequential (task :: _) _ => [task]
  | _ => []

end Executor

namespace Run

/-- Whether the next step of the control node gives queued tasks a chance to run. -/
def drives (r : Run σ α κ β) : Bool :=
  match r.phase with
  | .deciding => !r.inFlight.isEmpty
  | .joining _ => !r.executor.isFinished
  | _ => false

/-- The tasks whose work functions a move calls. -/
def begins (r : Run σ α κ β) : Move → List (Task α)
  | .control => if r.drives then r.executor.driven else []
  | .worker index => r.executor.begins index
  | .expire => []

end Run

end Begins

/-- A run, what its caller has merged and was told, and what was done for it. -/
structure Session (σ α κ β : Type) [Ord κ] where
  run : Run σ α κ β
  /-- What the caller has merged. -/
  result : Tally κ β
  /-- The tasks whose work functions were called, in the order of the calls. -/
  begun : List (Task α)
  /-- The completions that the caller was told, in their order. -/
  acknowledged : List (Completion κ β)

/-- A tally after a completion: its partial result is merged, if it brings one. -/
def Tally.absorb {κ β : Type} [Ord κ] [Std.TransOrd κ] [Mergeable β] (t : Tally κ β) :
    Option (Tally κ β) → Except Fault (Tally κ β)
  | none => .ok t
  | some part => t.mergeTally part

namespace Session

variable {σ α κ β : Type} [Ord κ]

/-- A session at its start: the caller asks for the first completion. -/
def start (r : Run σ α κ β) : Session σ α κ β := ⟨r.ask, .empty, [], []⟩

variable [Std.TransOrd κ] [Mergeable β]

/-- How a session turned out, once it is over. -/
def ending? (s : Session σ α κ β) : Option (Ending κ β) :=
  match s.run.phase with
  | .replied (.ok (some completion)) =>
    match s.result.absorb completion.part with
    | .ok _ => none
    | .error fault => some (.crashed fault)
  | .replied (.ok none) => some (s.run.conclude s.result)
  | .replied (.error error) => some (.failed error)
  | .crashed fault => some (.crashed fault)
  | _ => none

variable [Transport σ] [Workload α]

/-- What can happen next in a session: a move of the run, or the caller merges what a completion
brings and asks for the next one. -/
inductive Step : Session σ α κ β → Session σ α κ β → Prop
  | move {s : Session σ α κ β} {m : Move} {run : Run σ α κ β} (h : s.run.move? m = some run) :
      Step s { s with run, begun := s.begun ++ s.run.begins m }
  | absorb {s : Session σ α κ β} {completion : Completion κ β} {result : Tally κ β}
      (hphase : s.run.phase = .replied (.ok (some completion)))
      (hresult : s.result.absorb completion.part = .ok result) :
      Step s { s with
        run := s.run.ask, result, acknowledged := s.acknowledged ++ [completion] }

/-- A session that a run comes to by some order of moves. -/
def Reaches (r : Run σ α κ β) (s : Session σ α κ β) : Prop := ReflTransGen Step (start r) s

/-- What holds at the start of a session and is kept by every step holds throughout. -/
theorem Reaches.invariant {r : Run σ α κ β} {s : Session σ α κ β} (h : Reaches r s)
    {Holds : Session σ α κ β → Prop} (hstart : Holds (start r))
    (hstep : ∀ s t, Step s t → Holds s → Holds t) : Holds s := by
  induction h with
  | refl => exact hstart
  | tail _ hst ih => exact hstep _ _ hst ih

end Session

section Play

variable {σ α κ β : Type} [Ord κ] [Std.TransOrd κ] [Mergeable β] [Transport σ] [Workload α]

/-- The move that is played next is one of those that are possible. -/
theorem Run.exists_move_of_nextMove {held : α → Bool} {r r' : Run σ α κ β}
    (h : r.nextMove held = some r') : ∃ m, r.move? m = some r' := by
  simp only [nextMove, Option.orElse_eq_or, Option.or_eq_some_iff] at h
  rcases h with h | ⟨-, h⟩
  · exact ⟨.control, h⟩
  · split at h
    · exact ⟨.worker _, h⟩
    · split at h
      · exact ⟨.expire, h⟩
      · exact ⟨.worker _, h⟩
    · exact ⟨.worker _, h⟩
    · exact ⟨.expire, h⟩

namespace Session

/-- Playing a run is a row of moves. -/
theorem reaches_play (held : α → Bool) (patience : Nat) (s : Session σ α κ β) :
    ∃ begun, ReflTransGen Step s { s with run := s.run.play held patience, begun } := by
  induction patience generalizing s with
  | zero => exact ⟨s.begun, .refl⟩
  | succ patience ih =>
    simp only [Run.play]
    split
    · exact ⟨s.begun, .refl⟩
    · cases hnext : s.run.nextMove held with
      | none => exact ⟨s.begun, .refl⟩
      | some run =>
        obtain ⟨m, hm⟩ := Run.exists_move_of_nextMove hnext
        obtain ⟨begun, hrest⟩ := ih { s with run, begun := s.begun ++ s.run.begins m }
        exact ⟨begun, .head (.move hm) hrest⟩

/-- A run that is played to its end is a session that is over. -/
theorem reaches_toEnd (patience questions : Nat) (s : Session σ α κ β) (r : Run σ α κ β)
    (hs : s.run = r.ask) {ending : Ending κ β} {run : Run σ α κ β}
    (h : r.toEnd patience questions s.result = (ending, run)) (hending : ending ≠ .stalled) :
    ∃ t, ReflTransGen Step s t ∧ t.run = run ∧ t.ending? = some ending := by
  -- one question after the other; the session takes over what was merged so far
  induction questions generalizing s r with
  | zero =>
    obtain ⟨rfl, -⟩ := Prod.mk.inj h
    exact absurd rfl hending
  | succ questions ih =>
    obtain ⟨begun, hplay⟩ := reaches_play (fun _ => false) patience s
    rw [hs] at hplay
    simp only [Run.toEnd, Run.next] at h
    generalize r.ask.play (fun _ => false) patience = played at h hplay
    split at h
    · next completion hphase =>
      -- the caller merges the completion and the induction hypothesis takes over
      cases hpart : completion.part with
      | none =>
        rw [hpart] at h
        have habsorb : s.result.absorb completion.part = .ok s.result := by rw [hpart]; rfl
        obtain ⟨t, hrest, ht⟩ := ih ⟨played.ask, s.result, begun, s.acknowledged ++ [completion]⟩
          played rfl h
        exact ⟨t, hplay.trans (.head (.absorb hphase habsorb) hrest), ht⟩
      | some part =>
        rw [hpart] at h
        cases hmerge : s.result.mergeTally part with
        | error fault =>
          simp only [hmerge] at h
          obtain ⟨rfl, rfl⟩ := Prod.mk.inj h
          exact ⟨_, hplay, rfl, by simp [ending?, hphase, hpart, Tally.absorb, hmerge]⟩
        | ok result =>
          simp only [hmerge] at h
          have habsorb : s.result.absorb completion.part = .ok result := by
            rw [hpart, Tally.absorb, hmerge]
          obtain ⟨t, hrest, ht⟩ := ih ⟨played.ask, result, begun, s.acknowledged ++ [completion]⟩
            played rfl h
          exact ⟨t, hplay.trans (.head (.absorb hphase habsorb) hrest), ht⟩
    · next hphase =>
      obtain ⟨rfl, rfl⟩ := Prod.mk.inj h
      exact ⟨_, hplay, rfl, by simp [ending?, hphase]⟩
    · next error hphase =>
      obtain ⟨rfl, rfl⟩ := Prod.mk.inj h
      exact ⟨_, hplay, rfl, by simp [ending?, hphase]⟩
    · next fault hphase =>
      obtain ⟨rfl, rfl⟩ := Prod.mk.inj h
      exact ⟨_, hplay, rfl, by simp [ending?, hphase]⟩
    · obtain ⟨rfl, -⟩ := Prod.mk.inj h
      exact absurd rfl hending

/-- How a run turns out that is played to its end is how a session of it turns out. -/
theorem exists_of_toEnd {patience questions : Nat} {run : Run σ α κ β} {ending : Ending κ β}
    (h : (run.toEnd patience questions .empty).1 = ending) (hending : ending ≠ .stalled) :
    ∃ s, Reaches run s ∧ s.run = (run.toEnd patience questions .empty).2 ∧
      s.ending? = some ending :=
  reaches_toEnd patience questions (start run) run rfl (Prod.ext h rfl) hending

end Session

end Play

end BatchRun
