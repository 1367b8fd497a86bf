import BatchRun.Rehearsal.FaultyBroker
import BatchRun.Rehearsal.ScriptedTask
import BatchRun.Run.Dispatcher

/-!
# Interviews

A run can be asked for its completions one by one, and looked at in between.

## Main definitions

* `Run.interview`: the run behind each question
* `Splitter.interview`: the splitter behind each question, with its answer
-/

namespace BatchRun

open Std

/-- A run of scripted tasks over a broker that follows a plan. -/
abbrev ScriptedRun := Run FaultyBroker ScriptedTask String Count

namespace Run

variable {σ α κ β : Type} [Ord κ]

/-- The fault that ended the control node, if one did. -/
def crash? (r : Run σ α κ β) : Option Fault :=
  match r.phase with
  | .crashed fault => some fault
  | _ => none

/-- What the caller was told last. -/
def reply? (r : Run σ α κ β) : Option (Reply κ β) :=
  match r.phase with
  | .replied reply => some reply
  | _ => none

variable [TransOrd κ] [Mergeable β] [Transport σ] [Workload α]

/-- The run behind each question, for a number of questions at most. The second reply without a
completion is the last one. -/
def interview (patience : Nat) : Nat → Bool → Run σ α κ β → List (Run σ α κ β)
  | 0, _, _ => []
  | questions + 1, once, r =>
    let r := r.next patience
    match r.reply? with
    | some (.ok (some _)) => r :: interview patience questions once r
    | some _ => r :: if once then [] else interview patience questions true r
    | none => [r]

end Run

/-- Replies in the order of their tasks, behind those that are about none. -/
def Reply.sort {κ β : Type} [Ord κ] (replies : List (Reply κ β)) : List (Reply κ β) :=
  let place : Reply κ β → Nat
    | .ok (some completion) => completion.taskNo + 1
    | _ => 0
  replies.mergeSort fun a b => place a ≤ place b

/-- The answer to each question and the splitter behind it, for a number of questions at most. The
second answer without a block is the last one. -/
def Splitter.interview {ι κ W : Type} [BEq κ] [Weight W] :
    Nat → Bool → Splitter ι κ W → List (Option (Block ι κ W) × Splitter ι κ W)
  | 0, _, _ => []
  | questions + 1, once, s =>
    match s.next with
    | (some block, s) => (some block, s) :: interview questions once s
    | (none, s) => (none, s) :: if once then [] else interview questions true s

/-- Enough questions for all blocks. -/
def Splitter.questions {ι κ W : Type} (s : Splitter ι κ W) : Nat := s.source.length + 3

end BatchRun
