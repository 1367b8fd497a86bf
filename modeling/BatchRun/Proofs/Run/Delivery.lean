import BatchRun.Proofs.Run.Integrity

/-!
# Outcomes are handed over once

Workers send outcomes, and the control node asks for the outcomes of tasks in an order of its own.
What it has not asked for yet is still on its way, or was put aside when it looked for another one.
The past alone says what it is given: the outcome that it asks for, if that was sent and was not
given before.

A request does not stop the workers. Outcomes that they send while the control node is looking
through those on their way are looked through as well, as if they had been sent just before; so a
request that goes on among sendings is sendings and then a request.

## Main definitions

* `Outcome.Event`: what can happen to outcomes
* `Sifts`: looking for an outcome while more are sent
* `Run.Delivered`: pasts and the runs they lead to
* `Run.Accounts`: what the past says about requests, and about the outcomes not taken

## Main results

* `Sifts.eq_takeSent`: outcomes that are sent meanwhile might as well have been sent before
* `Run.Delivered.loses_nothing`: no outcome is lost or given twice
-/

namespace BatchRun

variable {σ α κ β : Type} [Ord κ]

/-- What can happen to outcomes. -/
inductive Outcome.Event (κ β : Type) [Ord κ] where
  | sent (outcome : Outcome κ β)
  /-- The outcome of a task was asked for, and maybe found. -/
  | asked (taskNo : Nat) (found : Option (Outcome κ β))

namespace Outcome

/-- The outcomes that were sent, latest first. -/
def allSent : List (Outcome.Event κ β) → List (Outcome κ β)
  | [] => []
  | .sent outcome :: past => outcome :: allSent past
  | .asked .. :: past => allSent past

/-- The outcomes that were found, latest first. -/
def allTaken : List (Outcome.Event κ β) → List (Outcome κ β)
  | [] => []
  | .sent _ :: past => allTaken past
  | .asked _ found :: past => found.toList ++ allTaken past

end Outcome

open Outcome (allSent allTaken)

/-- Looking for the outcome of a task among those on their way, one after the other, while more are
sent: what is found, what is then on its way, and what is then put aside. -/
inductive Sifts (no : Nat) : List (Outcome κ β) → SortedMap Nat (Outcome κ β) →
    List (Outcome κ β) →
      Option (Outcome κ β) × List (Outcome κ β) × SortedMap Nat (Outcome κ β) → Prop
  | found {o : Outcome κ β} {rest : List (Outcome κ β)} {aside : SortedMap Nat (Outcome κ β)}
      (hno : o.taskNo = no) : Sifts no (o :: rest) aside [] (some o, rest, aside)
  | nothing {aside : SortedMap Nat (Outcome κ β)} : Sifts no [] aside [] (none, [], aside)
  | putAside {o : Outcome κ β} {rest arriving : List (Outcome κ β)}
      {aside : SortedMap Nat (Outcome κ β)}
      {taken : Option (Outcome κ β) × List (Outcome κ β) × SortedMap Nat (Outcome κ β)}
      (hno : o.taskNo ≠ no) (h : Sifts no rest (aside.insert o.taskNo o) arriving taken) :
      Sifts no (o :: rest) aside arriving taken
  | arrive {o : Outcome κ β} {sent arriving : List (Outcome κ β)}
      {aside : SortedMap Nat (Outcome κ β)}
      {taken : Option (Outcome κ β) × List (Outcome κ β) × SortedMap Nat (Outcome κ β)}
      (h : Sifts no (sent ++ [o]) aside arriving taken) : Sifts no sent aside (o :: arriving) taken

/-- Outcomes that are sent meanwhile might as well have been sent before. -/
theorem Sifts.eq_takeSent {no : Nat} {sent arriving : List (Outcome κ β)}
    {aside : SortedMap Nat (Outcome κ β)}
    {taken : Option (Outcome κ β) × List (Outcome κ β) × SortedMap Nat (Outcome κ β)}
    (h : Sifts no sent aside arriving taken) : takeSent no (sent ++ arriving) aside = taken := by
  induction h with
  | found hno => rw [List.append_nil, takeSent, if_pos hno]
  | nothing => rfl
  | putAside hno _ ih => rw [List.cons_append, takeSent, if_neg hno, ih]
  | arrive _ ih => rw [← ih, List.append_assoc, List.singleton_append]

namespace Run

/-- Pasts, the latest event first, and the runs they lead to. No task has two outcomes. What happens
elsewhere may be anything that leaves outcomes where they are. -/
inductive Delivered : List (Outcome.Event κ β) → Run σ α κ β → Prop
  | nothing {r : Run σ α κ β} (houtcomes : r.commons.outcomes = [])
      (hbuffered : r.buffered = .empty)
      (hwanted : r.commons.outcomesWanted = true) : Delivered [] r
  | send {past : List (Outcome.Event κ β)} {r : Run σ α κ β} (h : Delivered past r)
      (outcome : Outcome κ β) (hnew : outcome.taskNo ∉ (allSent past).map (·.taskNo)) :
      Delivered (.sent outcome :: past) { r with commons := r.commons.send outcome }
  | ask {past : List (Outcome.Event κ β)} {r : Run σ α κ β} (h : Delivered past r) (no : Nat) :
      Delivered (.asked no (r.takeOutcome no).1 :: past) (r.takeOutcome no).2
  | askAmid {past : List (Outcome.Event κ β)} {r : Run σ α κ β} (h : Delivered past r) {no : Nat}
      {arriving outcomes : List (Outcome κ β)} {found : Option (Outcome κ β)}
      {buffered : SortedMap Nat (Outcome κ β)} (hbuffered : r.buffered.get? no = none)
      (hsifts : Sifts no r.commons.outcomes r.buffered arriving (found, outcomes, buffered))
      (hnew : ((arriving ++ allSent past).map (·.taskNo)).Nodup) :
      Delivered (.asked no found :: ((arriving.map .sent).reverse ++ past))
        { r with buffered, commons := { r.commons with outcomes } }
  | elsewhere {past : List (Outcome.Event κ β)} {r r' : Run σ α κ β} (h : Delivered past r)
      (houtcomes : r'.commons.outcomes = r.commons.outcomes) (hbuffered : r'.buffered = r.buffered)
      (hwanted : r'.commons.outcomesWanted = r.commons.outcomesWanted) : Delivered past r'

/-- What the past says about requests, and about the outcomes that were not taken. -/
structure Accounts (past : List (Outcome.Event κ β)) (r : Run σ α κ β) : Prop where
  /-- The outcome of a task is found exactly if it was sent before and not taken before. -/
  found_iff {no : Nat} {found : Option (Outcome κ β)} {earlier : List (Outcome.Event κ β)}
    (h : .asked no found :: earlier <:+ past) (o : Outcome κ β) :
    found = some o ↔ o ∈ allSent earlier ∧ o ∉ allTaken earlier ∧ o.taskNo = no
  /-- No outcome is found twice. -/
  nodup_taken : ((allTaken past).map (·.taskNo)).Nodup
  /-- Outcomes that were sent and not taken are on their way or put aside. -/
  mem_iff (o : Outcome κ β) :
    o ∈ allSent past ∧ o ∉ allTaken past ↔ o ∈ r.commons.outcomes ∨ o ∈ r.buffered.values
  /-- No outcome is in both places, or twice in one of them. -/
  nodup_places : ((r.commons.outcomes ++ r.buffered.values).map (·.taskNo)).Nodup
  /-- What is put aside is kept under the number of its task. -/
  filed : Filed r.buffered

/-- What was sent was taken, or is on its way, or is put aside. -/
structure Entered (past : List (Outcome.Event κ β)) (r : Run σ α κ β) : Prop where
  wanted : r.commons.outcomesWanted = true
  filed : Filed r.buffered
  nodup_sent : ((allSent past).map (·.taskNo)).Nodup
  perm : (allSent past).Perm (allTaken past ++ (r.commons.outcomes ++ r.buffered.values))
  found_iff {no : Nat} {found : Option (Outcome κ β)} {earlier : List (Outcome.Event κ β)}
    (h : .asked no found :: earlier <:+ past) (o : Outcome κ β) :
    found = some o ↔ o ∈ allSent earlier ∧ o ∉ allTaken earlier ∧ o.taskNo = no

namespace Entered

variable {past : List (Outcome.Event κ β)} {r r' : Run σ α κ β} {o : Outcome κ β}

theorem nodup (h : r.Entered past) :
    ((allTaken past ++ (r.commons.outcomes ++ r.buffered.values)).map (·.taskNo)).Nodup :=
  (h.perm.map _).nodup_iff.1 h.nodup_sent

theorem nodup_places (h : r.Entered past) :
    ((r.commons.outcomes ++ r.buffered.values).map (·.taskNo)).Nodup :=
  h.nodup.sublist ((List.sublist_append_right _ _).map _)

/-- No outcome of a task that has one in the past is still in one of the two places. -/
theorem notMem_taken (h : r.Entered past)
    (hplace : o ∈ r.commons.outcomes ++ r.buffered.values) : o ∉ allTaken past := by
  have hnodup := h.nodup
  rw [List.map_append, List.nodup_append] at hnodup
  intro htaken
  exact hnodup.2.2 _ (List.mem_map_of_mem htaken) _ (List.mem_map_of_mem hplace) rfl

theorem mem_iff (h : r.Entered past) (o : Outcome κ β) :
    o ∈ allSent past ∧ o ∉ allTaken past ↔ o ∈ r.commons.outcomes ++ r.buffered.values := by
  rw [h.perm.mem_iff, List.mem_append]
  constructor
  · rintro ⟨htaken | hplace, hnot⟩
    · exact absurd htaken hnot
    · exact hplace
  · intro hplace
    exact ⟨.inr hplace, h.notMem_taken hplace⟩

theorem accounts (h : r.Entered past) : r.Accounts past where
  found_iff := h.found_iff
  nodup_taken := h.nodup.sublist ((List.sublist_append_left _ _).map _)
  mem_iff o := by rw [h.mem_iff, List.mem_append]
  nodup_places := h.nodup_places
  filed := h.filed

/-- Nothing but the two places matters. -/
theorem congr (h : r.Entered past) (houtcomes : r'.commons.outcomes = r.commons.outcomes)
    (hbuffered : r'.buffered = r.buffered)
    (hwanted : r'.commons.outcomesWanted = r.commons.outcomesWanted) : r'.Entered past where
  wanted := hwanted.trans h.wanted
  filed := hbuffered ▸ h.filed
  nodup_sent := h.nodup_sent
  perm := by rw [houtcomes, hbuffered]; exact h.perm
  found_iff := h.found_iff

theorem nothing (houtcomes : r.commons.outcomes = []) (hbuffered : r.buffered = .empty)
    (hwanted : r.commons.outcomesWanted = true) : r.Entered [] where
  wanted := hwanted
  filed := by rw [hbuffered]; exact nofun
  nodup_sent := .nil
  perm := by rw [houtcomes, hbuffered]; exact .refl _
  found_iff h := nomatch List.suffix_nil.1 h

theorem send (h : r.Entered past) (hnew : o.taskNo ∉ (allSent past).map (·.taskNo)) :
    Entered (.sent o :: past) { r with commons := r.commons.send o } := by
  have hsend : r.commons.send o = { r.commons with outcomes := r.commons.outcomes ++ [o] } :=
    if_pos h.wanted
  rw [hsend]
  exact {
    wanted := h.wanted
    filed := h.filed
    nodup_sent := List.nodup_cons.2 ⟨hnew, h.nodup_sent⟩
    perm := by
      have hlast : (o :: (r.commons.outcomes ++ r.buffered.values)).Perm
          (r.commons.outcomes ++ [o] ++ r.buffered.values) := by
        rw [List.append_assoc]
        exact List.perm_middle.symm
      exact (h.perm.cons o).trans (List.perm_middle.symm.trans (hlast.append_left _))
    found_iff := fun hearlier => by
      rcases List.suffix_cons_iff.1 hearlier with heq | hearlier
      · cases heq
      · exact h.found_iff hearlier }

/-- A request takes the outcome of its task out of the two places, if it is there. -/
theorem ask (h : r.Entered past) (no : Nat) :
    Entered (.asked no (r.takeOutcome no).1 :: past) (r.takeOutcome no).2 := by
  obtain ⟨found, buffered, outcomes, htake, hfiled, hperm, hfound, hnone⟩ :=
    r.takeOutcome_spec no h.filed h.nodup_places
  rw [htake r rfl rfl]
  have hanswer (o : Outcome κ β) :
      found = some o ↔ o ∈ allSent past ∧ o ∉ allTaken past ∧ o.taskNo = no := by
    rw [← and_assoc, h.mem_iff]
    constructor
    · rintro rfl
      exact ⟨hperm.mem_iff.2 (List.mem_append_left _ (Option.mem_toList.2 rfl)), hfound o rfl⟩
    · rintro ⟨hplace, hno⟩
      cases hcase : found with
      | none => exact absurd hno (hnone hcase o hplace)
      | some o' =>
        have hplace' : o' ∈ r.commons.outcomes ++ r.buffered.values :=
          hperm.mem_iff.2 (List.mem_append_left _ (by simp [hcase]))
        -- no task has two outcomes
        rw [List.inj_on_of_nodup_map h.nodup_places hplace' hplace
          ((hfound o' hcase).trans hno.symm)]
  exact {
    wanted := h.wanted
    filed := hfiled
    nodup_sent := h.nodup_sent
    perm := by
      refine h.perm.trans ((hperm.append_left _).trans ?_)
      rw [← List.append_assoc]
      exact List.perm_append_comm.append_right _
    found_iff := fun hearlier => by
      rcases List.suffix_cons_iff.1 hearlier with heq | hearlier
      · obtain ⟨hasked, rfl⟩ := List.cons.inj heq
        obtain ⟨rfl, rfl⟩ := Outcome.Event.asked.inj hasked
        exact hanswer
      · exact h.found_iff hearlier }

/-- Outcomes that are sent one after the other. -/
theorem sendAll (h : r.Entered past) (arriving : List (Outcome κ β))
    (hnew : ((arriving ++ allSent past).map (·.taskNo)).Nodup) :
    Entered ((arriving.map .sent).reverse ++ past)
      { r with commons := { r.commons with outcomes := r.commons.outcomes ++ arriving } } := by
  induction arriving generalizing past r with
  | nil => exact h.congr (List.append_nil _) rfl rfl
  | cons o rest ih =>
    rw [List.cons_append, List.map_cons, List.nodup_cons, List.map_append, List.mem_append,
      not_or] at hnew
    obtain ⟨⟨hrest, hpast⟩, hnodup⟩ := hnew
    have hnext : ((rest ++ allSent (.sent o :: past)).map (·.taskNo)).Nodup := by
      have hperm : (rest ++ o :: allSent past).Perm (o :: (rest ++ allSent past)) :=
        List.perm_middle
      rw [allSent, (hperm.map _).nodup_iff, List.map_cons, List.nodup_cons, List.map_append,
        List.mem_append, not_or]
      exact ⟨⟨hrest, hpast⟩, hnodup⟩
    have hsent : (r.commons.send o).outcomes = r.commons.outcomes ++ [o] := by
      rw [Commons.send, if_pos h.wanted]
    rw [List.map_cons, List.reverse_cons, List.append_assoc]
    refine (ih (h.send hpast) hnext).congr ?_ rfl (h.wanted.trans (h.send hpast).wanted.symm)
    show r.commons.outcomes ++ o :: rest = (r.commons.send o).outcomes ++ rest
    rw [hsent, List.append_assoc, List.singleton_append]

/-- A request among sendings is sendings and then a request. -/
theorem askAmid (h : r.Entered past) {no : Nat} {arriving outcomes : List (Outcome κ β)}
    {found : Option (Outcome κ β)} {buffered : SortedMap Nat (Outcome κ β)}
    (hbuffered : r.buffered.get? no = none)
    (hsifts : Sifts no r.commons.outcomes r.buffered arriving (found, outcomes, buffered))
    (hnew : ((arriving ++ allSent past).map (·.taskNo)).Nodup) :
    Entered (.asked no found :: ((arriving.map .sent).reverse ++ past))
      { r with buffered, commons := { r.commons with outcomes } } := by
  have hask := (h.sendAll arriving hnew).ask no
  simp only [takeOutcome, hbuffered, hsifts.eq_takeSent] at hask
  exact hask

end Entered

/-- Whatever has happened, outcomes are accounted for. -/
theorem Delivered.entered {past : List (Outcome.Event κ β)} {r : Run σ α κ β}
    (h : r.Delivered past) : r.Entered past := by
  induction h with
  | nothing houtcomes hbuffered hwanted => exact .nothing houtcomes hbuffered hwanted
  | send _ _ hnew ih => exact ih.send hnew
  | ask _ no ih => exact ih.ask no
  | askAmid _ hbuffered hsifts hnew ih => exact ih.askAmid hbuffered hsifts hnew
  | elsewhere _ houtcomes hbuffered hwanted ih => exact ih.congr houtcomes hbuffered hwanted

/-- No outcome is lost and none is given twice, in whichever order outcomes are sent and asked for.
A request finds the outcome of its task exactly if that was sent before it and not taken, and
whatever was sent and not taken is on its way or put aside, and not both. -/
theorem Delivered.loses_nothing {past : List (Outcome.Event κ β)} {r : Run σ α κ β}
    (h : r.Delivered past) : r.Accounts past :=
  h.entered.accounts

end Run

/-- A run that has just started has no outcomes yet. -/
theorem Dispatcher.delivered_of_start [Std.TransOrd κ] [Mergeable β] [Transport σ] [Workload α]
    {d : Dispatcher α κ β} {transport : σ} {pending : Pending α} {total : Nat} {run : Run σ α κ β}
    (h : d.start transport pending total = .ok run) : run.Delivered [] := by
  obtain ⟨mode, executor, opened, -, -, rfl⟩ := exists_of_start h
  exact .nothing rfl rfl rfl

/-- An outcome without a partial result. -/
def Outcome.bare (no : Nat) : Outcome String Count := ⟨no, 1, "", .ok none⟩

/-- While the first outcome is looked for two others are put aside, one of them sent meanwhile. One
is asked for later on, and the other is left. -/
theorem Run.loses_nothing_of_threeOutcomes :
    ∃ (r : Run FaultyBroker ScriptedTask String Count) (past : List (Outcome.Event String Count)),
      r.Delivered past ∧ past = [.asked 2 none, .asked 2 (some (.bare 2)),
        .asked 0 (some (.bare 0)), .sent (.bare 0), .sent (.bare 1), .sent (.bare 2)] ∧
      r.commons.outcomes = [] ∧ r.buffered.values = [.bare 1] ∧ r.Accounts past := by
  have hstarts : ∃ run, (Dispatcher.twoTasks .controlNode).start FaultyBroker.doubling .none 4 =
      .ok run := ⟨_, rfl⟩
  obtain ⟨run, hstart⟩ := hstarts
  have hfresh := Dispatcher.delivered_of_start hstart
  obtain ⟨mode, executor, opened, -, -, rfl⟩ := Dispatcher.exists_of_start hstart
  have hsent := hfresh.send (.bare 2) (by decide)
  have hsifts : Sifts 0 [.bare 2] .empty [.bare 1, .bare 0] (some (.bare 0), [],
      (SortedMap.empty.insert 2 (.bare 2)).insert 1 (.bare 1)) :=
    .arrive (.putAside (by decide) (.putAside (by decide) (.arrive (.found rfl))))
  have hamid := hsent.askAmid rfl hsifts (by decide)
  have hlast := (hamid.ask 2).ask 2
  exact ⟨_, _, hlast, rfl, rfl, rfl, hlast.loses_nothing⟩

end BatchRun
