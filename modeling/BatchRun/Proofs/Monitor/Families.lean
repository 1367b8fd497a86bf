import Mathlib.Logic.Function.Basic
import BatchRun.Proofs.Monitor.Timings
import BatchRun.Proofs.Text.ByteOrder

/-!
# Families of monitors

Monitors that come from one root, each as a part, for a task or as a copy, feed one table. So they
all report the same: what was recorded on any of them, by its path. The past alone says what the
paths are, and a call that faults is as much a part of it as any other call.

A new monitor that comes from no other has a table of its own, at an address that no monitor had.
The invariant is that the table at an address holds the calls of the family of that root, in the
order in which they were recorded.

## Main definitions

* `Monitor.Families`: the monitors in use and the tables that they feed
* `Monitor.Families.Event`: what can happen to monitors
* `Monitor.Families.Happened`: pasts and the monitors they lead to
* `Monitor.Families.Accounts`: what the past says about the reports

## Main results

* `Monitor.Families.Happened.adds_up`: reports are what the past says
-/

namespace BatchRun.Monitor

/-- How a monitor comes from another one. -/
inductive Derivation where
  | child (part : String)
  | forTask (taskNo : Nat)
  | clone

/-- The monitor that comes from another one. -/
def Derivation.of (d : Derivation) (m : Monitor) : Monitor :=
  match d with
  | .child part => m.child part
  | .forTask taskNo => m.forTask taskNo
  | .clone => m

/-- The name of what comes from a monitor of a given name. -/
def Derivation.rename (d : Derivation) (name : String) : String :=
  match d with
  | .child part => name ++ "/" ++ part
  | .forTask _ => name
  | .clone => name

@[simp] theorem Derivation.of_name (d : Derivation) (m : Monitor) :
    (d.of m).name = d.rename m.name := by
  cases d <;> rfl

/-- A monitor and the address of the table that it feeds. -/
structure Attached where
  monitor : Monitor
  table : Nat

/-- A measurement: the monitor that it was started on, by its number, and the scope. -/
structure Measurement where
  monitor : Nat
  scope : String

/-- Monitors in use, the tables that they feed, by their addresses, and the measurements under way,
by their numbers, with the number of those that were started. -/
structure Families where
  monitors : List Attached
  tables : Nat → Timings
  underWay : Nat → Option Measurement
  measurements : Nat

namespace Families

/-- No monitor yet. -/
def empty : Families := ⟨[], fun _ => .empty, fun _ => none, 0⟩

/-- One more monitor. -/
def attach (w : Families) (a : Attached) : Families := { w with monitors := w.monitors ++ [a] }

/-- A new monitor with a table of its own. -/
def start (w : Families) (name : String) : Families :=
  let address := w.monitors.length
  { w with tables := Function.update w.tables address .empty }.attach ⟨.named name, address⟩

/-- A new monitor that comes from another one and feeds its table. -/
def derive (w : Families) (d : Derivation) (parent : Nat) : Families :=
  match w.monitors[parent]? with
  | none => w
  | some a => w.attach ⟨d.of a.monitor, a.table⟩

/-- Record one call of a scope on a monitor. -/
def record (w : Families) (m : Nat) (scope : String) (elapsed : Elapsed) :
    Families × Option Fault :=
  match w.monitors[m]? with
  | none => (w, none)
  | some a =>
    let (t, fault) := (w.tables a.table).record (a.monitor.path scope) elapsed
    ({ w with tables := Function.update w.tables a.table t }, fault)

/-- Start to measure a scope on a monitor. -/
def measure (w : Families) (m : Nat) (scope : String) : Families :=
  { w with
    underWay := Function.update w.underWay w.measurements (some ⟨m, scope⟩)
    measurements := w.measurements + 1 }

/-- Finish a measurement: its call is recorded, and it is not under way any more. -/
def finish (w : Families) (g : Nat) (elapsed : Elapsed) : Families × Option Fault :=
  match w.underWay g with
  | none => (w, none)
  | some s =>
    let (w, fault) := w.record s.monitor s.scope elapsed
    ({ w with underWay := Function.update w.underWay g none }, fault)

/-- What a monitor reports. -/
def report (w : Families) (m : Nat) : List (String × ScopeTotal) :=
  match w.monitors[m]? with
  | none => []
  | some a => (w.tables a.table).report

/-- What can happen to monitors. Monitors and measurements have numbers. -/
inductive Event where
  | started (name : String) (m : Nat)
  | derived (d : Derivation) (parent m : Nat)
  | recorded (m : Nat) (scope : String) (elapsed : Elapsed)
  | measuring (m : Nat) (scope : String) (g : Nat)
  | measured (g : Nat) (elapsed : Elapsed)

/-- Pasts, the latest event first, and the monitors they lead to. A monitor has to be there before
another one comes from it or anything is recorded on it. -/
inductive Happened : List Event → Families → Prop
  | nothing : Happened [] empty
  | start {past : List Event} {w : Families} (h : Happened past w) (name : String) :
      Happened (.started name w.monitors.length :: past) (w.start name)
  | derive {past : List Event} {w : Families} (h : Happened past w) (d : Derivation) (parent : Nat)
      (hthere : parent < w.monitors.length) :
      Happened (.derived d parent w.monitors.length :: past) (w.derive d parent)
  | record {past : List Event} {w : Families} (h : Happened past w) (m : Nat)
      (hthere : m < w.monitors.length) (scope : String) (elapsed : Elapsed) :
      Happened (.recorded m scope elapsed :: past) (w.record m scope elapsed).1
  | measure {past : List Event} {w : Families} (h : Happened past w) (m : Nat)
      (hthere : m < w.monitors.length) (scope : String) :
      Happened (.measuring m scope w.measurements :: past) (w.measure m scope)
  | finish {past : List Event} {w : Families} (h : Happened past w) (g : Nat)
      (hunderWay : (w.underWay g).isSome) (elapsed : Elapsed) :
      Happened (.measured g elapsed :: past) (w.finish g elapsed).1

/-- The name of a monitor. -/
def name? (m : Nat) : List Event → Option String
  | [] => none
  | .started name m' :: past => if m' = m then some name else name? m past
  | .derived d parent m' :: past =>
    if m' = m then (name? parent past).map d.rename else name? m past
  | _ :: past => name? m past

/-- The root that a monitor comes from. -/
def root? (m : Nat) : List Event → Option Nat
  | [] => none
  | .started _ m' :: past => if m' = m then some m else root? m past
  | .derived _ parent m' :: past => if m' = m then root? parent past else root? m past
  | _ :: past => root? m past

/-- A measurement that is under way. -/
def measurement? (g : Nat) : List Event → Option Measurement
  | [] => none
  | .measuring m scope g' :: past => if g' = g then some ⟨m, scope⟩ else measurement? g past
  | .measured g' _ :: past => if g' = g then none else measurement? g past
  | _ :: past => measurement? g past

/-- A call on a monitor, by its path, if the monitor comes from a given root. -/
def spelled (root : Nat) (past : List Event) (m : Nat) (scope : String) (elapsed : Elapsed) :
    List (String × Elapsed) :=
  if root? m past = some root then
    ((name? m past).map fun name => (name ++ "/" ++ scope, elapsed)).toList
  else []

/-- The calls that were recorded on the monitors that come from a root, oldest first. -/
def records (root : Nat) : List Event → List (String × Elapsed)
  | [] => []
  | .recorded m scope elapsed :: past => records root past ++ spelled root past m scope elapsed
  | .measured g elapsed :: past =>
    match measurement? g past with
    | none => records root past
    | some s => records root past ++ spelled root past s.monitor s.scope elapsed
  | _ :: past => records root past

/-- What one more call of a path is told, and what changes with it. -/
structure Effect (past : List Event) (w : Families) (root : Nat) (path : String) (elapsed : Elapsed)
    (result : Families × Option Fault) : Prop where
  /-- The call faults exactly if its time does not fit in. -/
  fault_eq : result.2 = Elapsed.faultOf (Timings.timesOf path (records root past)) elapsed
  /-- No entry changes but that of the path in the reports of the family. -/
  mem_report_iff {m : Nat} {path' : String} {s : ScopeTotal}
    (hother : root? m past = some root → path' ≠ path) :
    (path', s) ∈ result.1.report m ↔ (path', s) ∈ w.report m

/-- What the past says about the reports. -/
structure Accounts (past : List Event) (w : Families) : Prop where
  /-- Every monitor that the past knows is there. -/
  there_iff (m : Nat) : m < w.monitors.length ↔ (root? m past).isSome
  /-- Monitors that come from one root report the same. -/
  report_eq {m m' root : Nat} (hroot : root? m past = some root)
    (hroot' : root? m' past = some root) : w.report m = w.report m'
  /-- The paths in a report increase byte by byte. -/
  increasing (m : Nat) : (w.report m).Pairwise fun a b => Text.bytes a.1 < Text.bytes b.1
  /-- A path is in a report exactly if it was recorded on some monitor of the family. -/
  occurs_iff {m root : Nat} (hroot : root? m past = some root) (path : String) :
    path ∈ (w.report m).map Prod.fst ↔ ∃ elapsed, (path, elapsed) ∈ records root past
  /-- Every call of a path is counted. -/
  calls_eq {m root : Nat} (hroot : root? m past = some root) {path : String} {s : ScopeTotal}
    (h : (path, s) ∈ w.report m) : s.calls = (Timings.timesOf path (records root past)).length
  /-- The total of a path is the sum of the times that fitted in. -/
  total_eq {m root : Nat} (hroot : root? m past = some root) {path : String} {s : ScopeTotal}
    (h : (path, s) ∈ w.report m) :
    s.total.nanos = Elapsed.sum (Elapsed.kept (Timings.timesOf path (records root past)))
  /-- What a call does, also one that faults. -/
  record {m root : Nat} {name : String} (hroot : root? m past = some root)
    (hname : name? m past = some name) (scope : String) (elapsed : Elapsed) :
    Effect past w root (name ++ "/" ++ scope) elapsed (w.record m scope elapsed)
  /-- A measurement that is finished is a call on its monitor. -/
  finish {g root : Nat} {name : String} {s : Measurement} (hs : measurement? g past = some s)
    (hroot : root? s.monitor past = some root) (hname : name? s.monitor past = some name)
    (elapsed : Elapsed) :
    Effect past w root (name ++ "/" ++ s.scope) elapsed (w.finish g elapsed)

/-- The state is what the past says. This is what each event preserves. -/
structure Follows (past : List Event) (w : Families) : Prop where
  name_eq (m : Nat) : w.monitors[m]?.map (·.monitor.name) = name? m past
  root_eq (m : Nat) : w.monitors[m]?.map (·.table) = root? m past
  /-- The address of a table is the number of a monitor. -/
  root_lt {m root : Nat} (h : root? m past = some root) : root < w.monitors.length
  measurement_eq (g : Nat) : w.underWay g = measurement? g past
  monitor_lt {g : Nat} {s : Measurement} (h : measurement? g past = some s) :
    s.monitor < w.monitors.length
  unborn {root : Nat} (h : w.monitors.length ≤ root) : records root past = []
  /-- A table holds the calls of a family. -/
  table_eq (root : Nat) : w.tables root = Timings.empty.recordAll (records root past)

section Operations

variable {w : Families} {m g : Nat} {a : Attached} {s : Measurement}

theorem getElem?_attach (w : Families) (a : Attached) (m : Nat) :
    (w.attach a).monitors[m]? = if w.monitors.length = m then some a else w.monitors[m]? := by
  split
  · next h =>
    subst h
    exact List.getElem?_concat_length
  · next h =>
    rw [attach, List.getElem?_append]
    split
    · rfl
    · rw [List.getElem?_singleton, if_neg (by omega), List.getElem?_eq_none (by omega)]

theorem length_attach (w : Families) (a : Attached) :
    (w.attach a).monitors.length = w.monitors.length + 1 :=
  List.length_append

theorem record_eq (ha : w.monitors[m]? = some a) (scope : String) (elapsed : Elapsed) :
    w.record m scope elapsed =
      ({ w with
          tables := Function.update w.tables a.table
            ((w.tables a.table).record (a.monitor.path scope) elapsed).1 },
        ((w.tables a.table).record (a.monitor.path scope) elapsed).2) := by
  simp only [record, ha]

@[simp] theorem record_monitors (w : Families) (m : Nat) (scope : String) (elapsed : Elapsed) :
    (w.record m scope elapsed).1.monitors = w.monitors := by
  rw [record]
  split <;> rfl

@[simp] theorem record_underWay (w : Families) (m : Nat) (scope : String) (elapsed : Elapsed) :
    (w.record m scope elapsed).1.underWay = w.underWay := by
  rw [record]
  split <;> rfl

/-- A measurement that is finished is a call on its monitor, and is gone. -/
theorem finish_eq (hs : w.underWay g = some s) (elapsed : Elapsed) :
    w.finish g elapsed =
      ({ (w.record s.monitor s.scope elapsed).1 with
          underWay := Function.update w.underWay g none },
        (w.record s.monitor s.scope elapsed).2) := by
  simp only [finish, hs, record_underWay]

/-- The path of a call on a monitor is its name, a slash and the scope. -/
theorem spelled_eq {past : List Event} {root : Nat} {name : String}
    (hroot : root? m past = some root) (hname : name? m past = some name) (root' : Nat)
    (scope : String) (elapsed : Elapsed) :
    spelled root' past m scope elapsed =
      if root = root' then [(name ++ "/" ++ scope, elapsed)] else [] := by
  simp only [spelled, hroot, hname, Option.some.injEq, Option.map_some, Option.toList_some]

end Operations

namespace Follows

variable {past : List Event} {w : Families} {m root : Nat} {name : String}

theorem exists_attached (h : Follows past w) (hthere : m < w.monitors.length) :
    ∃ a, w.monitors[m]? = some a ∧ root? m past = some a.table ∧
      name? m past = some a.monitor.name := by
  refine ⟨w.monitors[m], List.getElem?_eq_getElem hthere, ?_, ?_⟩
  · rw [← h.root_eq, List.getElem?_eq_getElem hthere, Option.map_some]
  · rw [← h.name_eq, List.getElem?_eq_getElem hthere, Option.map_some]

theorem there_iff (h : Follows past w) (m : Nat) :
    m < w.monitors.length ↔ (root? m past).isSome := by
  rw [← h.root_eq, Option.isSome_map, isSome_getElem?]

/-- What a monitor reports is what was recorded on the monitors of its root. -/
theorem report_eq (h : Follows past w) (hroot : root? m past = some root) :
    w.report m = (Timings.empty.recordAll (records root past)).report := by
  obtain ⟨a, ha, hroot', -⟩ := h.exists_attached ((h.there_iff m).2 (by simp [hroot]))
  obtain rfl := Option.some.inj (hroot.symm.trans hroot')
  rw [report, ha]
  exact congrArg Timings.report (h.table_eq a.table)

/-- A call adds to the table of the family what it spells. -/
theorem tables_record (h : Follows past w) (hthere : m < w.monitors.length) (scope : String)
    (elapsed : Elapsed) (root : Nat) :
    (w.record m scope elapsed).1.tables root =
      Timings.empty.recordAll (records root past ++ spelled root past m scope elapsed) := by
  obtain ⟨a, ha, hroot, hname⟩ := h.exists_attached hthere
  rw [record_eq ha, spelled_eq hroot hname]
  dsimp only
  split
  · next heq =>
    subst heq
    rw [Function.update_self, h.table_eq, Timings.record_recordAll]
    rfl
  · next hne => rw [Function.update_of_ne (Ne.symm hne), h.table_eq, List.append_nil]

theorem nothing : Follows [] empty where
  name_eq _ := rfl
  root_eq _ := rfl
  root_lt h := nomatch h
  measurement_eq _ := rfl
  monitor_lt h := nomatch h
  unborn _ := rfl
  table_eq _ := rfl

/-- A new monitor is one that the past did not know, and changes nothing else. -/
theorem attached (h : Follows past w) {e : Event} {a : Attached}
    (hname : ∀ m, name? m (e :: past) =
      if w.monitors.length = m then some a.monitor.name else name? m past)
    (hroot : ∀ m, root? m (e :: past) =
      if w.monitors.length = m then some a.table else root? m past)
    (htable : a.table ≤ w.monitors.length)
    (hmeasurement : ∀ g, measurement? g (e :: past) = measurement? g past)
    (hrecords : ∀ root, records root (e :: past) = records root past) :
    Follows (e :: past) (w.attach a) where
  name_eq m := by
    rw [getElem?_attach, hname, apply_ite (Option.map _), h.name_eq, Option.map_some]
  root_eq m := by
    rw [getElem?_attach, hroot, apply_ite (Option.map _), h.root_eq, Option.map_some]
  root_lt {m root} hm := by
    rw [length_attach, Nat.lt_succ_iff]
    rw [hroot] at hm
    split at hm
    · exact Option.some.inj hm ▸ htable
    · exact (h.root_lt hm).le
  measurement_eq g := (h.measurement_eq g).trans (hmeasurement g).symm
  monitor_lt hs := by
    rw [length_attach]
    exact Nat.lt_succ_of_lt (h.monitor_lt ((hmeasurement _).symm.trans hs))
  unborn hlength := by
    rw [length_attach] at hlength
    exact (hrecords _).trans (h.unborn (Nat.le_of_succ_le hlength))
  table_eq root := by
    rw [hrecords]
    exact h.table_eq root

/-- No monitor feeds the table at a new address. -/
theorem start_eq (h : Follows past w) (name : String) :
    w.start name = w.attach ⟨.named name, w.monitors.length⟩ := by
  have hempty : w.tables w.monitors.length = .empty := by
    rw [h.table_eq, h.unborn le_rfl]
    rfl
  rw [start, ← hempty, Function.update_eq_self]

theorem derive_eq (h : Follows past w) (d : Derivation) {parent : Nat}
    (hthere : parent < w.monitors.length) :
    ∃ a : Attached, root? parent past = some a.table ∧ name? parent past = some a.monitor.name ∧
      w.derive d parent = w.attach ⟨d.of a.monitor, a.table⟩ := by
  obtain ⟨a, ha, hroot, hname⟩ := h.exists_attached hthere
  exact ⟨a, hroot, hname, by simp only [derive, ha]⟩

theorem started (h : Follows past w) (name : String) :
    Follows (.started name w.monitors.length :: past) (w.start name) := by
  rw [h.start_eq]
  -- a root has its own number for the address of its table
  refine h.attached (fun _ => rfl) (fun m => ?_) le_rfl (fun _ => rfl) fun _ => rfl
  rw [root?]
  split
  · next heq => rw [heq]
  · rfl

theorem derived (h : Follows past w) (d : Derivation) {parent : Nat}
    (hthere : parent < w.monitors.length) :
    Follows (.derived d parent w.monitors.length :: past) (w.derive d parent) := by
  obtain ⟨a, hroot, hname, hderive⟩ := h.derive_eq d hthere
  rw [hderive]
  refine h.attached (fun m => ?_) (fun m => ?_) (h.root_lt hroot).le (fun _ => rfl) fun _ => rfl
  · rw [name?, hname, Option.map_some, Derivation.of_name]
  · rw [root?, hroot]

/-- A call spells something only for the root of its monitor. -/
theorem spelled_unborn (h : Follows past w) (hroot : w.monitors.length ≤ root) (m : Nat)
    (scope : String) (elapsed : Elapsed) : spelled root past m scope elapsed = [] :=
  if_neg fun hm => absurd (h.root_lt hm) (Nat.not_lt.2 hroot)

theorem recorded (h : Follows past w) (hthere : m < w.monitors.length) (scope : String)
    (elapsed : Elapsed) :
    Follows (.recorded m scope elapsed :: past) (w.record m scope elapsed).1 where
  name_eq m := by rw [record_monitors]; exact h.name_eq m
  root_eq m := by rw [record_monitors]; exact h.root_eq m
  root_lt hm := by rw [record_monitors]; exact h.root_lt hm
  measurement_eq g := by rw [record_underWay]; exact h.measurement_eq g
  monitor_lt hs := by rw [record_monitors]; exact h.monitor_lt hs
  unborn hroot := by
    rw [record_monitors] at hroot
    rw [records, h.unborn hroot, h.spelled_unborn hroot]
    rfl
  table_eq := h.tables_record hthere scope elapsed

theorem measuring (h : Follows past w) (hthere : m < w.monitors.length) (scope : String) :
    Follows (.measuring m scope w.measurements :: past) (w.measure m scope) where
  name_eq := h.name_eq
  root_eq := h.root_eq
  root_lt := h.root_lt
  measurement_eq g := by
    simp only [measure, Function.update_apply, h.measurement_eq, measurement?, eq_comm]
  monitor_lt {g s} hs := by
    rw [measurement?] at hs
    split at hs
    · exact Option.some.inj hs ▸ hthere
    · exact h.monitor_lt hs
  unborn := h.unborn
  table_eq := h.table_eq

theorem measured (h : Follows past w) {g : Nat} {s : Measurement}
    (hs : measurement? g past = some s) (elapsed : Elapsed) :
    Follows (.measured g elapsed :: past) (w.finish g elapsed).1 := by
  -- apart from the measurement, which is gone, this is a call on its monitor
  have hrecorded := h.recorded (h.monitor_lt hs) s.scope elapsed
  have hrecords (root : Nat) : records root (.measured g elapsed :: past) =
      records root (.recorded s.monitor s.scope elapsed :: past) := by
    simp only [records, hs]
  rw [finish_eq ((h.measurement_eq g).trans hs)]
  refine ⟨hrecorded.name_eq, hrecorded.root_eq, hrecorded.root_lt, fun g' => ?_, fun hs' => ?_,
    fun hroot => (hrecords _).trans (hrecorded.unborn hroot),
    fun root => (hrecords root).symm ▸ hrecorded.table_eq root⟩
  · simp only [Function.update_apply, h.measurement_eq, measurement?, eq_comm]
  · rw [measurement?] at hs'
    split at hs'
    · cases hs'
    · exact hrecorded.monitor_lt hs'

/-- What a monitor of a family reports after a call on another one. -/
theorem mem_report_record (h : Follows past w) (hroot : root? m past = some root)
    (hname : name? m past = some name) (scope : String) (elapsed : Elapsed) {m' : Nat}
    {path : String} {s : ScopeTotal}
    (hother : root? m' past = some root → path ≠ name ++ "/" ++ scope) :
    (path, s) ∈ (w.record m scope elapsed).1.report m' ↔ (path, s) ∈ w.report m' := by
  have hthere := (h.there_iff m).2 (Option.isSome_of_eq_some hroot)
  cases ha : w.monitors[m']? with
  | none => simp only [report, record_monitors, ha]
  | some a =>
    obtain ⟨hlt, -⟩ := List.getElem?_eq_some_iff.1 ha
    obtain ⟨a', ha', hroot', -⟩ := h.exists_attached hlt
    obtain rfl := Option.some.inj (ha.symm.trans ha')
    simp only [report, record_monitors, ha, h.tables_record hthere, h.table_eq,
      spelled_eq hroot hname, Timings.mem_report_recordAll]
    split
    -- a monitor of the family, where the call is one of another path
    · next heq =>
      subst heq
      rw [Timings.timesOf_concat_of_ne (Ne.symm (hother hroot'))]
    · rw [List.append_nil]

theorem record_effect (h : Follows past w) (hroot : root? m past = some root)
    (hname : name? m past = some name) (scope : String) (elapsed : Elapsed) :
    Effect past w root (name ++ "/" ++ scope) elapsed (w.record m scope elapsed) := by
  refine ⟨?_, fun hother => h.mem_report_record hroot hname scope elapsed hother⟩
  obtain ⟨a, ha, hroot', hname'⟩ :=
    h.exists_attached ((h.there_iff m).2 (Option.isSome_of_eq_some hroot))
  obtain rfl := Option.some.inj (hroot.symm.trans hroot')
  obtain rfl := Option.some.inj (hname.symm.trans hname')
  rw [record_eq ha, h.table_eq]
  exact congrArg Prod.snd (Timings.record_recordAll ..)

theorem finish_effect (h : Follows past w) {g : Nat} {s : Measurement}
    (hs : measurement? g past = some s) (hroot : root? s.monitor past = some root)
    (hname : name? s.monitor past = some name) (elapsed : Elapsed) :
    Effect past w root (name ++ "/" ++ s.scope) elapsed (w.finish g elapsed) := by
  have heffect := h.record_effect hroot hname s.scope elapsed
  rw [finish_eq ((h.measurement_eq g).trans hs)]
  exact ⟨heffect.fault_eq, heffect.mem_report_iff⟩

theorem mem_report_iff (h : Follows past w) (hroot : root? m past = some root) {path : String}
    {s : ScopeTotal} :
    (path, s) ∈ w.report m ↔ Timings.timesOf path (records root past) ≠ [] ∧
      s = .ofTimes (Timings.timesOf path (records root past)) := by
  rw [h.report_eq hroot, Timings.mem_report_recordAll]

theorem accounts (h : Follows past w) : Accounts past w where
  there_iff := h.there_iff
  report_eq hroot hroot' := by rw [h.report_eq hroot, h.report_eq hroot']
  increasing m := by
    rw [report]
    split
    · exact .nil
    · exact SortedMap.pairwise_bytes_lt _
  occurs_iff hroot path := by
    constructor
    · intro hpath
      obtain ⟨⟨_, s⟩, hs, rfl⟩ := List.mem_map.1 hpath
      obtain ⟨e, he⟩ := List.exists_mem_of_ne_nil _ ((h.mem_report_iff hroot).1 hs).1
      exact ⟨e, Timings.mem_timesOf.1 he⟩
    · rintro ⟨e, he⟩
      have hcalled := List.ne_nil_of_mem (Timings.mem_timesOf.2 he)
      exact List.mem_map.2 ⟨_, (h.mem_report_iff hroot).2 ⟨hcalled, rfl⟩, rfl⟩
  calls_eq hroot path s hs := by
    obtain ⟨-, rfl⟩ := (h.mem_report_iff hroot).1 hs
    rfl
  total_eq hroot path s hs := by
    obtain ⟨-, rfl⟩ := (h.mem_report_iff hroot).1 hs
    rfl
  record hroot hname := h.record_effect hroot hname
  finish hs hroot hname := h.finish_effect hs hroot hname

end Follows

namespace Happened

variable {past : List Event} {w : Families}

theorem follows (h : Happened past w) : Follows past w := by
  induction h with
  | nothing => exact .nothing
  | start _ name ih => exact ih.started name
  | derive _ d _ hthere ih => exact ih.derived d hthere
  | record _ _ hthere scope elapsed ih => exact ih.recorded hthere scope elapsed
  | measure _ _ hthere scope ih => exact ih.measuring hthere scope
  | finish _ g hunderWay elapsed ih =>
    obtain ⟨s, hs⟩ := Option.isSome_iff_exists.1 hunderWay
    exact ih.measured ((ih.measurement_eq g).symm.trans hs) elapsed

/-- Reports are what the past says. -/
theorem adds_up (h : Happened past w) : Accounts past w :=
  h.follows.accounts

end Happened

/-- The shortest time there is. -/
def instant : Elapsed := ⟨1, by decide⟩

/-- Three monitors of a family spell one path, and the second call of it does not fit in. A monitor
of the same name has a family of its own. -/
def crossing : List Event :=
  [.recorded 4 "d" instant, .started "a" 4, .recorded 0 "d" instant, .measured 0 instant,
    .measuring 2 "b/c" 0, .recorded 3 "c" .longest, .derived .clone 1 3,
    .derived (.forTask 7) 0 2, .derived (.child "b") 0 1, .started "a" 0]

theorem adds_up_crossing : ∃ w, Happened crossing w ∧ Accounts crossing w ∧
    w.report 3 = [("a/b/c", ⟨2, .longest⟩), ("a/d", ⟨1, instant⟩)] ∧
    w.report 4 = [("a/d", ⟨1, instant⟩)] := by
  have hchild := (Happened.nothing.start "a").derive (.child "b") 0 (by decide)
  have hfamily := (hchild.derive (.forTask 7) 0 (by decide)).derive .clone 1 (by decide)
  have hfull := hfamily.record 3 (by decide) "c" .longest
  have hfault := (hfull.measure 2 (by decide) "b/c").finish 0 rfl instant
  have hmore := hfault.record 0 (by decide) "d" instant
  have hother := (hmore.start "a").record 4 (by decide) "d" instant
  exact ⟨_, hother, hother.adds_up, by decide, by decide⟩

end Families

end BatchRun.Monitor
