import Mathlib
import Emos.Lib.Checked
import Emos.Lib.SortedMap
import Emos.Process.Pcb
import Emos.Services.ProcessService

set_option autoImplicit false

/- The scheduler of process/scheduler.rs. It reads the process table and never writes it; it
   keeps its own current process, a time slice and a counter of switches. `sort_by` is a stable
   sort, and the stable sort of a list is unique, so insertion sort, which is stable, computes
   the same order. `sort_by` puts `a` before `b` when the comparison does not say Greater. -/
namespace Emos.Process

open Checked

def timeSlice : Nat := 100

inductive SchedulingAlgorithm where
  | roundRobin
  | priority
  | firstComeFirstServed
  | shortestJobFirst
deriving DecidableEq, Repr

-- The discriminants of the source's enum, which its derived `Ord` compares.
def ProcessPriority.rank : ProcessPriority → Nat
  | .low => 0
  | .normal => 1
  | .high => 2
  | .critical => 3

structure SchedulerStats where
  currentProcess : Option Nat
  timeSliceRemaining : Nat
  totalSwitches : Nat
  algorithm : SchedulingAlgorithm
deriving DecidableEq, Repr

structure ProcessScheduler where
  currentProcess : Option Nat
  timeSliceRemaining : Nat
  totalSwitches : Nat
  schedulingAlgorithm : SchedulingAlgorithm
deriving DecidableEq, Repr

namespace ProcessScheduler

def new : ProcessScheduler := ⟨none, timeSlice, 0, .roundRobin⟩

def setAlgorithm (self : ProcessScheduler) (algorithm : SchedulingAlgorithm) : ProcessScheduler :=
  { self with schedulingAlgorithm := algorithm }

def readyWith {α : Type} (processes : SortedMap Nat ProcessControlBlock) (key : ProcessControlBlock → α) :
    List (Nat × α) :=
  (processes.entries.filter fun entry => entry.2.state = .ready).map fun entry => (entry.1, key entry.2)

theorem mem_readyWith {α : Type} {processes : SortedMap Nat ProcessControlBlock} {key : ProcessControlBlock → α}
    {pid : Nat} {value : α} :
    (pid, value) ∈ readyWith processes key ↔
      ∃ pcb, processes.get? pid = some pcb ∧ pcb.state = .ready ∧ value = key pcb := by
  simp only [readyWith, List.mem_map, List.mem_filter, SortedMap.get?_eq_some_iff, decide_eq_true_eq,
    Prod.mk.injEq]
  constructor
  · rintro ⟨⟨key', pcb⟩, ⟨member, ready⟩, rfl, rfl⟩
    exact ⟨pcb, member, ready, rfl⟩
  · rintro ⟨pcb, member, ready, rfl⟩
    exact ⟨(pid, pcb), ⟨member, ready⟩, rfl, rfl⟩

def switchTo (self : ProcessScheduler) (nextPid : Nat) : ProcessScheduler :=
  { self with currentProcess := some nextPid, timeSliceRemaining := timeSlice,
              totalSwitches := wrappingAdd 64 self.totalSwitches 1 }

def scheduleRoundRobin (self : ProcessScheduler) (processes : SortedMap Nat ProcessControlBlock) :
    Option Nat × ProcessScheduler :=
  match (readyWith processes fun _ => ()).map Prod.fst with
  | [] => (none, self)
  | first :: rest =>
      let nextPid := Emos.Services.ProcessService.nextReady (first :: rest) first self.currentProcess
      (some nextPid, self.switchTo nextPid)

-- Priority, first-come-first-served and shortest-job-first differ only in the value they sort
-- by and the direction; each takes the first process of the sorted list.
def scheduleSorted {α : Type} (self : ProcessScheduler) (processes : SortedMap Nat ProcessControlBlock)
    (key : ProcessControlBlock → α) (before : α → α → Prop) [DecidableRel before] : Option Nat × ProcessScheduler :=
  match (readyWith processes key).insertionSort (fun a b => before a.2 b.2) with
  | [] => (none, self)
  | (nextPid, _) :: _ => (some nextPid, self.switchTo nextPid)

theorem scheduleSorted_eq_some {α : Type} {self self' : ProcessScheduler} {processes : SortedMap Nat ProcessControlBlock}
    {key : ProcessControlBlock → α} {before : α → α → Prop} [DecidableRel before] {next : Nat}
    (total : ∀ a b, before a b ∨ before b a) (trans : ∀ a b c, before a b → before b c → before a c)
    (scheduled : self.scheduleSorted processes key before = (some next, self')) :
    self' = self.switchTo next ∧ ∃ pcb, processes.get? next = some pcb ∧ pcb.state = .ready ∧
      ∀ pid other, processes.get? pid = some other → other.state = .ready → before (key pcb) (key other) := by
  have : Std.Total (fun a b : Nat × α => before a.2 b.2) := ⟨fun a b => total a.2 b.2⟩
  have : IsTrans (Nat × α) (fun a b => before a.2 b.2) := ⟨fun a b c => trans a.2 b.2 c.2⟩
  have sorted := List.pairwise_insertionSort (fun a b : Nat × α => before a.2 b.2) (readyWith processes key)
  unfold scheduleSorted at scheduled
  split at scheduled
  · cases scheduled
  · rename_i pid value rest listed
    simp only [Prod.mk.injEq, Option.some.injEq] at scheduled
    obtain ⟨chosen, rfl⟩ := scheduled
    subst chosen
    have first : (pid, value) ∈ readyWith processes key := by
      rw [← List.mem_insertionSort (fun a b : Nat × α => before a.2 b.2), listed]
      exact List.mem_cons_self
    obtain ⟨pcb, found, ready, rfl⟩ := mem_readyWith.mp first
    refine ⟨rfl, pcb, found, ready, fun pid other present otherReady => ?_⟩
    have member : (pid, key other) ∈ (readyWith processes key).insertionSort fun a b => before a.2 b.2 :=
      (List.mem_insertionSort _).mpr (mem_readyWith.mpr ⟨other, present, otherReady, rfl⟩)
    rw [listed] at sorted member
    rcases List.mem_cons.mp member with same | later
    · -- the chosen process compared with itself
      rw [Prod.mk.injEq] at same
      rw [same.2]
      rcases total (key pcb) (key pcb) with reflexive | reflexive <;> exact reflexive
    · exact List.rel_of_pairwise_cons sorted later

theorem readyWith_pairwise {α : Type} (processes : SortedMap Nat ProcessControlBlock) (key : ProcessControlBlock → α) :
    (readyWith processes key).Pairwise (fun a b => a.1 < b.1) := by
  unfold readyWith
  rw [List.pairwise_map]
  exact processes.sorted.filter _

theorem pair_sublist_of_lt {α : Type} {entries : List (Nat × α)} (sorted : entries.Pairwise (fun a b => a.1 < b.1))
    {a b : Nat × α} (first : a ∈ entries) (second : b ∈ entries) (lt : a.1 < b.1) : List.Sublist [a, b] entries := by
  induction entries with
  | nil => cases first
  | cons entry entries ih =>
      obtain ⟨head, tail⟩ := List.pairwise_cons.mp sorted
      rcases List.mem_cons.mp first with rfl | firstLater
      · rcases List.mem_cons.mp second with rfl | secondLater
        · exact absurd lt (Nat.lt_irrefl _)
        · exact (List.singleton_sublist.mpr secondLater).cons_cons a
      · rcases List.mem_cons.mp second with rfl | secondLater
        · exact absurd (head a firstLater) (by omega)
        · exact (ih tail firstLater secondLater).cons entry

theorem scheduleSorted_smallest_pid {α : Type} {self self' : ProcessScheduler}
    {processes : SortedMap Nat ProcessControlBlock} {key : ProcessControlBlock → α} {before : α → α → Prop}
    [DecidableRel before] {next : Nat} (total : ∀ a b, before a b ∨ before b a)
    (trans : ∀ a b c, before a b → before b c → before a c)
    (scheduled : self.scheduleSorted processes key before = (some next, self'))
    {pcb : ProcessControlBlock} (found : processes.get? next = some pcb) {pid : Nat} {other : ProcessControlBlock}
    (present : processes.get? pid = some other) (otherReady : other.state = .ready)
    (tied : before (key other) (key pcb)) : next ≤ pid := by
  have : Std.Total (fun a b : Nat × α => before a.2 b.2) := ⟨fun a b => total a.2 b.2⟩
  have : IsTrans (Nat × α) (fun a b => before a.2 b.2) := ⟨fun a b c => trans a.2 b.2 c.2⟩
  have distinct : (readyWith processes key).Nodup :=
    (readyWith_pairwise processes key).imp fun earlier same => by subst same; exact Nat.lt_irrefl _ earlier
  unfold scheduleSorted at scheduled
  split at scheduled
  · cases scheduled
  · rename_i chosen value rest listed
    simp only [Prod.mk.injEq, Option.some.injEq] at scheduled
    obtain ⟨rfl, -⟩ := scheduled
    have chosenMember : (chosen, value) ∈ readyWith processes key := by
      rw [← List.mem_insertionSort (fun a b : Nat × α => before a.2 b.2), listed]
      exact List.mem_cons_self
    obtain ⟨pcb', found', -, rfl⟩ := mem_readyWith.mp chosenMember
    obtain rfl : pcb' = pcb := Option.some.inj (found'.symm.trans found)
    by_contra later
    have kept := @List.pair_sublist_insertionSort (Nat × α) (fun a b => before a.2 b.2) _ (pid, key other)
      (chosen, key pcb') _ tied (pair_sublist_of_lt (readyWith_pairwise processes key) (mem_readyWith.mpr ⟨other, present, otherReady, rfl⟩)
        chosenMember (by simp only; omega))
    have sortedDistinct := (List.perm_insertionSort (fun a b : Nat × α => before a.2 b.2) _).nodup_iff.mpr distinct
    rw [listed] at kept sortedDistinct
    have once := (List.nodup_cons.mp sortedDistinct).1
    rcases List.sublist_cons_iff.mp kept with inRest | ⟨tail, same, inTail⟩
    · exact once (inRest.subset (by simp))
    · simp only [List.cons.injEq, Prod.mk.injEq] at same
      omega

def schedulePriority (self : ProcessScheduler) (processes : SortedMap Nat ProcessControlBlock) :
    Option Nat × ProcessScheduler :=
  self.scheduleSorted processes (fun pcb => pcb.priority.rank) fun a b => b ≤ a

def scheduleFcfs (self : ProcessScheduler) (processes : SortedMap Nat ProcessControlBlock) :
    Option Nat × ProcessScheduler :=
  self.scheduleSorted processes ProcessControlBlock.creationTime fun a b => a ≤ b

def scheduleSjf (self : ProcessScheduler) (processes : SortedMap Nat ProcessControlBlock) :
    Option Nat × ProcessScheduler :=
  self.scheduleSorted processes ProcessControlBlock.memoryUsage fun a b => a ≤ b

def scheduleNext (self : ProcessScheduler) (processes : SortedMap Nat ProcessControlBlock) :
    Option Nat × ProcessScheduler :=
  match self.schedulingAlgorithm with
  | .roundRobin => self.scheduleRoundRobin processes
  | .priority => self.schedulePriority processes
  | .firstComeFirstServed => self.scheduleFcfs processes
  | .shortestJobFirst => self.scheduleSjf processes

theorem scheduleSorted_switches {α : Type} {self self' : ProcessScheduler}
    {processes : SortedMap Nat ProcessControlBlock} {key : ProcessControlBlock → α} {before : α → α → Prop}
    [DecidableRel before] {next : Nat} (scheduled : self.scheduleSorted processes key before = (some next, self')) :
    self' = self.switchTo next := by
  unfold scheduleSorted at scheduled
  split at scheduled
  · cases scheduled
  · simp only [Prod.mk.injEq, Option.some.injEq] at scheduled
    obtain ⟨rfl, rfl⟩ := scheduled
    rfl

theorem scheduleNext_switches {self self' : ProcessScheduler} {processes : SortedMap Nat ProcessControlBlock}
    {next : Nat} (scheduled : self.scheduleNext processes = (some next, self')) : self' = self.switchTo next := by
  unfold scheduleNext at scheduled
  split at scheduled
  · unfold scheduleRoundRobin at scheduled
    split at scheduled
    · cases scheduled
    · simp only [Prod.mk.injEq, Option.some.injEq] at scheduled
      obtain ⟨rfl, rfl⟩ := scheduled
      rfl
  · exact scheduleSorted_switches scheduled
  · exact scheduleSorted_switches scheduled
  · exact scheduleSorted_switches scheduled

-- What each algorithm prefers in the process it picks; round robin takes turns and prefers none.
def ComesFirst : SchedulingAlgorithm → ProcessControlBlock → ProcessControlBlock → Prop
  | .roundRobin, _, _ => True
  | .priority, pcb, other => other.priority.rank ≤ pcb.priority.rank
  | .firstComeFirstServed, pcb, other => pcb.creationTime ≤ other.creationTime
  | .shortestJobFirst, pcb, other => pcb.memoryUsage ≤ other.memoryUsage

theorem scheduleRoundRobin_ready {self self' : ProcessScheduler} {processes : SortedMap Nat ProcessControlBlock}
    {next : Nat} (scheduled : self.scheduleRoundRobin processes = (some next, self')) :
    ∃ pcb, processes.get? next = some pcb ∧ pcb.state = .ready := by
  unfold scheduleRoundRobin at scheduled
  split at scheduled
  · cases scheduled
  · rename_i first rest listed
    simp only [Prod.mk.injEq, Option.some.injEq] at scheduled
    have chosen := Emos.Services.ProcessService.nextReady_mem self.currentProcess
      (List.mem_cons_self : first ∈ first :: rest)
    rw [scheduled.1, ← listed, List.mem_map] at chosen
    obtain ⟨⟨pid, _⟩, member, rfl⟩ := chosen
    obtain ⟨pcb, found, ready, -⟩ := mem_readyWith.mp member
    exact ⟨pcb, found, ready⟩

theorem scheduleSorted_first {α : Type} [LinearOrder α] {self self' : ProcessScheduler}
    {processes : SortedMap Nat ProcessControlBlock} {key : ProcessControlBlock → α} {next : Nat}
    (scheduled : self.scheduleSorted processes key (· ≤ ·) = (some next, self')) :
    ∃ pcb, processes.get? next = some pcb ∧ pcb.state = .ready ∧
      ∀ pid other, processes.get? pid = some other → other.state = .ready → key pcb ≤ key other :=
  (scheduleSorted_eq_some le_total (fun _ _ _ => le_trans) scheduled).2

theorem scheduleSorted_last {α : Type} [LinearOrder α] {self self' : ProcessScheduler}
    {processes : SortedMap Nat ProcessControlBlock} {key : ProcessControlBlock → α} {next : Nat}
    (scheduled : self.scheduleSorted processes key (fun a b => b ≤ a) = (some next, self')) :
    ∃ pcb, processes.get? next = some pcb ∧ pcb.state = .ready ∧
      ∀ pid other, processes.get? pid = some other → other.state = .ready → key other ≤ key pcb :=
  (scheduleSorted_eq_some (fun a b => le_total b a) (fun _ _ _ first second => le_trans second first) scheduled).2

theorem scheduled_process_comes_first {self self' : ProcessScheduler} {processes : SortedMap Nat ProcessControlBlock}
    {next : Nat} (scheduled : self.scheduleNext processes = (some next, self')) :
    ∃ pcb, processes.get? next = some pcb ∧ pcb.state = .ready ∧
      ∀ pid other, processes.get? pid = some other → other.state = .ready →
        ComesFirst self.schedulingAlgorithm pcb other := by
  unfold scheduleNext at scheduled
  split at scheduled
  case h_1 algorithm =>
    obtain ⟨pcb, found, ready⟩ := scheduleRoundRobin_ready scheduled
    exact ⟨pcb, found, ready, fun _ _ _ _ => by rw [algorithm]; trivial⟩
  case h_2 algorithm =>
    obtain ⟨pcb, found, ready, highest⟩ := scheduleSorted_last scheduled
    exact ⟨pcb, found, ready, fun pid other present otherReady => by
      rw [algorithm]; exact highest pid other present otherReady⟩
  case h_3 algorithm =>
    obtain ⟨pcb, found, ready, oldest⟩ := scheduleSorted_first scheduled
    exact ⟨pcb, found, ready, fun pid other present otherReady => by
      rw [algorithm]; exact oldest pid other present otherReady⟩
  case h_4 algorithm =>
    obtain ⟨pcb, found, ready, smallest⟩ := scheduleSorted_first scheduled
    exact ⟨pcb, found, ready, fun pid other present otherReady => by
      rw [algorithm]; exact smallest pid other present otherReady⟩

-- Of a normal process and a later high one, the priority scheduler runs the high one.
example :
    let processes : SortedMap Nat ProcessControlBlock :=
      (SortedMap.empty.insert 1 ⟨1, some 0, "a", .ready, .normal, 0, 4096, 0, 8192, none, 0, 0, 12288⟩).insert 2
        ⟨2, some 0, "b", .ready, .high, 0, 4096, 0, 8192, none, 5, 0, 12288⟩
    ((new.setAlgorithm .priority).scheduleNext processes).1 = some 2 := by
  decide

def shouldPreempt (self : ProcessScheduler) : Bool := self.timeSliceRemaining == 0

def tick (self : ProcessScheduler) : ProcessScheduler :=
  if self.timeSliceRemaining > 0 then { self with timeSliceRemaining := self.timeSliceRemaining - 1 } else self

theorem tick_iterate (self : ProcessScheduler) (ticks : Nat) :
    tick^[ticks] self = { self with timeSliceRemaining := self.timeSliceRemaining - ticks } := by
  induction ticks generalizing self with
  | zero => rfl
  | succ ticks ih =>
      rw [Function.iterate_succ_apply, ih]
      unfold tick
      split
      · simp only [Nat.sub_sub, Nat.add_comm 1 ticks]
      · rename_i spent
        simp only [Nat.not_lt, Nat.le_zero] at spent
        simp [spent]

def getCurrentProcess (self : ProcessScheduler) : Option Nat := self.currentProcess

def getTotalSwitches (self : ProcessScheduler) : Nat := self.totalSwitches

def resetTimeSlice (self : ProcessScheduler) : ProcessScheduler := { self with timeSliceRemaining := timeSlice }

def forceSwitch (self : ProcessScheduler) : ProcessScheduler := { self with timeSliceRemaining := 0 }

def getStats (self : ProcessScheduler) : SchedulerStats :=
  ⟨self.currentProcess, self.timeSliceRemaining, self.getTotalSwitches, self.schedulingAlgorithm⟩

theorem preempted_after_time_slice {self self' : ProcessScheduler} {processes : SortedMap Nat ProcessControlBlock}
    {next : Nat} (scheduled : self.scheduleNext processes = (some next, self')) (ticks : Nat) :
    (tick^[ticks] self').shouldPreempt = true ↔ timeSlice ≤ ticks := by
  rw [scheduleNext_switches scheduled, tick_iterate]
  simp only [shouldPreempt, switchTo, beq_iff_eq]
  omega

theorem fresh_scheduler_preempted_after_hundred_ticks :
    let processes : SortedMap Nat ProcessControlBlock :=
      SortedMap.empty.insert 1 ⟨1, some 0, "p", .ready, .normal, 0, 4096, 0, 8192, none, 0, 0, 12288⟩
    ∃ self', new.scheduleNext processes = (some 1, self') ∧ (tick^[100] self').shouldPreempt = true ∧
      (tick^[99] self').shouldPreempt = false := by
  intro processes
  obtain ⟨self', scheduled⟩ : ∃ self', new.scheduleNext processes = (some 1, self') := ⟨_, rfl⟩
  have preempted := preempted_after_time_slice scheduled
  refine ⟨self', scheduled, (preempted 100).mpr (by decide), ?_⟩
  cases waiting : (tick^[99] self').shouldPreempt with
  | false => rfl
  | true => exact absurd ((preempted 99).mp waiting) (by decide)

section Choice

theorem readyWith_eq_nil_iff {α : Type} (processes : SortedMap Nat ProcessControlBlock) (key : ProcessControlBlock → α) :
    readyWith processes key = [] ↔ ∀ pid pcb, processes.get? pid = some pcb → pcb.state ≠ .ready := by
  rw [List.eq_nil_iff_forall_not_mem]
  constructor
  · intro none pid pcb found ready
    exact none (pid, key pcb) (mem_readyWith.mpr ⟨pcb, found, ready, rfl⟩)
  · rintro none ⟨pid, value⟩ member
    obtain ⟨pcb, found, ready, -⟩ := mem_readyWith.mp member
    exact none pid pcb found ready

theorem scheduleSorted_fst_eq_none_iff {α : Type} (self : ProcessScheduler) (processes : SortedMap Nat ProcessControlBlock)
    (key : ProcessControlBlock → α) (before : α → α → Prop) [DecidableRel before] :
    (self.scheduleSorted processes key before).1 = none ↔ readyWith processes key = [] := by
  have sorted := List.perm_insertionSort (fun a b : Nat × α => before a.2 b.2) (readyWith processes key)
  unfold scheduleSorted
  split
  · rename_i empty
    rw [empty] at sorted
    simp [sorted.nil_eq]
  · rename_i listed
    rw [listed] at sorted
    simp only [reduceCtorEq, false_iff]
    intro empty
    rw [empty] at sorted
    exact List.cons_ne_nil _ _ sorted.eq_nil

theorem scheduleNext_eq_none_iff (self : ProcessScheduler) (processes : SortedMap Nat ProcessControlBlock) :
    (self.scheduleNext processes).1 = none ↔ ∀ pid pcb, processes.get? pid = some pcb → pcb.state ≠ .ready := by
  unfold scheduleNext
  split
  · rw [← readyWith_eq_nil_iff processes fun _ => ()]
    unfold scheduleRoundRobin
    split
    · rename_i empty
      simp only [List.map_eq_nil_iff] at empty
      simp [empty]
    · rename_i listed
      simp only [reduceCtorEq, false_iff]
      intro empty
      simp [empty] at listed
  all_goals
    rw [← readyWith_eq_nil_iff processes]
    exact scheduleSorted_fst_eq_none_iff _ _ _ _

theorem scheduleNext_smallest_pid {self self' : ProcessScheduler} {processes : SortedMap Nat ProcessControlBlock}
    {next : Nat} (scheduled : self.scheduleNext processes = (some next, self'))
    (sorting : self.schedulingAlgorithm ≠ .roundRobin) {pcb : ProcessControlBlock} (found : processes.get? next = some pcb)
    {pid : Nat} {other : ProcessControlBlock} (present : processes.get? pid = some other)
    (otherReady : other.state = .ready) (tied : ComesFirst self.schedulingAlgorithm other pcb) : next ≤ pid := by
  unfold scheduleNext at scheduled
  split at scheduled
  case h_1 algorithm => exact absurd algorithm sorting
  case h_2 algorithm =>
    rw [algorithm] at tied
    exact scheduleSorted_smallest_pid (fun a b => le_total b a) (fun _ _ _ first second => le_trans second first)
      scheduled found present otherReady tied
  case h_3 algorithm =>
    rw [algorithm] at tied
    exact scheduleSorted_smallest_pid le_total (fun _ _ _ => le_trans) scheduled found present otherReady tied
  case h_4 algorithm =>
    rw [algorithm] at tied
    exact scheduleSorted_smallest_pid le_total (fun _ _ _ => le_trans) scheduled found present otherReady tied

end Choice

section RoundRobin

def readyPids (processes : SortedMap Nat ProcessControlBlock) : List Nat :=
  (readyWith processes fun _ => ()).map Prod.fst

theorem readyPids_pairwise (processes : SortedMap Nat ProcessControlBlock) : (readyPids processes).Pairwise (· < ·) :=
  List.pairwise_map.mpr (readyWith_pairwise processes _)

theorem mem_readyPids {processes : SortedMap Nat ProcessControlBlock} {pid : Nat} :
    pid ∈ readyPids processes ↔ ∃ pcb, processes.get? pid = some pcb ∧ pcb.state = .ready := by
  simp only [readyPids, List.mem_map, Prod.exists, exists_and_right, exists_eq_right]
  constructor
  · rintro ⟨_, member⟩
    obtain ⟨pcb, found, ready, -⟩ := mem_readyWith.mp member
    exact ⟨pcb, found, ready⟩
  · rintro ⟨pcb, found, ready⟩
    exact ⟨(), mem_readyWith.mpr ⟨pcb, found, ready, rfl⟩⟩

theorem nextReady_getElem {ready : List Nat} (distinct : ready.Nodup) {i : Nat} (inside : i < ready.length)
    (first : Nat) :
    Emos.Services.ProcessService.nextReady ready first (some ready[i]) = ready.getD ((i + 1) % ready.length) first := by
  have found : ready.findIdx? (· == ready[i]) = some i := by
    rw [List.findIdx?_eq_some_iff_getElem]
    refine ⟨inside, by simp, fun j earlier same => ?_⟩
    simp only [beq_iff_eq] at same
    exact absurd ((distinct.getElem_inj_iff).mp same) (by omega)
  simp [Emos.Services.ProcessService.nextReady, found]

theorem scheduleNext_roundRobin_cons {self : ProcessScheduler} {processes : SortedMap Nat ProcessControlBlock}
    (algorithm : self.schedulingAlgorithm = .roundRobin) {first : Nat} {rest : List Nat}
    (listed : readyPids processes = first :: rest) :
    self.scheduleNext processes =
      (some (Emos.Services.ProcessService.nextReady (first :: rest) first self.currentProcess),
        self.switchTo (Emos.Services.ProcessService.nextReady (first :: rest) first self.currentProcess)) := by
  simp only [scheduleNext, algorithm, scheduleRoundRobin]
  rw [show (readyWith processes fun _ => ()).map Prod.fst = readyPids processes from rfl, listed]

def scheduleCalls (processes : SortedMap Nat ProcessControlBlock) : Nat → ProcessScheduler → List (Option Nat)
  | 0, _ => []
  | n + 1, self => (self.scheduleNext processes).1 :: scheduleCalls processes n (self.scheduleNext processes).2

theorem scheduleNext_roundRobin {self : ProcessScheduler} {processes : SortedMap Nat ProcessControlBlock}
    (algorithm : self.schedulingAlgorithm = .roundRobin) {i : Nat} (inside : i < (readyPids processes).length)
    (current : self.currentProcess = some (readyPids processes)[i]) :
    self.scheduleNext processes =
      (some ((readyPids processes).getD ((i + 1) % (readyPids processes).length) 0),
        self.switchTo ((readyPids processes).getD ((i + 1) % (readyPids processes).length) 0)) := by
  have distinct : (readyPids processes).Nodup := (readyPids_pairwise processes).imp Nat.ne_of_lt
  obtain ⟨first, rest, listed⟩ : ∃ first rest, readyPids processes = first :: rest :=
    List.exists_cons_of_ne_nil (List.ne_nil_of_length_pos (by omega))
  have chosen := nextReady_getElem distinct inside first
  have anyDefault : (readyPids processes).getD ((i + 1) % (readyPids processes).length) first =
      (readyPids processes).getD ((i + 1) % (readyPids processes).length) 0 := by
    rw [List.getD_eq_getElem _ _ (Nat.mod_lt _ (by omega)), List.getD_eq_getElem _ _ (Nat.mod_lt _ (by omega))]
  rw [scheduleNext_roundRobin_cons algorithm listed, current]
  simp only [listed] at chosen anyDefault ⊢
  rw [← anyDefault, ← chosen]

theorem scheduleCalls_from_index (processes : SortedMap Nat ProcessControlBlock) (calls : Nat) :
    ∀ (self : ProcessScheduler) (i : Nat) (inside : i < (readyPids processes).length),
      self.schedulingAlgorithm = .roundRobin → self.currentProcess = some (readyPids processes)[i] →
      scheduleCalls processes calls self =
        (List.range calls).map fun j =>
          some ((readyPids processes).getD ((i + 1 + j) % (readyPids processes).length) 0) := by
  induction calls with
  | zero => intro _ _ _ _ _; rfl
  | succ calls ih =>
      intro self i inside algorithm current
      have next : (i + 1) % (readyPids processes).length < (readyPids processes).length := Nat.mod_lt _ (by omega)
      have moved := ih (self.switchTo ((readyPids processes).getD ((i + 1) % (readyPids processes).length) 0))
        ((i + 1) % (readyPids processes).length) next algorithm
        (by rw [List.getD_eq_getElem _ _ next]; rfl)
      rw [scheduleCalls, scheduleNext_roundRobin algorithm inside current, moved, List.range_succ_eq_map,
        List.map_cons, List.map_map]
      congr 1
      apply List.map_congr_left
      intro j _
      have wrapped : ((i + 1) % (readyPids processes).length + 1 + j) % (readyPids processes).length =
          (i + 1 + (j + 1)) % (readyPids processes).length := by
        rw [Nat.add_assoc, Nat.mod_add_mod, Nat.add_comm 1 j]
      simp only [Function.comp_apply, wrapped]

theorem range_map_getD_eq_rotate (ready : List Nat) (start : Nat) :
    (List.range ready.length).map (fun j => some (ready.getD ((start + j) % ready.length) 0)) =
      (ready.rotate start).map some := by
  apply List.ext_getElem (by simp)
  intro j inRange inRotated
  have inside : j < ready.length := by simpa using inRange
  have wrapped : (j + start) % ready.length < ready.length := Nat.mod_lt _ (by omega)
  simp only [List.getElem_map, List.getElem_range, List.getElem_rotate, Nat.add_comm start j,
    List.getD_eq_getElem _ _ wrapped]

theorem scheduleCalls_roundRobin (processes : SortedMap Nat ProcessControlBlock) {self : ProcessScheduler}
    (algorithm : self.schedulingAlgorithm = .roundRobin) :
    ∃ k, scheduleCalls processes (readyPids processes).length self = ((readyPids processes).rotate k).map some := by
  cases calls : (readyPids processes).length with
  | zero =>
      rw [List.length_eq_zero_iff] at calls
      exact ⟨0, by simp [scheduleCalls, calls]⟩
  | succ rest =>
      have chosen : ∃ start, ∃ inside : start < (readyPids processes).length,
          self.scheduleNext processes = (some (readyPids processes)[start], self.switchTo (readyPids processes)[start]) := by
        obtain ⟨first, others, listed⟩ : ∃ first others, readyPids processes = first :: others :=
          List.exists_cons_of_ne_nil (List.ne_nil_of_length_pos (by omega))
        have member := Emos.Services.ProcessService.nextReady_mem self.currentProcess
          (List.mem_cons_self : first ∈ first :: others)
        rw [← listed] at member
        obtain ⟨start, inside, same⟩ := List.mem_iff_getElem.mp member
        refine ⟨start, inside, ?_⟩
        rw [same, listed]
        exact scheduleNext_roundRobin_cons algorithm listed
      obtain ⟨start, inside, first⟩ := chosen
      refine ⟨start, ?_⟩
      have later := scheduleCalls_from_index processes rest (self.switchTo (readyPids processes)[start]) start inside
        algorithm rfl
      rw [← range_map_getD_eq_rotate]
      calc scheduleCalls processes (rest + 1) self
          = some (readyPids processes)[start] ::
              scheduleCalls processes rest (self.switchTo (readyPids processes)[start]) := by
            rw [scheduleCalls, first]
        _ = (List.range (rest + 1)).map
              (fun j => some ((readyPids processes).getD ((start + j) % (readyPids processes).length) 0)) := by
            rw [later, List.range_succ_eq_map, List.map_cons, List.map_map]
            congr 1
            · rw [Nat.add_zero, Nat.mod_eq_of_lt inside, List.getD_eq_getElem _ _ inside]
            · apply List.map_congr_left
              intro j _
              simp only [Function.comp_apply, Nat.add_assoc, Nat.add_comm 1 j]
        _ = (List.range (readyPids processes).length).map
              (fun j => some ((readyPids processes).getD ((start + j) % (readyPids processes).length) 0)) := by
            rw [← calls]

-- Priority, FCFS and SJF break ties by the smallest pid; round robin on an unchanged table returns
-- each Ready pid once per round, in ascending order.
theorem schedule_next_picks_ready_and_cycles :
    (∀ (self : ProcessScheduler) (processes : SortedMap Nat ProcessControlBlock),
      ((self.scheduleNext processes).1 = none ↔ ∀ pid pcb, processes.get? pid = some pcb → pcb.state ≠ .ready) ∧
      ∀ next, (self.scheduleNext processes).1 = some next →
        (self.scheduleNext processes).2.timeSliceRemaining = timeSlice ∧
        (self.scheduleNext processes).2.totalSwitches = wrappingAdd 64 self.totalSwitches 1 ∧
        (self.scheduleNext processes).2.currentProcess = some next ∧
        ∃ pcb, processes.get? next = some pcb ∧ pcb.state = .ready ∧
          ∀ pid other, processes.get? pid = some other → other.state = .ready →
            ComesFirst self.schedulingAlgorithm pcb other ∧
            (self.schedulingAlgorithm ≠ .roundRobin → ComesFirst self.schedulingAlgorithm other pcb → next ≤ pid)) ∧
    ∀ (self : ProcessScheduler) (processes : SortedMap Nat ProcessControlBlock) (ready : List Nat),
      self.schedulingAlgorithm = .roundRobin → ready.Pairwise (· < ·) →
      (∀ pid, pid ∈ ready ↔ ∃ pcb, processes.get? pid = some pcb ∧ pcb.state = .ready) →
      ∃ k, scheduleCalls processes ready.length self = (ready.rotate k).map some := by
  refine ⟨fun self processes => ⟨scheduleNext_eq_none_iff self processes, fun next scheduled => ?_⟩,
    fun self processes ready algorithm sorted members => ?_⟩
  · have pair : self.scheduleNext processes = (some next, (self.scheduleNext processes).2) := Prod.ext scheduled rfl
    have switched := scheduleNext_switches pair
    obtain ⟨pcb, found, isReady, best⟩ := scheduled_process_comes_first pair
    refine ⟨by rw [switched]; rfl, by rw [switched]; rfl, by rw [switched]; rfl, pcb, found, isReady,
      fun pid other present otherReady => ⟨best pid other present otherReady, fun sorting tied => ?_⟩⟩
    exact scheduleNext_smallest_pid pair sorting found present otherReady tied
  · -- an ascending list of the Ready pids is the one round robin walks through
    have distinct : ready.Nodup := sorted.imp Nat.ne_of_lt
    have same : ready = readyPids processes := by
      refine List.Perm.eq_of_pairwise (fun a b _ _ lt gt => absurd (lt.trans gt) (Nat.lt_irrefl a)) sorted
        (readyPids_pairwise processes) ?_
      exact (List.perm_ext_iff_of_nodup distinct ((readyPids_pairwise processes).imp Nat.ne_of_lt)).mpr
        fun pid => (members pid).trans mem_readyPids.symm
    subst same
    exact scheduleCalls_roundRobin processes algorithm

theorem round_robin_three_ready :
    let processes : SortedMap Nat ProcessControlBlock :=
      ((SortedMap.empty.insert 1 ⟨1, some 0, "a", .ready, .normal, 0, 4096, 0, 8192, none, 0, 0, 12288⟩).insert 2
        ⟨2, some 0, "b", .ready, .normal, 0, 4096, 0, 8192, none, 0, 0, 12288⟩).insert 3
          ⟨3, some 0, "c", .ready, .normal, 0, 4096, 0, 8192, none, 0, 0, 12288⟩
    new.schedulingAlgorithm = .roundRobin ∧ [1, 2, 3].Pairwise (· < ·) ∧
      (∀ pid, pid ∈ [1, 2, 3] ↔ ∃ pcb, processes.get? pid = some pcb ∧ pcb.state = .ready) ∧
      ∃ k, scheduleCalls processes [1, 2, 3].length new = ([1, 2, 3].rotate k).map some := by
  intro processes
  have listed : readyPids processes = [1, 2, 3] := by decide
  have members : ∀ pid, pid ∈ [1, 2, 3] ↔ ∃ pcb, processes.get? pid = some pcb ∧ pcb.state = .ready :=
    fun pid => listed ▸ mem_readyPids
  exact ⟨rfl, by decide, members, schedule_next_picks_ready_and_cycles.2 new processes [1, 2, 3] rfl (by decide) members⟩

end RoundRobin

end ProcessScheduler

end Emos.Process
