import Mathlib
import Emos.Lib.Checked
import Emos.Lib.SortedMap
import Emos.Lib.VirtAddr

set_option autoImplicit false

/- Process control blocks, the `ProcessManager` of process/pcb.rs and the `ContextManager` of
   process/context.rs. A PCB keeps the fields some method reads; the register file, page table,
   capabilities, open files and working directory are written with constants and never read
   back (`set_registers` ignores what it is given), so they are left out. -/
namespace Emos.Process

open Checked

inductive ProcessState where
  | running
  | ready
  | blocked
  | terminated
  | zombie
deriving DecidableEq, Repr

inductive ProcessPriority where
  | low
  | normal
  | high
  | critical
deriving DecidableEq, Repr

inductive ProcessError where
  | processNotFound
  | processAlreadyExists
  | noCurrentProcess
  | processNotBlocked
  | insufficientMemory
  | invalidProcessId
  | permissionDenied
deriving DecidableEq, Repr

structure ProcessControlBlock where
  pid : Nat
  parentPid : Option Nat
  name : String
  state : ProcessState
  priority : ProcessPriority
  stackPointer : Nat
  stackSize : Nat
  heapStart : Nat
  heapSize : Nat
  exitCode : Option Int
  creationTime : Nat
  cpuTime : Nat
  memoryUsage : Nat
deriving DecidableEq, Repr

namespace ProcessControlBlock

def setState (state : ProcessState) (pcb : ProcessControlBlock) : ProcessControlBlock :=
  { pcb with state := state }

def terminate (exitCode : Int) (pcb : ProcessControlBlock) : ProcessControlBlock :=
  { pcb with state := .terminated, exitCode := some exitCode }

def setPriority (priority : ProcessPriority) (pcb : ProcessControlBlock) : ProcessControlBlock :=
  { pcb with priority := priority }

def setCpuTime (cpuTime : Nat) (pcb : ProcessControlBlock) : ProcessControlBlock :=
  { pcb with cpuTime := cpuTime }

@[simp] theorem setState_state (state : ProcessState) (pcb : ProcessControlBlock) : (pcb.setState state).state = state :=
  rfl
@[simp] theorem terminate_state (exitCode : Int) (pcb : ProcessControlBlock) :
    (pcb.terminate exitCode).state = .terminated := rfl
@[simp] theorem setPriority_state (priority : ProcessPriority) (pcb : ProcessControlBlock) :
    (pcb.setPriority priority).state = pcb.state := rfl
@[simp] theorem setCpuTime_state (cpuTime : Nat) (pcb : ProcessControlBlock) : (pcb.setCpuTime cpuTime).state = pcb.state :=
  rfl

end ProcessControlBlock

/- The context manager only checks that both processes exist: saving writes the default
   register file and restoring hands the saved one to a function that ignores it. -/
structure ContextManager where
  currentProcess : Option Nat
deriving DecidableEq, Repr

namespace ContextManager

def new : ContextManager := ⟨none⟩

def saveContext (self : ContextManager) (pid : Nat) (processes : SortedMap Nat ProcessControlBlock) :
    Except ProcessError ContextManager :=
  match processes.get? pid with
  | some _ => .ok self
  | none => .error .processNotFound

def restoreContext (self : ContextManager) (pid : Nat) (processes : SortedMap Nat ProcessControlBlock) :
    Except ProcessError ContextManager :=
  match processes.get? pid with
  | some _ => .ok { self with currentProcess := some pid }
  | none => .error .processNotFound

def contextSwitch (self : ContextManager) (fromPid : Option Nat) (toPid : Nat)
    (processes : SortedMap Nat ProcessControlBlock) : Except ProcessError ContextManager := do
  let self ← match fromPid with
    | some pid => self.saveContext pid processes
    | none => pure self
  self.restoreContext toPid processes

theorem contextSwitch_ok_of_mem (self : ContextManager) {fromPid : Option Nat} {toPid : Nat}
    {processes : SortedMap Nat ProcessControlBlock}
    (saved : ∀ pid, fromPid = some pid → (processes.get? pid).isSome) (restored : (processes.get? toPid).isSome) :
    self.contextSwitch fromPid toPid processes = .ok { self with currentProcess := some toPid } := by
  obtain ⟨target, found⟩ := Option.isSome_iff_exists.mp restored
  cases fromPid with
  | none => simp [contextSwitch, restoreContext, found, pure, Except.pure, bind, Except.bind]
  | some pid =>
      obtain ⟨source, present⟩ := Option.isSome_iff_exists.mp (saved pid rfl)
      simp [contextSwitch, saveContext, restoreContext, found, present, bind, Except.bind]

end ContextManager

structure ProcessManager where
  nextPid : Nat
  processes : SortedMap Nat ProcessControlBlock
  currentProcess : Option Nat
  readyQueue : List Nat
  blockedQueue : List Nat

namespace ProcessManager

def new : ProcessManager := ⟨1, .empty, none, [], []⟩

def stackTop : Nat := 0x7FFF_FFFF_F000
def heapBase : Nat := 0x1000_0000

def createProcess (self : ProcessManager) (name : String) (priority : ProcessPriority) (stackSize heapSize : Nat) :
    Except Panic (Nat × ProcessManager) := do
  let pid := self.nextPid
  let self := { self with nextPid := wrappingAdd 64 self.nextPid 1 }
  let stackPointer ← VirtAddr.new stackTop
  let heapStart ← VirtAddr.new heapBase
  let memoryUsage ← add 64 stackSize heapSize
  let pcb : ProcessControlBlock :=
    ⟨pid, self.currentProcess, name, .ready, priority, stackPointer, stackSize, heapStart, heapSize, none, 0, 0,
      memoryUsage⟩
  pure (pid, { self with processes := self.processes.insert pid pcb, readyQueue := self.readyQueue ++ [pid] })

def terminateProcess (self : ProcessManager) (pid : Nat) (exitCode : Int) : Except ProcessError ProcessManager :=
  match self.processes.get? pid with
  | some _ =>
      let self := { self with processes := self.processes.modify pid (ProcessControlBlock.terminate exitCode) }
      let self := { self with readyQueue := self.readyQueue.filter (fun p => p != pid),
                              blockedQueue := self.blockedQueue.filter (fun p => p != pid) }
      .ok (if self.currentProcess = some pid then { self with currentProcess := none } else self)
  | none => .error .processNotFound

def getNextProcess (self : ProcessManager) : Option Nat × ProcessManager :=
  match self.readyQueue with
  | [] => (none, self)
  | pid :: rest => (some pid, { self with readyQueue := rest ++ [pid] })

-- Neither queue is touched.
def switchToProcess (self : ProcessManager) (pid : Nat) : Except ProcessError ProcessManager :=
  match self.processes.get? pid with
  | some _ =>
      .ok { self with processes := self.processes.modify pid (ProcessControlBlock.setState .running),
                      currentProcess := some pid }
  | none => .error .processNotFound

-- The process joins the blocked queue and stays in the ready queue.
def blockCurrentProcess (self : ProcessManager) : Except ProcessError ProcessManager :=
  match self.currentProcess with
  | some pid =>
      match self.processes.get? pid with
      | some _ =>
          .ok { self with processes := self.processes.modify pid (ProcessControlBlock.setState .blocked),
                          blockedQueue := self.blockedQueue ++ [pid], currentProcess := none }
      | none => .error .processNotFound
  | none => .error .noCurrentProcess

def unblockProcess (self : ProcessManager) (pid : Nat) : Except ProcessError ProcessManager :=
  match self.processes.get? pid with
  | some pcb =>
      if pcb.state = .blocked then
        .ok { self with processes := self.processes.modify pid (ProcessControlBlock.setState .ready),
                        blockedQueue := self.blockedQueue.filter (fun p => p != pid),
                        readyQueue := self.readyQueue ++ [pid] }
      else .error .processNotBlocked
  | none => .error .processNotFound

def updateCpuTime (self : ProcessManager) (pid : Nat) (timeDelta : Nat) : Except Panic ProcessManager :=
  match self.processes.get? pid with
  | some pcb => do
      let cpuTime ← add 64 pcb.cpuTime timeDelta
      pure { self with processes := self.processes.modify pid (ProcessControlBlock.setCpuTime cpuTime) }
  | none => pure self

def getProcess (self : ProcessManager) (pid : Nat) : Option ProcessControlBlock := self.processes.get? pid

def getCurrentProcess (self : ProcessManager) : Option Nat := self.currentProcess

def listProcesses (self : ProcessManager) : List (Nat × String × ProcessState) :=
  self.processes.entries.map fun entry => (entry.1, entry.2.name, entry.2.state)

def getProcessCount (self : ProcessManager) : Nat := self.processes.size

-- Blocking leaves the pid in the ready queue, so the round robin hands a blocked process out.
theorem get_next_process_returns_blocked_pid :
    ∃ created switched blocked : ProcessManager,
      new.createProcess "p" .normal 4096 8192 = .ok (1, created) ∧
      created.switchToProcess 1 = .ok switched ∧
      switched.blockCurrentProcess = .ok blocked ∧
      blocked.getNextProcess.1 = some 1 ∧
      (blocked.getProcess 1).map ProcessControlBlock.state = some .blocked ∧
      blocked.readyQueue = [1] ∧ blocked.blockedQueue = [1] := by
  refine ⟨_, _, _, rfl, rfl, rfl, ?_, ?_, ?_, ?_⟩ <;> rfl

-- `switch_to_process` asks only that the pid is in the table: it makes a Terminated process
-- Running again, and a Blocked one Running without unblocking it.
theorem switch_to_process_revives_terminated_and_blocked :
    ∃ created terminated revived switched blocked woken : ProcessManager,
      new.createProcess "p" .normal 4096 8192 = .ok (1, created) ∧
      created.terminateProcess 1 0 = .ok terminated ∧
      (terminated.getProcess 1).map ProcessControlBlock.state = some .terminated ∧
      terminated.switchToProcess 1 = .ok revived ∧
      (revived.getProcess 1).map ProcessControlBlock.state = some .running ∧
      created.switchToProcess 1 = .ok switched ∧ switched.blockCurrentProcess = .ok blocked ∧
      (blocked.getProcess 1).map ProcessControlBlock.state = some .blocked ∧
      blocked.switchToProcess 1 = .ok woken ∧ (woken.getProcess 1).map ProcessControlBlock.state = some .running := by
  refine ⟨_, _, _, _, _, _, rfl, rfl, ?_, rfl, ?_, rfl, rfl, ?_, rfl, ?_⟩ <;> rfl

-- A switch leaves the process it switches away from Running.
theorem two_processes_running_after_two_switches :
    ∃ first second switched : ProcessManager,
      new.createProcess "a" .normal 4096 8192 = .ok (1, first) ∧
      first.createProcess "b" .normal 4096 8192 = .ok (2, second) ∧
      ((second.switchToProcess 1).bind fun s => s.switchToProcess 2) = .ok switched ∧
      (switched.getProcess 1).map ProcessControlBlock.state = some .running ∧
      (switched.getProcess 2).map ProcessControlBlock.state = some .running ∧
      switched.getCurrentProcess = some 2 := by
  refine ⟨_, _, _, rfl, rfl, rfl, ?_, ?_, ?_⟩ <;> rfl

section RoundRobin

theorem getNextProcess_snd (m : ProcessManager) :
    m.getNextProcess.2 = { m with readyQueue := m.readyQueue.rotate 1 } := by
  cases m with
  | mk nextPid processes currentProcess readyQueue blockedQueue =>
      cases readyQueue with
      | nil => rfl
      | cons pid rest => simp [getNextProcess, List.rotate_cons_succ]

theorem getNextProcess_fst (m : ProcessManager) : m.getNextProcess.1 = m.readyQueue.head? := by
  unfold getNextProcess
  split <;> simp_all

theorem iterate_getNextProcess (m : ProcessManager) (calls : Nat) :
    (fun m : ProcessManager => m.getNextProcess.2)^[calls] m = { m with readyQueue := m.readyQueue.rotate calls } := by
  induction calls with
  | zero => rw [List.rotate_zero]; rfl
  | succ calls ih => rw [Function.iterate_succ_apply', ih, getNextProcess_snd, List.rotate_rotate]

theorem round_robin_hands_out_each_ready_pid_in_turn (m : ProcessManager) :
    (∀ i (inside : i < m.readyQueue.length),
      ((fun m : ProcessManager => m.getNextProcess.2)^[i] m).getNextProcess.1 = some m.readyQueue[i]) ∧
    (fun m : ProcessManager => m.getNextProcess.2)^[m.readyQueue.length] m = m := by
  refine ⟨fun i inside => ?_, ?_⟩
  · rw [iterate_getNextProcess, getNextProcess_fst, List.head?_rotate inside, List.getElem?_eq_getElem inside]
  · rw [iterate_getNextProcess, List.rotate_length]

end RoundRobin

section Runs

-- The calls that change the manager; a call that returns an error or panics leaves no successor.
inductive Step : ProcessManager → ProcessManager → Prop
  | createProcess {m m' : ProcessManager} (name : String) (priority : ProcessPriority) (stackSize heapSize pid : Nat) :
      m.createProcess name priority stackSize heapSize = .ok (pid, m') → Step m m'
  | terminateProcess {m m' : ProcessManager} (pid : Nat) (exitCode : Int) :
      m.terminateProcess pid exitCode = .ok m' → Step m m'
  | getNextProcess (m : ProcessManager) : Step m m.getNextProcess.2
  | switchToProcess {m m' : ProcessManager} (pid : Nat) : m.switchToProcess pid = .ok m' → Step m m'
  | blockCurrentProcess {m m' : ProcessManager} : m.blockCurrentProcess = .ok m' → Step m m'
  | unblockProcess {m m' : ProcessManager} (pid : Nat) : m.unblockProcess pid = .ok m' → Step m m'
  | updateCpuTime {m m' : ProcessManager} (pid timeDelta : Nat) : m.updateCpuTime pid timeDelta = .ok m' → Step m m'

def ReadyLive (m : ProcessManager) : Prop :=
  ∀ pid ∈ m.readyQueue, ∃ pcb, m.processes.get? pid = some pcb ∧ pcb.state ≠ .terminated

variable {m m' : ProcessManager}

theorem readyLive_modify (live : ReadyLive m) {pid : Nat} {f : ProcessControlBlock → ProcessControlBlock}
    (processes : m'.processes = m.processes.modify pid f)
    (noTerminate : ∀ pcb, (f pcb).state = .terminated → pcb.state = .terminated)
    (queued : ∀ q ∈ m'.readyQueue, q ∈ m.readyQueue ∨
      (q = pid ∧ (m.processes.get? pid).isSome ∧ ∀ pcb, (f pcb).state ≠ .terminated)) :
    ReadyLive m' := by
  intro q member
  rw [processes]
  rcases queued q member with old | ⟨rfl, present, revived⟩
  · obtain ⟨pcb, found, alive⟩ := live q old
    refine ⟨_, SortedMap.get?_modify_of_eq_some found, ?_⟩
    split
    · exact fun dead => alive (noTerminate pcb dead)
    · exact alive
  · obtain ⟨pcb, found⟩ := Option.isSome_iff_exists.mp present
    exact ⟨_, SortedMap.get?_modify_of_eq_some found, by rw [if_pos rfl]; exact revived pcb⟩

theorem readyLive_createProcess (live : ReadyLive m) {name : String} {priority : ProcessPriority}
    {stackSize heapSize pid : Nat} (created : m.createProcess name priority stackSize heapSize = .ok (pid, m')) :
    ReadyLive m' := by
  simp only [createProcess, bind_eq_ok] at created
  obtain ⟨stackPointer, -, heapStart, -, memoryUsage, -, done⟩ := created
  simp only [pure, Except.pure, Except.ok.injEq, Prod.mk.injEq] at done
  obtain ⟨rfl, rfl⟩ := done
  intro q member
  rw [List.mem_append, List.mem_singleton] at member
  by_cases fresh : q = m.nextPid
  · subst fresh
    exact ⟨_, SortedMap.get?_insert_self _ _ _, by simp⟩
  · obtain ⟨pcb, found, alive⟩ := live q (member.resolve_right fresh)
    exact ⟨pcb, by rw [SortedMap.get?_insert_of_ne _ _ _ _ fresh, found], alive⟩

theorem readyLive_terminateProcess (live : ReadyLive m) {pid : Nat} {exitCode : Int}
    (terminated : m.terminateProcess pid exitCode = .ok m') : ReadyLive m' := by
  unfold terminateProcess at terminated
  split at terminated
  · simp only [Except.ok.injEq] at terminated
    subst terminated
    intro q member
    have kept : q ∈ (m.readyQueue.filter fun p => p != pid) := by
      split at member <;> exact member
    obtain ⟨old, other⟩ := List.mem_filter.mp kept
    have different : q ≠ pid := by simpa using other
    obtain ⟨pcb, found, alive⟩ := live q old
    refine ⟨pcb, ?_, alive⟩
    split <;> rw [SortedMap.get?_modify_of_ne _ _ _ _ different, found]
  · cases terminated

theorem readyLive_getNextProcess (live : ReadyLive m) : ReadyLive m.getNextProcess.2 := by
  rw [getNextProcess_snd]
  exact fun q member => live q (List.mem_rotate.mp member)

theorem readyLive_switchToProcess (live : ReadyLive m) {pid : Nat} (switched : m.switchToProcess pid = .ok m') :
    ReadyLive m' := by
  unfold switchToProcess at switched
  split at switched
  · simp only [Except.ok.injEq] at switched
    subst switched
    exact readyLive_modify live rfl (fun pcb dead => by simp at dead) fun q member => .inl member
  · cases switched

theorem readyLive_blockCurrentProcess (live : ReadyLive m) (blocked : m.blockCurrentProcess = .ok m') :
    ReadyLive m' := by
  unfold blockCurrentProcess at blocked
  split at blocked
  · split at blocked
    · simp only [Except.ok.injEq] at blocked
      subst blocked
      exact readyLive_modify live rfl (fun pcb dead => by simp at dead) fun q member => .inl member
    · cases blocked
  · cases blocked

theorem readyLive_unblockProcess (live : ReadyLive m) {pid : Nat} (unblocked : m.unblockProcess pid = .ok m') :
    ReadyLive m' := by
  unfold unblockProcess at unblocked
  split at unblocked
  · rename_i pcb found
    split at unblocked
    · simp only [Except.ok.injEq] at unblocked
      subst unblocked
      refine readyLive_modify live rfl (fun pcb dead => by simp at dead) fun q member => ?_
      rcases List.mem_append.mp member with old | joined
      · exact .inl old
      · exact .inr ⟨List.mem_singleton.mp joined, by simp [found], fun pcb => by simp⟩
    · cases unblocked
  · cases unblocked

theorem readyLive_updateCpuTime (live : ReadyLive m) {pid timeDelta : Nat}
    (updated : m.updateCpuTime pid timeDelta = .ok m') : ReadyLive m' := by
  unfold updateCpuTime at updated
  split at updated
  · obtain ⟨cpuTime, -, done⟩ := bind_eq_ok.mp updated
    simp only [pure, Except.pure, Except.ok.injEq] at done
    subst done
    exact readyLive_modify live rfl (fun pcb dead => by simpa using dead) fun q member => .inl member
  · simp only [pure, Except.pure, Except.ok.injEq] at updated
    exact updated ▸ live

theorem readyLive_step (live : ReadyLive m) (step : Step m m') : ReadyLive m' := by
  cases step with
  | createProcess name priority stackSize heapSize pid created => exact readyLive_createProcess live created
  | terminateProcess pid exitCode terminated => exact readyLive_terminateProcess live terminated
  | getNextProcess => exact readyLive_getNextProcess live
  | switchToProcess pid switched => exact readyLive_switchToProcess live switched
  | blockCurrentProcess blocked => exact readyLive_blockCurrentProcess live blocked
  | unblockProcess pid unblocked => exact readyLive_unblockProcess live unblocked
  | updateCpuTime pid timeDelta updated => exact readyLive_updateCpuTime live updated

theorem reachable_readyLive (reachable : Relation.ReflTransGen Step new m) : ReadyLive m := by
  induction reachable with
  | refl => exact fun _ member => absurd member List.not_mem_nil
  | tail _ step ih => exact readyLive_step ih step

end Runs

-- A blocked process can still be handed out: blocking leaves it in the ready queue.
theorem round_robin_never_hands_out_terminated_process {m : ProcessManager}
    (reachable : Relation.ReflTransGen Step new m) :
    (∀ pid ∈ m.readyQueue, ∃ pcb, m.getProcess pid = some pcb ∧ pcb.state ≠ .terminated) ∧
    ∀ pid, m.getNextProcess.1 = some pid →
      (∃ pcb, m.getProcess pid = some pcb ∧ pcb.state ≠ .terminated) ∧
      ∃ m', m.getNextProcess.2.switchToProcess pid = .ok m' := by
  have live := reachable_readyLive reachable
  refine ⟨live, fun pid handed => ?_⟩
  rw [getNextProcess_fst] at handed
  obtain ⟨pcb, found, alive⟩ := live pid (List.mem_of_mem_head? handed)
  refine ⟨⟨pcb, found, alive⟩, ?_⟩
  unfold switchToProcess
  rw [getNextProcess_snd]
  dsimp only
  rw [found]
  exact ⟨_, rfl⟩

theorem two_created_first_handed_out :
    ∃ first second : ProcessManager,
      new.createProcess "a" .normal 4096 8192 = .ok (1, first) ∧
      first.createProcess "b" .normal 4096 8192 = .ok (2, second) ∧
      Relation.ReflTransGen Step new second ∧
      (∀ pid ∈ second.readyQueue, ∃ pcb, second.getProcess pid = some pcb ∧ pcb.state ≠ .terminated) ∧
      ∀ pid, second.getNextProcess.1 = some pid →
        (∃ pcb, second.getProcess pid = some pcb ∧ pcb.state ≠ .terminated) ∧
        ∃ m', second.getNextProcess.2.switchToProcess pid = .ok m' := by
  refine ⟨_, _, rfl, rfl, ?_⟩
  have reachable : Relation.ReflTransGen Step new _ :=
    (Relation.ReflTransGen.single (Step.createProcess "a" .normal 4096 8192 1 rfl)).tail
      (Step.createProcess "b" .normal 4096 8192 2 rfl)
  exact ⟨reachable, round_robin_never_hands_out_terminated_process reachable⟩

end ProcessManager

end Emos.Process
