import Mathlib
import Emos.Lib.Checked
import Emos.Lib.SortedMap
import Emos.Lib.VirtAddr
import Emos.Process.Pcb

set_option autoImplicit false

/- The process service of services/process_service.rs. Unlike the process manager it keeps no
   queues: `schedule_next` collects the Ready processes from the table in pid order and picks
   the one after the current process. The context manager is the global one of
   process/context.rs, passed in and returned. -/
namespace Emos.Services

open Checked Emos.Process

structure ProcessStats where
  pid : Nat
  name : String
  state : ProcessState
  priority : ProcessPriority
  cpuTime : Nat
  memoryUsage : Nat
  creationTime : Nat
deriving DecidableEq, Repr

structure SystemStats where
  totalProcesses : Nat
  runningProcesses : Nat
  readyProcesses : Nat
  blockedProcesses : Nat
  terminatedProcesses : Nat
  currentProcess : Option Nat
deriving DecidableEq, Repr

structure ProcessService where
  processes : SortedMap Nat ProcessControlBlock
  currentProcess : Option Nat
  nextPid : Nat

namespace ProcessService

def new : ProcessService := ⟨.empty, none, 1⟩

def kernelStackPointer : Nat := 0xFFFF_8000_0000_0000
def kernelStackSize : Nat := 0x10000

def init (self : ProcessService) : Except Panic ProcessService := do
  let stackPointer ← VirtAddr.new kernelStackPointer
  let heapStart ← VirtAddr.new 0x1000_0000
  let kernelPcb : ProcessControlBlock :=
    ⟨0, none, "kernel", .running, .critical, stackPointer, kernelStackSize, heapStart, 0x1000000, none, 0, 0, 0x10000⟩
  pure { self with processes := self.processes.insert 0 kernelPcb, currentProcess := some 0 }

theorem init_eq_ok {s s' : ProcessService} :
    s.init = .ok s' ↔
      s' = { s with processes := s.processes.insert 0
                      ⟨0, none, "kernel", .running, .critical, kernelStackPointer, kernelStackSize, 0x1000_0000,
                        0x1000000, none, 0, 0, 0x10000⟩,
                    currentProcess := some 0 } := by
  have kernelStack : VirtAddr.new kernelStackPointer = .ok kernelStackPointer := by
    rfl
  have kernelHeap : VirtAddr.new 0x1000_0000 = .ok 0x1000_0000 := VirtAddr.new_of_lt (by norm_num)
  simp only [init, kernelStack, kernelHeap, bind, Except.bind, pure, Except.pure, Except.ok.injEq]
  exact eq_comm

-- A process's stack ends `pid * stack_size` below the top, its heap begins `pid * heap_size`
-- above the base.
def userStackTop : Nat := 0x7FFF_FFFF_F000
def userHeapBase : Nat := 0x1000_0000

def createProcess (self : ProcessService) (name : String) (priority : ProcessPriority) (stackSize heapSize : Nat) :
    Except Panic (Nat × ProcessService) := do
  let pid := self.nextPid
  let nextPid ← add 64 self.nextPid 1
  let stackOffset ← mul 64 pid stackSize
  let stackAddr ← sub userStackTop stackOffset
  let stackPointer ← VirtAddr.new stackAddr
  let heapOffset ← mul 64 pid heapSize
  let heapAddr ← add 64 userHeapBase heapOffset
  let heapStart ← VirtAddr.new heapAddr
  let memoryUsage ← add 64 stackSize heapSize
  let pcb : ProcessControlBlock :=
    ⟨pid, self.currentProcess, name, .ready, priority, stackPointer, stackSize, heapStart, heapSize, none, 0, 0,
      memoryUsage⟩
  pure (pid, { self with nextPid := nextPid, processes := self.processes.insert pid pcb })

theorem createProcess_eq_ok {s s' : ProcessService} {name : String} {priority : ProcessPriority}
    {stackSize heapSize pid : Nat} (created : s.createProcess name priority stackSize heapSize = .ok (pid, s')) :
    ∃ heapStart, pid = s.nextPid ∧ s.nextPid * stackSize ≤ userStackTop ∧
      (heapStart < 2 ^ 47 → heapStart = userHeapBase + s.nextPid * heapSize) ∧
      s' = ⟨s.processes.insert s.nextPid
              ⟨s.nextPid, s.currentProcess, name, .ready, priority, userStackTop - s.nextPid * stackSize, stackSize,
                heapStart, heapSize, none, 0, 0, stackSize + heapSize⟩,
            s.currentProcess, s.nextPid + 1⟩ := by
  simp only [createProcess, bind_eq_ok] at created
  obtain ⟨nextPid, bumped, stackOffset, stackMul, stackAddr, stackSub, stackPointer, stackNew, heapOffset, heapMul,
    heapAddr, heapAdd, heapStart, heapNew, memoryUsage, usageAdd, done⟩ := created
  obtain ⟨-, rfl⟩ := (add_ok_iff _ _ _ _).mp bumped
  obtain ⟨-, rfl⟩ := (mul_ok_iff _ _ _ _).mp stackMul
  obtain ⟨fits, rfl⟩ := (sub_ok_iff _ _ _).mp stackSub
  obtain ⟨-, rfl⟩ := (mul_ok_iff _ _ _ _).mp heapMul
  obtain ⟨-, rfl⟩ := (add_ok_iff _ _ _ _).mp heapAdd
  obtain ⟨-, rfl⟩ := (add_ok_iff _ _ _ _).mp usageAdd
  have lower : userStackTop - s.nextPid * stackSize < 2 ^ 47 := by
    unfold userStackTop
    omega
  rw [VirtAddr.new_of_lt lower, Except.ok.injEq] at stackNew
  subst stackNew
  simp only [pure, Except.pure, Except.ok.injEq, Prod.mk.injEq] at done
  obtain ⟨rfl, rfl⟩ := done
  exact ⟨heapStart, rfl, fits, fun low => VirtAddr.eq_of_new_of_lt heapNew low, rfl⟩

def terminateProcess (self : ProcessService) (pid : Nat) (exitCode : Int) : Except ProcessError ProcessService :=
  match self.processes.get? pid with
  | some _ =>
      let self := { self with processes := self.processes.modify pid (ProcessControlBlock.terminate exitCode) }
      .ok (if self.currentProcess = some pid then { self with currentProcess := none } else self)
  | none => .error .processNotFound

theorem terminateProcess_eq_ok {s s' : ProcessService} {pid : Nat} {exitCode : Int} :
    s.terminateProcess pid exitCode = .ok s' ↔
      (s.processes.get? pid).isSome ∧
        s' = ⟨s.processes.modify pid (ProcessControlBlock.terminate exitCode),
          if s.currentProcess = some pid then none else s.currentProcess, s.nextPid⟩ := by
  unfold terminateProcess
  cases found : s.processes.get? pid with
  | none => simp
  | some pcb =>
      simp only [Option.isSome_some, true_and, Except.ok.injEq]
      split <;> exact eq_comm

-- The Ready pids, in increasing order as the map iterates them.
def readyProcesses (self : ProcessService) : List Nat :=
  (self.processes.entries.filter fun entry => entry.2.state = .ready).map Prod.fst

theorem mem_readyProcesses {s : ProcessService} {pid : Nat} :
    pid ∈ s.readyProcesses ↔ ∃ pcb, s.processes.get? pid = some pcb ∧ pcb.state = .ready := by
  simp [readyProcesses, SortedMap.get?_eq_some_iff]

-- Round robin: the ready pid after the current one, or the first. The index is taken modulo
-- the length, so the default of `getD` is never used.
def nextReady (readyProcesses : List Nat) (first : Nat) (currentProcess : Option Nat) : Nat :=
  match currentProcess with
  | some current =>
      match readyProcesses.findIdx? (· == current) with
      | some currentIdx => readyProcesses.getD ((currentIdx + 1) % readyProcesses.length) first
      | none => first
  | none => first

theorem getD_mem_of_mem {readyProcesses : List Nat} {first : Nat} (index : Nat) (member : first ∈ readyProcesses) :
    readyProcesses.getD index first ∈ readyProcesses := by
  rw [List.getD_eq_getElem?_getD]
  cases found : readyProcesses[index]? with
  | none => exact member
  | some pid => exact List.mem_of_getElem? found

theorem nextReady_mem {readyProcesses : List Nat} {first : Nat} (currentProcess : Option Nat)
    (member : first ∈ readyProcesses) : nextReady readyProcesses first currentProcess ∈ readyProcesses := by
  unfold nextReady
  split
  · split
    · exact getD_mem_of_mem _ member
    · exact member
  · exact member

-- The chosen process is marked Running before the switch; the previous current process keeps
-- its state.
def scheduleNext (self : ProcessService) (context : ContextManager) : Option Nat × ProcessService × ContextManager :=
  match self.readyProcesses with
  | [] => (none, self, context)
  | first :: rest =>
      let nextPid := nextReady (first :: rest) first self.currentProcess
      let self := { self with processes := self.processes.modify nextPid (ProcessControlBlock.setState .running) }
      match context.contextSwitch self.currentProcess nextPid self.processes with
      | .ok context => (some nextPid, { self with currentProcess := some nextPid }, context)
      | .error _ => (none, self, context)

theorem scheduleNext_eq {s s' : ProcessService} {context context' : ContextManager} {next : Option Nat}
    (scheduled : s.scheduleNext context = (next, s', context')) :
    s' = s ∨ ∃ pid ∈ s.readyProcesses, s'.processes = s.processes.modify pid (ProcessControlBlock.setState .running) ∧
      s'.nextPid = s.nextPid ∧ (s'.currentProcess = some pid ∨ s'.currentProcess = s.currentProcess) := by
  unfold scheduleNext at scheduled
  split at scheduled
  · rw [Prod.mk.injEq, Prod.mk.injEq] at scheduled
    exact .inl scheduled.2.1.symm
  · rename_i first rest listed
    have chosen := nextReady_mem s.currentProcess (listed ▸ List.mem_cons_self : first ∈ s.readyProcesses)
    rw [← listed] at scheduled
    dsimp only at scheduled
    refine .inr ⟨_, chosen, ?_⟩
    split at scheduled <;> simp only [Prod.mk.injEq] at scheduled <;> obtain ⟨-, rfl, -⟩ := scheduled <;> simp

def blockCurrentProcess (self : ProcessService) : Except ProcessError ProcessService :=
  match self.currentProcess with
  | some pid =>
      match self.processes.get? pid with
      | some _ =>
          .ok { self with processes := self.processes.modify pid (ProcessControlBlock.setState .blocked),
                          currentProcess := none }
      | none => .error .processNotFound
  | none => .error .noCurrentProcess

theorem blockCurrentProcess_eq_ok {s s' : ProcessService} :
    s.blockCurrentProcess = .ok s' ↔
      ∃ pid, s.currentProcess = some pid ∧ (s.processes.get? pid).isSome ∧
        s' = ⟨s.processes.modify pid (ProcessControlBlock.setState .blocked), none, s.nextPid⟩ := by
  unfold blockCurrentProcess
  cases current : s.currentProcess with
  | none => simp
  | some pid =>
      dsimp only
      cases found : s.processes.get? pid with
      | none =>
          simp only [Option.some.injEq, exists_eq_left', found, Option.isSome_none, Bool.false_eq_true, false_and,
            iff_false]
          exact fun failed => by cases failed
      | some pcb =>
          simp only [Option.some.injEq, exists_eq_left', found, Option.isSome_some, true_and, Except.ok.injEq]
          exact eq_comm

def unblockProcess (self : ProcessService) (pid : Nat) : Except ProcessError ProcessService :=
  match self.processes.get? pid with
  | some pcb =>
      if pcb.state = .blocked then
        .ok { self with processes := self.processes.modify pid (ProcessControlBlock.setState .ready) }
      else .error .processNotBlocked
  | none => .error .processNotFound

theorem unblockProcess_eq_ok {s s' : ProcessService} {pid : Nat} :
    s.unblockProcess pid = .ok s' ↔
      ∃ pcb, s.processes.get? pid = some pcb ∧ pcb.state = .blocked ∧
        s' = { s with processes := s.processes.modify pid (ProcessControlBlock.setState .ready) } := by
  unfold unblockProcess
  cases found : s.processes.get? pid with
  | none => simp
  | some pcb =>
      by_cases blocked : pcb.state = .blocked
      · simp [blocked, eq_comm]
      · simp [blocked]

def getProcess (self : ProcessService) (pid : Nat) : Option ProcessControlBlock := self.processes.get? pid

def getCurrentProcess (self : ProcessService) : Option Nat := self.currentProcess

def listProcesses (self : ProcessService) : List (Nat × String × ProcessState) :=
  self.processes.entries.map fun entry => (entry.1, entry.2.name, entry.2.state)

def getProcessCount (self : ProcessService) : Nat := self.processes.size

def updateCpuTime (self : ProcessService) (pid : Nat) (timeDelta : Nat) : Except Panic ProcessService :=
  match self.processes.get? pid with
  | some pcb => do
      let cpuTime ← add 64 pcb.cpuTime timeDelta
      pure { self with processes := self.processes.modify pid (ProcessControlBlock.setCpuTime cpuTime) }
  | none => pure self

theorem updateCpuTime_eq_ok {s s' : ProcessService} {pid timeDelta : Nat}
    (updated : s.updateCpuTime pid timeDelta = .ok s') :
    s' = s ∨ ∃ cpuTime, s' = { s with processes := s.processes.modify pid (ProcessControlBlock.setCpuTime cpuTime) } := by
  unfold updateCpuTime at updated
  split at updated
  · obtain ⟨cpuTime, -, done⟩ := bind_eq_ok.mp updated
    simp only [pure, Except.pure, Except.ok.injEq] at done
    exact .inr ⟨cpuTime, done.symm⟩
  · simp only [pure, Except.pure, Except.ok.injEq] at updated
    exact .inl updated.symm

def setPriority (self : ProcessService) (pid : Nat) (priority : ProcessPriority) : Except ProcessError ProcessService :=
  match self.processes.get? pid with
  | some _ => .ok { self with processes := self.processes.modify pid (ProcessControlBlock.setPriority priority) }
  | none => .error .processNotFound

theorem setPriority_eq_ok {s s' : ProcessService} {pid : Nat} {priority : ProcessPriority} :
    s.setPriority pid priority = .ok s' ↔
      (s.processes.get? pid).isSome ∧
        s' = { s with processes := s.processes.modify pid (ProcessControlBlock.setPriority priority) } := by
  unfold setPriority
  cases found : s.processes.get? pid with
  | none => simp
  | some pcb =>
      simp only [Option.isSome_some, true_and, Except.ok.injEq]
      exact eq_comm

def getProcessStats (self : ProcessService) (pid : Nat) : Option ProcessStats :=
  (self.processes.get? pid).map fun pcb =>
    ⟨pcb.pid, pcb.name, pcb.state, pcb.priority, pcb.cpuTime, pcb.memoryUsage, pcb.creationTime⟩

def countInState (self : ProcessService) (state : ProcessState) : Nat :=
  self.processes.values.countP fun pcb => pcb.state = state

def getSystemStats (self : ProcessService) : SystemStats :=
  ⟨self.processes.size, self.countInState .running, self.countInState .ready, self.countInState .blocked,
    self.countInState .terminated, self.currentProcess⟩

-- Scheduling a user process leaves the kernel process Running next to it.
theorem schedule_next_leaves_kernel_running :
    (do
      let initialized ← new.init
      let (pid, created) ← initialized.createProcess "p" .normal 4096 8192
      let (next, scheduled, _) := created.scheduleNext ContextManager.new
      pure (pid, next, scheduled.getSystemStats.runningProcesses, scheduled.getSystemStats.currentProcess,
        (scheduled.getProcess 0).map ProcessControlBlock.state)) =
      .ok (1, some 1, 2, some 1, some .running) := by
  rfl

-- A process that has run is never made Ready again, so the third call finds nothing Ready, and the
-- kernel, Running from `init` on, is never returned.
theorem round_robin_skips_running_processes :
    (do
      let initialized ← new.init
      let (_, withA) ← initialized.createProcess "a" .normal 4096 8192
      let (_, withB) ← withA.createProcess "b" .normal 4096 8192
      let (first, once, context) := withB.scheduleNext ContextManager.new
      let (second, twice, context) := once.scheduleNext context
      let (third, _, _) := twice.scheduleNext context
      pure (withB.listProcesses, [first, second, third])) =
      .ok ([(0, "kernel", .running), (1, "a", .ready), (2, "b", .ready)], [some 1, some 2, none]) := by
  rfl

-- The calls a client of the service can make after `init`; a failed call changes nothing, and a
-- panic ends the run. `schedule_next` runs with whatever context manager it is given.
inductive Step : ProcessService → ProcessService → Prop
  | createProcess {s s' : ProcessService} (name : String) (priority : ProcessPriority) (stackSize heapSize pid : Nat) :
      s.createProcess name priority stackSize heapSize = .ok (pid, s') → Step s s'
  | terminateProcess {s s' : ProcessService} (pid : Nat) (exitCode : Int) :
      s.terminateProcess pid exitCode = .ok s' → Step s s'
  | scheduleNext {s s' : ProcessService} (context context' : ContextManager) (next : Option Nat) :
      s.scheduleNext context = (next, s', context') → Step s s'
  | blockCurrentProcess {s s' : ProcessService} : s.blockCurrentProcess = .ok s' → Step s s'
  | unblockProcess {s s' : ProcessService} (pid : Nat) : s.unblockProcess pid = .ok s' → Step s s'
  | updateCpuTime {s s' : ProcessService} (pid timeDelta : Nat) : s.updateCpuTime pid timeDelta = .ok s' → Step s s'
  | setPriority {s s' : ProcessService} (pid : Nat) (priority : ProcessPriority) :
      s.setPriority pid priority = .ok s' → Step s s'

end ProcessService

end Emos.Services
