import Mathlib
import Emos.Lib.SortedMap
import Emos.Lib.Method
import Emos.Process.Pcb

set_option autoImplicit false

/- The context manager of process/context.rs together with the register file it saves into a
   PCB. `Emos.Process.ContextManager` leaves the registers out, which is enough for what the
   process service reads; here a PCB carries them, and each method is an `EStateM` program over
   the manager and the process table it is handed, so that an error returned by `?` keeps what
   the call wrote before it. -/
namespace Emos.Process.Context

structure CpuRegisters where
  rax : UInt64
  rbx : UInt64
  rcx : UInt64
  rdx : UInt64
  rsi : UInt64
  rdi : UInt64
  rbp : UInt64
  rsp : UInt64
  r8 : UInt64
  r9 : UInt64
  r10 : UInt64
  r11 : UInt64
  r12 : UInt64
  r13 : UInt64
  r14 : UInt64
  r15 : UInt64
  rip : UInt64
  rflags : UInt64
  cs : UInt64
  ss : UInt64
  ds : UInt64
  es : UInt64
  fs : UInt64
  gs : UInt64
deriving DecidableEq, Repr

-- `impl Default for CpuRegisters`: interrupts enabled, kernel code and data selectors.
def CpuRegisters.default : CpuRegisters :=
  ⟨0, 0, 0, 0, 0, 0, 0, 0, 0, 0, 0, 0, 0, 0, 0, 0, 0, 0x202, 0x08, 0x10, 0x10, 0x10, 0x10, 0x10⟩

structure SavedPcb where
  pcb : ProcessControlBlock
  registers : CpuRegisters
deriving DecidableEq

structure ContextManager where
  currentProcess : Option Nat
  kernelStack : UInt64
deriving DecidableEq, Repr

-- A method of the manager on the process table it is given, both borrowed mutably.
abbrev Switch (α : Type) := EStateM ProcessError (ContextManager × SortedMap Nat SavedPcb) α

namespace ContextManager

open Method

def new : ContextManager := ⟨none, 0xFFFF_8000_0000_0000⟩

-- The registers are not read from the CPU: a default set is returned.
def getCurrentRegisters (_self : ContextManager) : CpuRegisters := CpuRegisters.default

-- Nothing is written to the CPU.
def setRegisters (self : ContextManager) (_registers : CpuRegisters) : ContextManager := self

def saveContext (pid : Nat) : Switch Unit := do
  let (self, processes) ← get
  match processes.get? pid with
  | some _ => set (self, processes.modify pid fun saved => { saved with registers := self.getCurrentRegisters })
  | none => throw .processNotFound

def restoreContext (pid : Nat) : Switch Unit := do
  let (self, processes) ← get
  match processes.get? pid with
  | some saved => set ({ self.setRegisters saved.registers with currentProcess := some pid }, processes)
  | none => throw .processNotFound

def contextSwitch (fromPid : Option Nat) (toPid : Nat) : Switch Unit := do
  match fromPid with
  | some pid => saveContext pid
  | none => pure ()
  restoreContext toPid

def afterSave (processes : SortedMap Nat SavedPcb) : Option Nat → SortedMap Nat SavedPcb
  | some pid => processes.modify pid fun saved => { saved with registers := CpuRegisters.default }
  | none => processes

theorem saveContext_run (pid : Nat) (self : ContextManager) (processes : SortedMap Nat SavedPcb) :
    (saveContext pid).run (self, processes) =
      if (processes.get? pid).isSome then .ok () (self, afterSave processes (some pid))
      else .error .processNotFound (self, processes) := by
  cases found : processes.get? pid <;>
    simp [saveContext, found, afterSave, getCurrentRegisters, EStateM.run, get, getThe, MonadStateOf.get,
      EStateM.get, set, EStateM.set, bind, EStateM.bind, throw, throwThe, MonadExceptOf.throw, EStateM.throw]

theorem restoreContext_run (pid : Nat) (self : ContextManager) (processes : SortedMap Nat SavedPcb) :
    (restoreContext pid).run (self, processes) =
      if (processes.get? pid).isSome then .ok () ({ self with currentProcess := some pid }, processes)
      else .error .processNotFound (self, processes) := by
  cases found : processes.get? pid <;>
    simp [restoreContext, found, setRegisters, EStateM.run, get, getThe, MonadStateOf.get, EStateM.get, set,
      EStateM.set, bind, EStateM.bind, throw, throwThe, MonadExceptOf.throw, EStateM.throw]

theorem contextSwitch_run (fromPid : Option Nat) (toPid : Nat) (self : ContextManager)
    (processes : SortedMap Nat SavedPcb) :
    (contextSwitch fromPid toPid).run (self, processes) =
      if ∀ pid, fromPid = some pid → (processes.get? pid).isSome then
        (if (processes.get? toPid).isSome then .ok () ({ self with currentProcess := some toPid }, afterSave processes fromPid)
          else .error .processNotFound (self, afterSave processes fromPid))
      else .error .processNotFound (self, processes) := by
  cases fromPid with
  | none =>
      simp only [contextSwitch, reduceCtorEq, false_implies, implies_true, if_true]
      exact restoreContext_run toPid self processes
  | some pid =>
      have kept : ((afterSave processes (some pid)).get? toPid).isSome = (processes.get? toPid).isSome := by
        simp [afterSave]
      simp only [contextSwitch, run_bind, saveContext_run, Option.some.injEq, forall_eq']
      by_cases found : (processes.get? pid).isSome
      · simp only [found, if_true]
        rw [restoreContext_run, kept]
      · simp [found]

theorem contextSwitch_refines {fromPid : Option Nat} {toPid : Nat} {self : ContextManager}
    {processes : SortedMap Nat SavedPcb} {table : SortedMap Nat ProcessControlBlock}
    (samePids : ∀ pid, (table.get? pid).isSome = (processes.get? pid).isSome) :
    (Process.ContextManager.mk self.currentProcess).contextSwitch fromPid toPid table =
      match (contextSwitch fromPid toPid).run (self, processes) with
      | .ok () (self', _) => .ok ⟨self'.currentProcess⟩
      | .error e _ => .error e := by
  have restored := samePids toPid
  rw [contextSwitch_run]
  cases fromPid with
  | none =>
      cases found : table.get? toPid <;> rw [found] at restored <;>
        simp [Process.ContextManager.contextSwitch, Process.ContextManager.restoreContext, found, ← restored,
          pure, Except.pure, bind, Except.bind]
  | some pid =>
      have saved := samePids pid
      cases source : table.get? pid <;> rw [source] at saved <;>
        cases found : table.get? toPid <;> rw [found] at restored <;>
        simp [Process.ContextManager.contextSwitch, Process.ContextManager.saveContext,
          Process.ContextManager.restoreContext, source, found, ← saved, ← restored, bind, Except.bind]

-- `save_context` writes the default registers into `from_pid` before `restore_context` looks
-- `to_pid` up, so a switch to a missing process fails with the saved registers overwritten.
theorem failed_switch_overwrites_saved_registers :
    let registers : CpuRegisters := { CpuRegisters.default with rax := 1 }
    let processes : SortedMap Nat SavedPcb :=
      SortedMap.empty.insert 1 ⟨⟨1, some 0, "p", .ready, .normal, 0, 4096, 0, 8192, none, 0, 0, 12288⟩, registers⟩
    ∃ after, (contextSwitch (some 1) 2).run (new, processes) = .error .processNotFound (new, after) ∧
      (processes.get? 1).map SavedPcb.registers = some registers ∧
      (after.get? 1).map SavedPcb.registers = some CpuRegisters.default ∧ registers ≠ CpuRegisters.default := by
  refine ⟨_, rfl, rfl, rfl, by decide⟩

end ContextManager

end Emos.Process.Context
