import Mathlib
import Emos.Lib.Checked
import Emos.Lib.Loop
import Emos.Services.KeyboardService
import Emos.Services.MemoryService
import Emos.Services.ProcessService
import Emos.Vga.RawWriter

set_option autoImplicit false

/- The system-call layer of syscalls.rs. `handle_syscall` serves the two bring-up calls, a
   keyboard byte (0) and a byte to the screen (1), and refuses every other number.
   `syscall_create_process` is kept from the full table: it passes the sizes in the caller's
   registers straight to the process service. What the handlers print is left out. -/
namespace Emos.Syscalls

open Checked Process Services Vga

inductive SyscallError where
  | invalidSyscall | invalidArgument | permissionDenied | outOfMemory | processNotFound | invalidProcessId
  | messageQueueFull | noMessageAvailable | invalidMemoryRegion | capabilityDenied | noCurrentProcess
deriving DecidableEq, Repr

def SyscallError.toU64 : SyscallError → Nat
  | .invalidSyscall => 0 | .invalidArgument => 1 | .permissionDenied => 2 | .outOfMemory => 3
  | .processNotFound => 4 | .invalidProcessId => 5 | .messageQueueFull => 6 | .noMessageAvailable => 7
  | .invalidMemoryRegion => 8 | .capabilityDenied => 9 | .noCurrentProcess => 10

inductive SyscallResult where
  | success (value : Nat)
  | error (err : SyscallError)
deriving DecidableEq, Repr

structure SyscallArgs where
  arg0 : UInt64
  arg1 : UInt64
  arg2 : UInt64
  arg3 : UInt64
  arg4 : UInt64
  arg5 : UInt64
deriving DecidableEq, Repr

-- `From<SyscallResult> for u64`: an error sets the high bit over its discriminant.
def SyscallResult.toU64 : SyscallResult → Nat
  | .success value => value
  | .error err => 0x8000_0000_0000_0000 ||| err.toU64

-- What the bring-up calls touch: the scancode queue and the raw VGA writer.
structure Kernel where
  keyboard : KeyboardService
  screen : Screen

def syscallReadByte (kernel : Kernel) : Option UInt8 × Kernel :=
  let (byte, keyboard) := kernel.keyboard.tryGetScancode
  (byte, { kernel with keyboard := keyboard })

-- `args.arg0 as u8` keeps the low byte.
def handleSyscall (kernel : Kernel) (syscallNum : UInt64) (args : SyscallArgs) :
    Except OutOfBounds (SyscallResult × Kernel) :=
  if syscallNum = 0 then
    match syscallReadByte kernel with
    | (some byte, kernel) => .ok (.success byte.toNat, kernel)
    | (none, kernel) => .ok (.error .noMessageAvailable, kernel)
  else if syscallNum = 1 then do
    let screen ← Screen.vgaWriteByte kernel.screen args.arg0.toUInt8
    pure (.success 0, { kernel with screen := screen })
  else .ok (.error .invalidSyscall, kernel)

theorem syscallReadByte_screen (kernel : Kernel) : (syscallReadByte kernel).2.screen = kernel.screen := rfl

theorem handleSyscall_read (kernel : Kernel) (args : SyscallArgs) :
    handleSyscall kernel 0 args =
      .ok (kernel.keyboard.tryGetScancode.1.elim (.error .noMessageAvailable) fun byte => .success byte.toNat,
        { kernel with keyboard := kernel.keyboard.tryGetScancode.2 }) := by
  unfold handleSyscall syscallReadByte
  rw [if_pos rfl]
  rcases kernel.keyboard.tryGetScancode with ⟨_ | byte, keyboard⟩ <;> rfl

theorem handleSyscall_write {kernel : Kernel} (bounded : Screen.InBounds kernel.screen) (args : SyscallArgs) :
    ∃ screen, Screen.vgaWriteByte kernel.screen args.arg0.toUInt8 = .ok screen ∧ Screen.InBounds screen ∧
      handleSyscall kernel 1 args = .ok (.success 0, { kernel with screen := screen }) := by
  obtain ⟨screen, written, bounded'⟩ := Screen.vgaWriteByte_ok bounded args.arg0.toUInt8
  refine ⟨screen, written, bounded', ?_⟩
  unfold handleSyscall
  rw [if_neg (by decide), if_pos rfl, written]
  rfl

theorem handleSyscall_refuse (kernel : Kernel) {syscallNum : UInt64} (args : SyscallArgs) (notRead : syscallNum ≠ 0)
    (notWrite : syscallNum ≠ 1) : handleSyscall kernel syscallNum args = .ok (.error .invalidSyscall, kernel) := by
  unfold handleSyscall
  rw [if_neg notRead, if_neg notWrite]

theorem handleSyscall_ok {kernel : Kernel} (bounded : Screen.InBounds kernel.screen) (syscallNum : UInt64)
    (args : SyscallArgs) :
    ∃ result kernel', handleSyscall kernel syscallNum args = .ok (result, kernel') ∧ Screen.InBounds kernel'.screen := by
  by_cases read : syscallNum = 0
  · rw [read, handleSyscall_read]
    exact ⟨_, _, rfl, bounded⟩
  · by_cases write : syscallNum = 1
    · obtain ⟨screen, -, bounded', handled⟩ := handleSyscall_write bounded args
      exact ⟨_, _, write ▸ handled, bounded'⟩
    · exact ⟨_, kernel, handleSyscall_refuse kernel args read write, bounded⟩

theorem handleSyscall_keyboard {kernel kernel' : Kernel} {syscallNum : UInt64} {args : SyscallArgs}
    {result : SyscallResult} (notRead : syscallNum ≠ 0)
    (handled : handleSyscall kernel syscallNum args = .ok (result, kernel')) : kernel'.keyboard = kernel.keyboard := by
  unfold handleSyscall at handled
  rw [if_neg notRead] at handled
  by_cases write : syscallNum = 1
  · rw [if_pos write] at handled
    obtain ⟨screen, _, done⟩ := Checked.bind_eq_ok.mp handled
    cases done
    rfl
  · rw [if_neg write] at handled
    cases handled
    rfl

def runSyscalls (kernel : Kernel) (calls : List (UInt64 × SyscallArgs)) : Except OutOfBounds Kernel :=
  calls.foldlM (fun kernel call => Prod.snd <$> handleSyscall kernel call.1 call.2) kernel

theorem runSyscalls_boot (keyboard : KeyboardService) (buffer : Nat → UInt8) (calls : List (UInt64 × SyscallArgs)) :
    ∃ kernel', runSyscalls ⟨keyboard, Screen.boot buffer⟩ calls = .ok kernel' ∧ Screen.InBounds kernel'.screen :=
  Loop.foldlM_ok (fun kernel : Kernel => Screen.InBounds kernel.screen) _ (Screen.boot_inBounds buffer)
    fun kernel call _ bounded => by
      obtain ⟨result, kernel', handled, bounded'⟩ := handleSyscall_ok bounded call.1 call.2
      exact ⟨kernel', by rw [handled]; rfl, bounded'⟩

theorem bring_up_syscalls_stay_in_buffer (keyboard : KeyboardService) (buffer : Nat → UInt8)
    (calls : List (UInt64 × SyscallArgs)) :
    (∃ kernel', runSyscalls ⟨keyboard, Screen.boot buffer⟩ calls = .ok kernel' ∧
      kernel'.screen.cursorRow < bufferHeight ∧ kernel'.screen.cursorCol < bufferWidth) ∧
    ∀ pre call post, calls = pre ++ call :: post →
      ∃ kernel, runSyscalls ⟨keyboard, Screen.boot buffer⟩ pre = .ok kernel ∧
        (call.1 = 0 → handleSyscall kernel call.1 call.2 =
          .ok (kernel.keyboard.tryGetScancode.1.elim (.error .noMessageAvailable) fun byte => .success byte.toNat,
            { kernel with keyboard := kernel.keyboard.tryGetScancode.2 })) ∧
        (call.1 = 1 → ∃ screen, Screen.vgaWriteByte kernel.screen call.2.arg0.toUInt8 = .ok screen ∧
          handleSyscall kernel call.1 call.2 = .ok (.success 0, { kernel with screen := screen })) ∧
        (call.1 ≠ 0 → call.1 ≠ 1 → handleSyscall kernel call.1 call.2 = .ok (.error .invalidSyscall, kernel)) := by
  obtain ⟨kernel', ran, bounded⟩ := runSyscalls_boot keyboard buffer calls
  refine ⟨⟨kernel', ran, bounded.row, bounded.col⟩, fun pre call _ _ => ?_⟩
  obtain ⟨kernel, ranBefore, boundedBefore⟩ := runSyscalls_boot keyboard buffer pre
  refine ⟨kernel, ranBefore, fun read => ?_, fun write => ?_, handleSyscall_refuse kernel call.2⟩
  · rw [read]
    exact handleSyscall_read kernel call.2
  · obtain ⟨screen, written, -, handled⟩ := handleSyscall_write boundedBefore call.2
    exact ⟨screen, written, write ▸ handled⟩

-- The `match args.arg2`: any other value is Normal.
def decodePriority (arg2 : UInt64) : ProcessPriority :=
  if arg2 = 0 then .low
  else if arg2 = 1 then .normal
  else if arg2 = 2 then .high
  else if arg2 = 3 then .critical
  else .normal

-- The name is the `name_len` bytes at `name_ptr`, "unknown" when they are not UTF-8. The service's
-- `create_process` never returns `Err`, so the `Err` arm is never taken and is left out.
def syscallCreateProcess (service : ProcessService) (nameBytes : List UInt8) (args : SyscallArgs) :
    Except Panic (SyscallResult × ProcessService) := do
  let name := (String.fromUTF8? ⟨nameBytes.toArray⟩).getD "unknown"
  let (pid, service) ← service.createProcess name (decodePriority args.arg2) args.arg3.toNat args.arg4.toNat
  pure (.success pid, service)

-- Each panics where the service was to return: a region of 2^64 - 1 bytes overflows its base, one
-- of 2^48 bytes is not canonical, and a stack of 2^64 - 1 bytes underflows the stack top.
theorem user_sizes_overflow_region_and_stack_arithmetic :
    MemoryService.new.allocateRegion (2 ^ 64 - 1) .readWrite = .error overflowAdd ∧
    MemoryService.new.allocateRegion (2 ^ 48) .readWrite = .error (VirtAddr.notCanonical 0x1_0000_1000_0000) ∧
    ∃ service, ProcessService.new.init = .ok service ∧
      syscallCreateProcess service [112] ⟨0, 1, 1, 0xFFFF_FFFF_FFFF_FFFF, 4096, 0⟩ = .error overflowSub := by
  refine ⟨by decide, by decide, _, rfl, ?_⟩
  rfl

end Emos.Syscalls
