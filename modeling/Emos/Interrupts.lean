import Mathlib
import Emos.Lib.Trace
import Emos.Lib.X86
import Emos.Syscalls

set_option autoImplicit false

/- The system-call entry of interrupts.rs. `syscall_entry` is a naked function, installed at
   vector 0x80 for ring 3: it saves the fifteen general registers, calls `syscall_dispatch` with
   the call number from rax and the arguments from rdi, rsi, rdx, r10, r8 and r9, writes the
   result into the saved registers, restores them and returns with `iretq`. Its instructions run
   on the x86 fragment of `X86`, with `syscall_dispatch` as the function called and the kernel
   as the state outside the machine. -/
namespace Emos.Interrupts

open X86 Syscalls Vga Services

def syscallEntry : List Instr :=
  [.push .r15, .push .r14, .push .r13, .push .r12, .push .r11, .push .r10, .push .r9, .push .r8,
   .push .rbp, .push .rdi, .push .rsi, .push .rdx, .push .rcx, .push .rbx, .push .rax,
   .subRsp 8,
   .load .rdi 8, .load .rsi 48, .load .rdx 40, .load .rcx 32, .load .r8 80, .load .r9 64,
   .load .rax 72, .push .rax,
   .call,
   .addRsp 8,
   .addRsp 8,
   .store 8 .rax,
   .pop .rax, .pop .rbx, .pop .rcx, .pop .rdx, .pop .rsi, .pop .rdi, .pop .rbp, .pop .r8, .pop .r9,
   .pop .r10, .pop .r11, .pop .r12, .pop .r13, .pop .r14, .pop .r15]

-- `syscall_dispatch`: the call number and six arguments go to `handle_syscall`, whose result
-- returns as a u64. What the compiled function leaves in the scratch registers and below the
-- stack is not known, so it is a parameter.
def syscallDispatch (clobber : Reg → UInt64) (scratch : Nat → UInt64) : Callee Kernel OutOfBounds 7 where
  run kernel args := do
    let (res, kernel) ← handleSyscall kernel (args 0) ⟨args 1, args 2, args 3, args 4, args 5, args 6⟩
    pure (res.toU64.toUInt64, kernel)
  clobber := clobber
  scratch := scratch

def saveOrder : List Reg :=
  [.r15, .r14, .r13, .r12, .r11, .r10, .r9, .r8, .rbp, .rdi, .rsi, .rdx, .rcx, .rbx, .rax]

def restoreOrder : List Reg :=
  [.rax, .rbx, .rcx, .rdx, .rsi, .rdi, .rbp, .r8, .r9, .r10, .r11, .r12, .r13, .r14, .r15]

def callStub : List Instr :=
  [.subRsp 8, .load .rdi 8, .load .rsi 48, .load .rdx 40, .load .rcx 32, .load .r8 80, .load .r9 64,
   .load .rax 72, .push .rax, .call, .addRsp 8, .addRsp 8, .store 8 .rax]

theorem syscallEntry_eq : syscallEntry = saveOrder.map .push ++ callStub ++ restoreOrder.map .pop := rfl

-- The seven arguments of a call as the user passes them: the number in rax, then rdi, rsi, rdx,
-- r10, r8 and r9.
def userArgs (m : Machine) : Fin 7 → UInt64 :=
  ![m.regs .rax, m.regs .rdi, m.regs .rsi, m.regs .rdx, m.regs .r10, m.regs .r8, m.regs .r9]

section Stub

variable {σ ε : Type}

theorem callStub_ok (callee : Callee σ ε 7) (saved : Machine) (room : 16 ≤ saved.rsp) {s s' : σ}
    {result : UInt64}
    (called : callee.run s ![saved.mem saved.rsp, saved.mem (saved.rsp + 40), saved.mem (saved.rsp + 32),
      saved.mem (saved.rsp + 24), saved.mem (saved.rsp + 72), saved.mem (saved.rsp + 56),
      saved.mem (saved.rsp + 64)] = .ok (result, s')) :
    ∃ after : Machine, run callee (saved, s) callStub = .ok (after, s') ∧ after.rsp = saved.rsp ∧
      after.mem (saved.rsp + 8) = result ∧
      ∀ a, saved.rsp ≤ a → a ≠ saved.rsp + 8 → after.mem a = saved.mem a := by
  set atCall : Machine := (((((((({ saved with rsp := saved.rsp - 8 }.load .rdi 8).load .rsi 48).load .rdx 40).load
    .rcx 32).load .r8 80).load .r9 64).load .rax 72).push .rax) with atCall_def
  have args : (fun i : Fin 7 => atCall.arg i) = ![saved.mem saved.rsp, saved.mem (saved.rsp + 40),
      saved.mem (saved.rsp + 32), saved.mem (saved.rsp + 24), saved.mem (saved.rsp + 72),
      saved.mem (saved.rsp + 56), saved.mem (saved.rsp + 64)] := by
    have loaded : atCall.arg 0 = saved.mem saved.rsp ∧ atCall.arg 1 = saved.mem (saved.rsp + 40) ∧
        atCall.arg 2 = saved.mem (saved.rsp + 32) ∧ atCall.arg 3 = saved.mem (saved.rsp + 24) ∧
        atCall.arg 4 = saved.mem (saved.rsp + 72) ∧ atCall.arg 5 = saved.mem (saved.rsp + 56) ∧
        atCall.arg 6 = saved.mem (saved.rsp + 64) := by
      simp only [atCall, Machine.arg, Machine.load, Machine.push, Function.update_apply, reduceCtorEq, if_false,
        if_true, Nat.mul_zero, Nat.add_zero]
      refine ⟨?_, ?_, ?_, ?_, ?_, ?_, ?_⟩ <;> (congr 1; omega)
    funext i
    fin_cases i
    exacts [loaded.1, loaded.2.1, loaded.2.2.1, loaded.2.2.2.1, loaded.2.2.2.2.1, loaded.2.2.2.2.2.1,
      loaded.2.2.2.2.2.2]
  have atCall_rsp : atCall.rsp = saved.rsp - 16 := by
    simp only [atCall, Machine.push, Machine.load]
    omega
  have back : atCall.rsp + 8 + 8 = saved.rsp := by omega
  unfold callStub
  rw [run_cons callee rfl, run_cons callee rfl, run_cons callee rfl, run_cons callee rfl, run_cons callee rfl,
    run_cons callee rfl, run_cons callee rfl, run_cons callee rfl, run_cons callee rfl,
    run_cons callee (step_call callee atCall (by rw [args]; exact called)), run_cons callee rfl,
    run_cons callee rfl, run_cons callee rfl]
  refine ⟨_, rfl, back, ?_, fun a above other => ?_⟩
  · simp only [Machine.store, Machine.returned, back, Function.update_self, if_true]
  · -- the call's scratch lies below `saved`, and the loads and the push write nothing above it
    simp only [Machine.store, Machine.returned, back, Function.update_of_ne other,
      if_neg (show ¬a < atCall.rsp + 8 * (7 - 6) by omega)]
    simp only [atCall, Machine.push, Machine.load, Function.update_apply]
    rw [if_neg (by omega)]

theorem restoreOrder_covers (r : Reg) : ∃ i, i < 15 ∧ restoreOrder.getD i .rax = r := by
  cases r <;> decide

theorem restoreOrder_ne_rbx : ∀ i, i < 15 → i ≠ 1 → restoreOrder.getD i .rax ≠ .rbx := by
  decide

theorem syscallEntry_ok (callee : Callee σ ε 7) (m : Machine) (room : 8 * 17 ≤ m.rsp) {s s' : σ}
    {result : UInt64} (called : callee.run s (userArgs m) = .ok (result, s')) :
    ∃ m', run callee (m, s) syscallEntry = .ok (m', s') ∧ m'.regs = Function.update m.regs .rbx result ∧
      m'.rsp = m.rsp ∧ ∀ a, m.rsp ≤ a → m'.mem a = m.mem a := by
  have room' : 8 * saveOrder.length ≤ m.rsp := by
    simp only [saveOrder, List.length_cons, List.length_nil]
    omega
  obtain ⟨saved, pushed, savedRsp, slot, kept⟩ : ∃ saved : Machine,
      run callee (m, s) (saveOrder.map .push) = .ok (saved, s) ∧ saved.rsp = m.rsp - 120 ∧
      (∀ i, i < 15 → saved.mem (saved.rsp + 8 * i) = m.regs (restoreOrder.getD i .rax)) ∧
      ∀ a, m.rsp ≤ a → saved.mem a = m.mem a := by
    refine ⟨_, run_pushes callee saveOrder m s, Machine.pushAll_rsp saveOrder m, fun i inside => ?_,
      fun a above => Machine.pushAll_above saveOrder m room' above⟩
    rw [Machine.pushAll_rsp]
    exact Machine.pushAll_slot saveOrder m room' inside
  have words : ![saved.mem saved.rsp, saved.mem (saved.rsp + 40), saved.mem (saved.rsp + 32),
      saved.mem (saved.rsp + 24), saved.mem (saved.rsp + 72), saved.mem (saved.rsp + 56),
      saved.mem (saved.rsp + 64)] = userArgs m := by
    have rax : saved.mem saved.rsp = m.regs .rax := slot 0 (by decide)
    have rdi : saved.mem (saved.rsp + 40) = m.regs .rdi := slot 5 (by decide)
    have rsi : saved.mem (saved.rsp + 32) = m.regs .rsi := slot 4 (by decide)
    have rdx : saved.mem (saved.rsp + 24) = m.regs .rdx := slot 3 (by decide)
    have r10 : saved.mem (saved.rsp + 72) = m.regs .r10 := slot 9 (by decide)
    have r8 : saved.mem (saved.rsp + 56) = m.regs .r8 := slot 7 (by decide)
    have r9 : saved.mem (saved.rsp + 64) = m.regs .r9 := slot 8 (by decide)
    rw [rax, rdi, rsi, rdx, r10, r8, r9]
    rfl
  obtain ⟨after, ran, afterRsp, stored, afterKept⟩ :=
    callStub_ok callee saved (by omega) (by rw [words]; exact called)
  have throughCall : run callee (m, s) (saveOrder.map .push ++ callStub) = .ok (after, s') := by
    rw [run_append callee pushed, ran]
  refine ⟨restoreOrder.foldl Machine.pop after, ?_, ?_, ?_, fun a above => ?_⟩
  · rw [syscallEntry_eq, run_append callee throughCall, run_pops]
  · funext r
    obtain ⟨i, inside, rfl⟩ := restoreOrder_covers r
    rw [Machine.popAll_slot restoreOrder after (by decide) inside, afterRsp]
    by_cases isRbx : i = 1
    · subst isRbx
      show after.mem (saved.rsp + 8 * 1) = Function.update m.regs .rbx result .rbx
      rw [Function.update_self]
      exact stored
    · rw [afterKept _ (by omega) (by omega), slot i inside,
        Function.update_of_ne (restoreOrder_ne_rbx i inside isRbx)]
  · rw [Machine.popAll_rsp, afterRsp, savedRsp]
    simp only [restoreOrder, List.length_cons, List.length_nil]
    omega
  · rw [Machine.popAll_mem, afterKept a (by omega) (by omega), kept a above]

end Stub

theorem syscallDispatch_run {kernel kernel' : Kernel} {m : Machine} {result : SyscallResult}
    (clobber : Reg → UInt64) (scratch : Nat → UInt64)
    (handled : handleSyscall kernel (m.regs .rax)
      ⟨m.regs .rdi, m.regs .rsi, m.regs .rdx, m.regs .r10, m.regs .r8, m.regs .r9⟩ = .ok (result, kernel')) :
    (syscallDispatch clobber scratch).run kernel (userArgs m) = .ok (result.toU64.toUInt64, kernel') := by
  show (do
    let (res, kernel) ← handleSyscall kernel (m.regs .rax)
      ⟨m.regs .rdi, m.regs .rsi, m.regs .rdx, m.regs .r10, m.regs .r8, m.regs .r9⟩
    pure (res.toU64.toUInt64, kernel)) = _
  rw [handled]
  rfl

theorem trap_returns {kernel : Kernel} (bounded : Screen.InBounds kernel.screen) {user : Machine}
    (room : 8 * 17 ≤ user.rsp) (clobber : Reg → UInt64) (scratch : Nat → UInt64) :
    ∃ result kernel' returned,
      handleSyscall kernel (user.regs .rax)
        ⟨user.regs .rdi, user.regs .rsi, user.regs .rdx, user.regs .r10, user.regs .r8, user.regs .r9⟩ =
          .ok (result, kernel') ∧ Screen.InBounds kernel'.screen ∧
      run (syscallDispatch clobber scratch) (user, kernel) syscallEntry = .ok (returned, kernel') ∧
      returned.regs = Function.update user.regs .rbx result.toU64.toUInt64 ∧ returned.rsp = user.rsp ∧
      ∀ a, user.rsp ≤ a → returned.mem a = user.mem a := by
  obtain ⟨result, kernel', handled, bounded'⟩ := handleSyscall_ok bounded (user.regs .rax)
    ⟨user.regs .rdi, user.regs .rsi, user.regs .rdx, user.regs .r10, user.regs .r8, user.regs .r9⟩
  obtain ⟨returned, ran, regs, rsp, above⟩ :=
    syscallEntry_ok (syscallDispatch clobber scratch) user room (syscallDispatch_run clobber scratch handled)
  exact ⟨result, kernel', returned, handled, bounded', ran, regs, rsp, above⟩

-- The stub returns the result in rbx and leaves the call number in rax, which the caller reads as
-- `Success(0)`.
theorem syscall_result_returned_in_rbx (kernel : Kernel) (bounded : Screen.InBounds kernel.screen) (m : Machine)
    (room : 8 * 17 ≤ m.rsp) (clobber : Reg → UInt64) (scratch : Nat → UInt64) :
    ∃ result kernel' m',
      handleSyscall kernel (m.regs .rax)
        ⟨m.regs .rdi, m.regs .rsi, m.regs .rdx, m.regs .r10, m.regs .r8, m.regs .r9⟩ = .ok (result, kernel') ∧
      run (syscallDispatch clobber scratch) (m, kernel) syscallEntry = .ok (m', kernel') ∧
      m'.regs .rbx = result.toU64.toUInt64 ∧ m'.regs .rax = m.regs .rax ∧
      (∀ r, r ≠ .rbx → m'.regs r = m.regs r) ∧ m'.rsp = m.rsp ∧ (∀ a, m.rsp ≤ a → m'.mem a = m.mem a) ∧
      (m.regs .rax = 0 →
        m'.regs .rbx = (kernel.keyboard.tryGetScancode.1.elim (SyscallResult.error .noMessageAvailable)
          fun byte => .success byte.toNat).toU64.toUInt64 ∧
        kernel' = { kernel with keyboard := kernel.keyboard.tryGetScancode.2 }) := by
  obtain ⟨result, kernel', m', handled, -, ran, regs, rsp, above⟩ := trap_returns bounded room clobber scratch
  have rbx : m'.regs .rbx = result.toU64.toUInt64 := by rw [regs, Function.update_self]
  refine ⟨result, kernel', m', handled, ran, rbx, ?_, fun r other => by rw [regs, Function.update_of_ne other], rsp,
    above, fun read => ?_⟩
  · rw [regs, Function.update_of_ne (by decide)]
  · rw [read, handleSyscall_read] at handled
    obtain ⟨answered, popped⟩ := Prod.mk.inj (Except.ok.inj handled)
    exact ⟨by rw [rbx, ← answered], popped.symm⟩

theorem read_returns_zero_with_scancode_in_rbx :
    ∃ m', run (syscallDispatch (fun _ => 0) fun _ => 0)
        (⟨fun _ => 0, 4096, fun _ => 0⟩, ⟨⟨some ⟨[0x1e], Nat.le_of_ble_eq_true rfl⟩⟩, Screen.boot fun _ => 0⟩)
        syscallEntry = .ok (m', ⟨⟨some .empty⟩, Screen.boot fun _ => 0⟩) ∧
      m'.regs .rax = 0 ∧ m'.regs .rbx = 0x1e := by
  obtain ⟨result, kernel', m', handled, ran, rbx, rax, -, -, -, -⟩ :=
    syscall_result_returned_in_rbx ⟨⟨some ⟨[0x1e], Nat.le_of_ble_eq_true rfl⟩⟩, Screen.boot fun _ => 0⟩
      (Screen.boot_inBounds _) ⟨fun _ => 0, 4096, fun _ => 0⟩ (by decide) (fun _ => 0) fun _ => 0
  have read : handleSyscall ⟨⟨some ⟨[0x1e], Nat.le_of_ble_eq_true rfl⟩⟩, Screen.boot fun _ => 0⟩ 0 ⟨0, 0, 0, 0, 0, 0⟩ =
      .ok (.success 0x1e, ⟨⟨some .empty⟩, Screen.boot fun _ => 0⟩) := rfl
  obtain ⟨rfl, rfl⟩ := Prod.mk.inj (Except.ok.inj (handled.symm.trans read))
  exact ⟨m', ran, rax, rbx⟩

section Kernel

-- `keyboard_interrupt_handler`: the scancode read from port 0x60 is echoed as a 'K' through the
-- raw writer, then queued. The end of interrupt sent to the PIC is left out.
def keyboardInterrupt (kernel : Kernel) (scancode : UInt8) : Except OutOfBounds (Kernel × Option String) := do
  let screen ← Screen.vgaWriteByte kernel.screen 75
  let (keyboard, printed) := kernel.keyboard.addScancode scancode
  pure (⟨keyboard, screen⟩, printed)

-- The kernel when `kernel_main` enables interrupts: the scancode queue made by
-- `ScancodeStream::new`, empty, and the raw writer's statics as at boot.
def bootKernel (buffer : Nat → UInt8) : Kernel := ⟨⟨some .empty⟩, Screen.boot buffer⟩

-- What is seen of the kernel: a key press with what `add_scancode` printed, or a trap from user
-- mode with the registers before and after it.
inductive Label where
  | key (scancode : UInt8) (printed : Option String)
  | trap (user returned : Machine)

-- Any interleaving of key presses and system calls. At a trap `rsp` is the kernel stack the CPU
-- switched to, with room for the stub's seventeen words.
inductive Step : Kernel → Label → Kernel → Prop
  | key (kernel : Kernel) (scancode : UInt8) {kernel' : Kernel} {printed : Option String}
      (handled : keyboardInterrupt kernel scancode = .ok (kernel', printed)) : Step kernel (.key scancode printed) kernel'
  | trap (kernel : Kernel) (user : Machine) (room : 8 * 17 ≤ user.rsp) (clobber : Reg → UInt64)
      (scratch : Nat → UInt64) {returned : Machine} {kernel' : Kernel}
      (ran : run (syscallDispatch clobber scratch) (user, kernel) syscallEntry = .ok (returned, kernel')) :
      Step kernel (.trap user returned) kernel'

-- How a u64 result of call 0 is read: the high bit marks an error, otherwise the low byte is the
-- scancode.
def readResult (value : UInt64) : Option UInt8 :=
  if value >>> 63 = 0 then some value.toUInt8 else none

theorem readResult_read (read : Option UInt8) :
    readResult (read.elim (SyscallResult.error .noMessageAvailable) fun byte => SyscallResult.success byte.toNat).toU64.toUInt64 =
      read := by
  cases read with
  | none => decide
  | some byte =>
      have high : byte.toUInt64 >>> 63 = 0 := by
        apply UInt64.toNat_inj.mp
        have := byte.toNat_lt
        simp
        omega
      simp [readResult, SyscallResult.toU64, high]

-- The scancode queue's view of a label: a key is an interrupt, a read trap a read-byte call that
-- returned what the stub left in rbx.
def Label.keyboardEvent : Label → Option KeyboardService.Event
  | .key scancode printed => some (.interrupt scancode printed)
  | .trap user returned => if user.regs .rax = 0 then some (.readByte (readResult (returned.regs .rbx))) else none

-- A trap that came back with every register but rbx and the kernel stack as they were.
def Label.Returns : Label → Prop
  | .key _ _ => True
  | .trap user returned => (∀ r, r ≠ .rbx → returned.regs r = user.regs r) ∧ returned.rsp = user.rsp

structure Consistent (labels : List Label) (kernel : Kernel) : Prop where
  bounded : Screen.InBounds kernel.screen
  delivers : KeyboardService.Delivers (labels.filterMap Label.keyboardEvent) kernel.keyboard
  returns : ∀ label ∈ labels, label.Returns

theorem keyboardInterrupt_ok {kernel kernel' : Kernel} {scancode : UInt8} {printed : Option String}
    (handled : keyboardInterrupt kernel scancode = .ok (kernel', printed)) :
    Screen.vgaWriteByte kernel.screen 75 = .ok kernel'.screen ∧
      (kernel'.keyboard, printed) = kernel.keyboard.addScancode scancode := by
  obtain ⟨screen, written, done⟩ := Checked.bind_eq_ok.mp handled
  cases done
  exact ⟨written, rfl⟩

theorem Consistent.appendEvent {labels : List Label} {kernel : Kernel} (consistent : Consistent labels kernel)
    {label : Label} (returns : label.Returns) {kernel' : Kernel} (bounded : Screen.InBounds kernel'.screen)
    (delivers : KeyboardService.Delivers ((labels ++ [label]).filterMap Label.keyboardEvent) kernel'.keyboard) :
    Consistent (labels ++ [label]) kernel' where
  bounded := bounded
  delivers := delivers
  returns label' member := by
    rcases List.mem_append.mp member with earlier | now
    · exact consistent.returns label' earlier
    · rw [List.mem_singleton.mp now]
      exact returns

theorem consistent_key {labels : List Label} {kernel kernel' : Kernel} (consistent : Consistent labels kernel)
    {scancode : UInt8} {printed : Option String} (handled : keyboardInterrupt kernel scancode = .ok (kernel', printed)) :
    Consistent (labels ++ [.key scancode printed]) kernel' := by
  obtain ⟨written, added⟩ := keyboardInterrupt_ok handled
  obtain ⟨screen, written', bounded⟩ := Screen.vgaWriteByte_ok consistent.bounded 75
  have same : kernel'.screen = screen := Except.ok.inj (written.symm.trans written')
  have delivered := KeyboardService.delivers_interrupt consistent.delivers scancode
  rw [← added] at delivered
  refine consistent.appendEvent (show Label.Returns (.key scancode printed) from trivial) (same ▸ bounded) ?_
  rw [List.filterMap_append, List.filterMap_cons_some (rfl : Label.keyboardEvent (.key scancode printed) = _),
    List.filterMap_nil]
  exact delivered

theorem consistent_trap {labels : List Label} {kernel kernel' : Kernel} (consistent : Consistent labels kernel)
    {user returned : Machine} (room : 8 * 17 ≤ user.rsp) {clobber : Reg → UInt64} {scratch : Nat → UInt64}
    (ran : run (syscallDispatch clobber scratch) (user, kernel) syscallEntry = .ok (returned, kernel')) :
    Consistent (labels ++ [.trap user returned]) kernel' := by
  obtain ⟨result, handledKernel, m', handled, bounded, ran', regs, rsp, -⟩ :=
    trap_returns consistent.bounded room clobber scratch
  obtain ⟨rfl, rfl⟩ := Prod.mk.inj (Except.ok.inj (ran.symm.trans ran'))
  have returns : Label.Returns (.trap user returned) :=
    ⟨fun r other => by rw [regs, Function.update_of_ne other], rsp⟩
  refine consistent.appendEvent returns bounded ?_
  rw [List.filterMap_append]
  by_cases read : user.regs .rax = 0
  · rw [read, handleSyscall_read] at handled
    obtain ⟨rfl, rfl⟩ := Prod.mk.inj (Except.ok.inj handled)
    have found : readResult (returned.regs .rbx) = kernel.keyboard.tryGetScancode.1 := by
      rw [regs, Function.update_self, readResult_read]
    have event : Label.keyboardEvent (.trap user returned) = some (.readByte kernel.keyboard.tryGetScancode.1) := by
      simp only [Label.keyboardEvent, read, if_true, found]
    rw [List.filterMap_cons_some event, List.filterMap_nil]
    exact KeyboardService.delivers_readByte consistent.delivers
  · have quiet : Label.keyboardEvent (.trap user returned) = none := by
      simp only [Label.keyboardEvent, read, if_false]
    rw [List.filterMap_cons_none quiet, List.filterMap_nil, List.append_nil, handleSyscall_keyboard read handled]
    exact consistent.delivers

theorem keyboardInterrupt_total {kernel : Kernel} (bounded : Screen.InBounds kernel.screen) (scancode : UInt8) :
    ∃ kernel' printed, keyboardInterrupt kernel scancode = .ok (kernel', printed) ∧ Screen.InBounds kernel'.screen := by
  obtain ⟨screen, written, bounded'⟩ := Screen.vgaWriteByte_ok bounded 75
  refine ⟨⟨(kernel.keyboard.addScancode scancode).1, screen⟩, (kernel.keyboard.addScancode scancode).2, ?_, bounded'⟩
  simp only [keyboardInterrupt, written, bind, Except.bind]
  rfl

theorem consistent_step {labels : List Label} {kernel kernel' : Kernel} {label : Label}
    (consistent : Consistent labels kernel) (step : Step kernel label kernel') : Consistent (labels ++ [label]) kernel' := by
  cases step with
  | key scancode handled => exact consistent_key consistent handled
  | trap user room clobber scratch ran => exact consistent_trap consistent room ran

theorem keys_reach_reads_in_order_through_rbx (buffer : Nat → UInt8) {labels : List Label} {kernel : Kernel}
    (trace : Trace.Run Step (bootKernel buffer) labels kernel) :
    kernel.screen.cursorRow < bufferHeight ∧ kernel.screen.cursorCol < bufferWidth ∧
    (∀ scancode, ∃ kernel' printed, keyboardInterrupt kernel scancode = .ok (kernel', printed)) ∧
    (∀ user : Machine, 8 * 17 ≤ user.rsp → ∀ clobber scratch, ∃ returned kernel',
      run (syscallDispatch clobber scratch) (user, kernel) syscallEntry = .ok (returned, kernel')) ∧
    (∀ label ∈ labels, label.Returns) ∧
    (labels.filterMap Label.keyboardEvent).filterMap KeyboardService.Event.delivered ++ kernel.keyboard.pending =
      (labels.filterMap Label.keyboardEvent).filterMap KeyboardService.Event.accepted := by
  have start : Consistent [] (bootKernel buffer) :=
    ⟨Screen.boot_inBounds buffer, rfl, fun _ member => absurd member List.not_mem_nil⟩
  obtain ⟨bounded, delivers, returns⟩ : Consistent labels kernel :=
    Trace.Run.invariant start (fun _ _ _ _ consistent step => consistent_step consistent step) trace
  refine ⟨bounded.row, bounded.col, fun scancode => ?_, fun user room clobber scratch => ?_, returns, delivers⟩
  · obtain ⟨kernel', printed, handled, -⟩ := keyboardInterrupt_total bounded scancode
    exact ⟨kernel', printed, handled⟩
  · obtain ⟨-, kernel', returned, -, -, ran, -⟩ := trap_returns bounded room clobber scratch
    exact ⟨returned, kernel', ran⟩

theorem key_then_read_from_user :
    ∃ printed returned kernel,
      Trace.Run Step (bootKernel fun _ => 0) [.key 0x1e printed, .trap ⟨fun _ => 0, 4096, fun _ => 0⟩ returned] kernel ∧
      (kernel.screen.cursorRow < bufferHeight ∧ kernel.screen.cursorCol < bufferWidth ∧
        (∀ scancode, ∃ kernel' printed, keyboardInterrupt kernel scancode = .ok (kernel', printed)) ∧
        (∀ user : Machine, 8 * 17 ≤ user.rsp → ∀ clobber scratch, ∃ returned kernel',
          run (syscallDispatch clobber scratch) (user, kernel) syscallEntry = .ok (returned, kernel')) ∧
        (∀ label ∈ [Label.key 0x1e printed, .trap ⟨fun _ => 0, 4096, fun _ => 0⟩ returned], label.Returns) ∧
        ([Label.key 0x1e printed, .trap ⟨fun _ => 0, 4096, fun _ => 0⟩ returned].filterMap
            Label.keyboardEvent).filterMap KeyboardService.Event.delivered ++ kernel.keyboard.pending =
          ([Label.key 0x1e printed, .trap ⟨fun _ => 0, 4096, fun _ => 0⟩ returned].filterMap
            Label.keyboardEvent).filterMap KeyboardService.Event.accepted) := by
  obtain ⟨pressed, printed, handled, bounded⟩ :=
    keyboardInterrupt_total (show Screen.InBounds (bootKernel fun _ => 0).screen from Screen.boot_inBounds _) 0x1e
  obtain ⟨-, kernel, returned, -, -, ran, -⟩ :=
    trap_returns bounded (show 8 * 17 ≤ (⟨fun _ => 0, 4096, fun _ => 0⟩ : Machine).rsp by decide) (fun _ => 0) fun _ => 0
  have trace : Trace.Run Step (bootKernel fun _ => 0) [.key 0x1e printed, .trap ⟨fun _ => 0, 4096, fun _ => 0⟩ returned]
      kernel :=
    (Trace.Run.single (Step.key _ 0x1e handled)).snoc (Step.trap _ _ (by decide) _ _ ran)
  exact ⟨printed, returned, kernel, trace, keys_reach_reads_in_order_through_rbx _ trace⟩

end Kernel

end Emos.Interrupts
