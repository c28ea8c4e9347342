import Mathlib
import Emos.Lib.Trace
import Emos.Interrupts

set_option autoImplicit false

/- Which interrupts reach the kernel. `init` of lib.rs loads the IDT, sets up the two chained
   8259 controllers of pic8259 and writes their masks; `kernel_main` of main.rs enables and
   disables interrupts around its set-up and leaves for ring 3 through `enter_userspace` of
   userspace.rs. The CPU takes a request on an IRQ line when its interrupt flag is set and the
   controllers leave the line open. Every gate of the IDT is an interrupt gate, so a handler
   runs with the flag clear, and `iretq` takes the privilege level and the flag back from the
   frame on the stack. -/
namespace Emos.InterruptControl

open X86 Syscalls Vga

-- The interrupt mask registers of the two controllers. A set bit closes its line.
structure ChainedPics where
  mask1 : UInt8
  mask2 : UInt8
deriving DecidableEq, Repr

namespace ChainedPics

def readMasks (self : ChainedPics) : UInt8 × UInt8 := (self.mask1, self.mask2)

def writeMasks (_ : ChainedPics) (mask1 mask2 : UInt8) : ChainedPics := ⟨mask1, mask2⟩

-- `ChainedPics::initialize` (a name Lean keeps for itself): it reprograms both controllers and
-- writes back the masks it read first.
def reprogram (self : ChainedPics) : ChainedPics :=
  let saved := self.readMasks
  self.writeMasks saved.1 saved.2

-- Lines 8 to 15 belong to the second controller, which reaches the CPU through line 2 of the
-- first.
def lineOpen (self : ChainedPics) (line : Fin 16) : Bool :=
  if line.val < 8 then !self.mask1.toNat.testBit line.val
  else !self.mask1.toNat.testBit 2 && !self.mask2.toNat.testBit (line.val - 8)

end ChainedPics

def hex2 (value : UInt8) : String :=
  let digits := Nat.toDigits 16 value.toNat
  String.ofList (List.replicate (2 - digits.length) '0' ++ digits)

-- `print_pic_masks`: the masks read back from ports 0x21 and 0xa1, and the state of IRQ1 as the
-- function judges it.
def printPicMasks (pics : ChainedPics) : List String :=
  let masks := pics.readMasks
  ["PIC1 mask: 0x" ++ hex2 masks.1 ++ " (IRQ1 keyboard: " ++
      (if masks.1 &&& 2 = 0 then "unmasked" else "masked") ++ ")",
    "PIC2 mask: 0x" ++ hex2 masks.2]

def init (pics : ChainedPics) : ChainedPics × List String :=
  let pics := pics.reprogram.writeMasks 0xfe 0xff
  (pics, printPicMasks pics)

def interruptEnableFlag (rflags : UInt64) : Bool := rflags.toNat.testBit 9

structure InterruptFrame where
  rip : UInt64
  cs : UInt64
  rflags : UInt64
  rsp : UInt64
  ss : UInt64
deriving DecidableEq, Repr

def enterUserspace (entry userStackTop : UInt64) (userCode userData : UInt16) : InterruptFrame :=
  let rspAligned := userStackTop &&& ~~~0xF
  let rsp := rspAligned - 8
  let userCs := (userCode ||| 3).toUInt64
  let userSs := (userData ||| 3).toUInt64
  -- IF=0 for bring-up
  let rflags : UInt64 := 0x002
  ⟨entry, userCs, rflags, rsp, userSs⟩

structure Cpu where
  interruptFlag : Bool
  -- the current privilege level: 0 in the kernel, 3 in user mode
  cpl : Nat
  pics : ChainedPics

-- What `iretq` takes from a frame: the privilege level from the selector, the flag from rflags.
def Cpu.resume (cpu : Cpu) (cs rflags : UInt64) : Cpu :=
  { cpu with cpl := (cs &&& 3).toNat, interruptFlag := interruptEnableFlag rflags }

structure System where
  cpu : Cpu
  kernel : Kernel

-- The system when `init` returns: in ring 0, with interrupts enabled by its last line.
def booted (pics : ChainedPics) (kernel : Kernel) : System := ⟨⟨true, 0, (init pics).1⟩, kernel⟩

inductive Label where
  | enable
  | disable
  | timer
  | key (scancode : UInt8) (printed : Option String)
  | enterUserspace (frame : InterruptFrame)
  | trap (user returned : Machine)

-- The kernel may enable or disable interrupts at any point; a timer or keyboard request is taken
-- when the CPU accepts it; `enter_userspace` runs in the kernel; a trap comes from ring 3. Vectors
-- 34 to 47 have no handler, so no step takes them.
inductive Step : System → Label → System → Prop
  | enable (s : System) (kernelMode : s.cpu.cpl = 0) :
      Step s .enable { s with cpu := { s.cpu with interruptFlag := true } }
  | disable (s : System) (kernelMode : s.cpu.cpl = 0) :
      Step s .disable { s with cpu := { s.cpu with interruptFlag := false } }
  -- `on_tick` works on the executor, which this model leaves out
  | timer (s : System) (taken : s.cpu.interruptFlag = true ∧ s.cpu.pics.lineOpen 0 = true) : Step s .timer s
  | key (s : System) (taken : s.cpu.interruptFlag = true ∧ s.cpu.pics.lineOpen 1 = true) (scancode : UInt8)
      {kernel' : Kernel} {printed : Option String}
      (handled : Interrupts.keyboardInterrupt s.kernel scancode = .ok (kernel', printed)) :
      Step s (.key scancode printed) { s with kernel := kernel' }
  | enterUserspace (s : System) (kernelMode : s.cpu.cpl = 0) (entry userStackTop : UInt64)
      (userCode userData : UInt16) :
      Step s (.enterUserspace (enterUserspace entry userStackTop userCode userData))
        { s with cpu := s.cpu.resume (enterUserspace entry userStackTop userCode userData).cs
                                     (enterUserspace entry userStackTop userCode userData).rflags }
  -- `int 0x80` pushes the interrupted selector and rflags at `rsp + 8` and `rsp + 16`; the stub
  -- runs, and `iretq` reads them back from where the stub left its stack pointer
  | trap (s : System) (userMode : s.cpu.cpl = 3) (user : Machine) (room : 8 * 17 ≤ user.rsp)
      (pushed : (user.mem (user.rsp + 8) &&& 3).toNat = s.cpu.cpl ∧
        interruptEnableFlag (user.mem (user.rsp + 16)) = s.cpu.interruptFlag)
      (clobber : Reg → UInt64) (scratch : Nat → UInt64) {returned : Machine} {kernel' : Kernel}
      (ran : run (Interrupts.syscallDispatch clobber scratch) (user, s.kernel) Interrupts.syscallEntry =
        .ok (returned, kernel')) :
      Step s (.trap user returned)
        ⟨s.cpu.resume (returned.mem (returned.rsp + 8)) (returned.mem (returned.rsp + 16)), kernel'⟩

section Facts

theorem init_pics (pics : ChainedPics) : (init pics).1 = ⟨0xfe, 0xff⟩ := rfl

theorem lineOpen_init_masks (line : Fin 16) : (⟨0xfe, 0xff⟩ : ChainedPics).lineOpen line = decide (line = 0) := by
  revert line
  decide

theorem init_printed (pics : ChainedPics) :
    (init pics).2 = ["PIC1 mask: 0xfe (IRQ1 keyboard: masked)", "PIC2 mask: 0xff"] := by
  show printPicMasks ⟨0xfe, 0xff⟩ = _
  decide

theorem Cpu.resume_self (cpu : Cpu) {cs rflags : UInt64} (ring : (cs &&& 3).toNat = cpu.cpl)
    (flag : interruptEnableFlag rflags = cpu.interruptFlag) : cpu.resume cs rflags = cpu := by
  rw [Cpu.resume, ring, flag]

theorem or_three_and_three (a : Nat) : (a ||| 3) &&& 3 = 3 := by
  apply Nat.eq_of_testBit_eq
  intro i
  simp only [Nat.testBit_and, Nat.testBit_or]
  cases Nat.testBit 3 i <;> simp

theorem enterUserspace_resume (cpu : Cpu) (entry userStackTop : UInt64) (userCode userData : UInt16) :
    cpu.resume (enterUserspace entry userStackTop userCode userData).cs
        (enterUserspace entry userStackTop userCode userData).rflags =
      { cpu with cpl := 3, interruptFlag := false } := by
  have ring : ((userCode ||| 3).toUInt64 &&& 3).toNat = 3 := by
    rw [UInt64.toNat_and, UInt16.toNat_toUInt64, UInt16.toNat_or]
    exact or_three_and_three _
  rw [Cpu.resume]
  simp only [enterUserspace, ring]
  rfl

theorem trap_resume {s : System} (bounded : Screen.InBounds s.kernel.screen) {user returned : Machine}
    (room : 8 * 17 ≤ user.rsp)
    (pushed : (user.mem (user.rsp + 8) &&& 3).toNat = s.cpu.cpl ∧
      interruptEnableFlag (user.mem (user.rsp + 16)) = s.cpu.interruptFlag)
    {clobber : Reg → UInt64} {scratch : Nat → UInt64} {kernel' : Kernel}
    (ran : run (Interrupts.syscallDispatch clobber scratch) (user, s.kernel) Interrupts.syscallEntry =
      .ok (returned, kernel')) :
    s.cpu.resume (returned.mem (returned.rsp + 8)) (returned.mem (returned.rsp + 16)) = s.cpu ∧
      Screen.InBounds kernel'.screen := by
  obtain ⟨-, handledKernel, returned', -, bounded', ran', -, rsp, above⟩ :=
    Interrupts.trap_returns bounded room clobber scratch
  obtain ⟨rfl, rfl⟩ := Prod.mk.inj (Except.ok.inj (ran.symm.trans ran'))
  rw [rsp, above _ (by omega), above _ (by omega)]
  exact ⟨s.cpu.resume_self pushed.1 pushed.2, bounded'⟩

end Facts

section Runs

-- What every run from the end of `init` keeps: the masks as `init` wrote them, ring 3 only with
-- interrupts off and for good once entered, the raw writer's cursor on the screen, no key press,
-- and no timer tick after the entry to ring 3.
structure Shut (labels : List Label) (s : System) : Prop where
  masks : s.cpu.pics = ⟨0xfe, 0xff⟩
  userQuiet : s.cpu.cpl = 3 → s.cpu.interruptFlag = false
  entered : (∃ frame, Label.enterUserspace frame ∈ labels) → s.cpu.cpl = 3
  bounded : Screen.InBounds s.kernel.screen
  noKey : ∀ scancode printed, Label.key scancode printed ∉ labels
  quietAfterEntry : ∀ pre post frame, labels = pre ++ .enterUserspace frame :: post → Label.timer ∉ post

theorem entered_of_append {labels : List Label} {label : Label} (other : ∀ frame, label ≠ .enterUserspace frame)
    (entered : ∃ frame, Label.enterUserspace frame ∈ labels ++ [label]) : ∃ frame, Label.enterUserspace frame ∈ labels := by
  obtain ⟨frame, member⟩ := entered
  rcases List.mem_append.mp member with earlier | now
  · exact ⟨frame, earlier⟩
  · exact absurd (List.mem_singleton.mp now).symm (other frame)

theorem quietAfterEntry_append {labels : List Label} {label : Label}
    (quiet : ∀ pre post frame, labels = pre ++ .enterUserspace frame :: post → Label.timer ∉ post)
    (beforeEntry : label = .timer → ∀ frame, Label.enterUserspace frame ∉ labels) :
    ∀ pre post frame, labels ++ [label] = pre ++ .enterUserspace frame :: post → Label.timer ∉ post := by
  intro pre post frame split tick
  rcases List.eq_nil_or_concat post with rfl | ⟨post, last, rfl⟩
  · exact List.not_mem_nil tick
  · rw [List.concat_eq_append, ← List.cons_append, ← List.append_assoc] at split
    rw [List.concat_eq_append] at tick
    obtain ⟨earlier, same⟩ := List.append_inj' split rfl
    rcases List.mem_append.mp tick with inPost | isLast
    · exact quiet pre post frame earlier inPost
    · have timer : label = .timer := by
        simp only [List.cons.injEq, and_true] at same
        exact same.trans (List.mem_singleton.mp isLast).symm
      exact beforeEntry timer frame (by simp [earlier])

theorem Shut.append {labels : List Label} {s s' : System} (shut : Shut labels s) {label : Label}
    (masks : s'.cpu.pics = ⟨0xfe, 0xff⟩) (userQuiet : s'.cpu.cpl = 3 → s'.cpu.interruptFlag = false)
    (entered : (∃ frame, Label.enterUserspace frame ∈ labels ++ [label]) → s'.cpu.cpl = 3)
    (bounded : Screen.InBounds s'.kernel.screen) (notKey : ∀ scancode printed, label ≠ .key scancode printed)
    (beforeEntry : label = .timer → ∀ frame, Label.enterUserspace frame ∉ labels) : Shut (labels ++ [label]) s' where
  masks := masks
  userQuiet := userQuiet
  entered := entered
  bounded := bounded
  noKey scancode printed member := by
    rcases List.mem_append.mp member with earlier | now
    · exact shut.noKey scancode printed earlier
    · exact notKey scancode printed (List.mem_singleton.mp now).symm
  quietAfterEntry := quietAfterEntry_append shut.quietAfterEntry beforeEntry

theorem Shut.kernel_step {labels : List Label} {s : System} (shut : Shut labels s) (kernelMode : s.cpu.cpl = 0)
    {label : Label} (other : ∀ frame, label ≠ .enterUserspace frame) :
    (∃ frame, Label.enterUserspace frame ∈ labels ++ [label]) → False := fun entered => by
  have ring := shut.entered (entered_of_append other entered)
  omega

theorem shut_step {labels : List Label} {s s' : System} {label : Label} (shut : Shut labels s)
    (step : Step s label s') : Shut (labels ++ [label]) s' := by
  cases step with
  | enable kernelMode =>
      refine shut.append shut.masks (fun user => by simp_all) (fun entered => ?_) shut.bounded
        (fun _ _ same => by cases same) (fun same => by cases same)
      exact (shut.kernel_step kernelMode (fun _ same => by cases same) entered).elim
  | disable kernelMode =>
      refine shut.append shut.masks (fun user => by simp_all) (fun entered => ?_) shut.bounded
        (fun _ _ same => by cases same) (fun same => by cases same)
      exact (shut.kernel_step kernelMode (fun _ same => by cases same) entered).elim
  | timer taken =>
      refine shut.append shut.masks shut.userQuiet
        (fun entered => shut.entered (entered_of_append (fun _ same => by cases same) entered)) shut.bounded
        (fun _ _ same => by cases same) fun _ frame member => ?_
      have quiet := shut.userQuiet (shut.entered ⟨frame, member⟩)
      rw [taken.1] at quiet
      cases quiet
  | key taken scancode handled =>
      have closed := taken.2
      rw [shut.masks, lineOpen_init_masks] at closed
      cases closed
  | enterUserspace kernelMode entry userStackTop userCode userData =>
      rw [enterUserspace_resume]
      exact shut.append shut.masks (fun _ => rfl) (fun _ => rfl) shut.bounded
        (fun _ _ same => by cases same) (fun same => by cases same)
  | trap userMode user room pushed clobber scratch ran =>
      obtain ⟨same, bounded⟩ := trap_resume shut.bounded room pushed ran
      refine shut.append ?_ ?_ ?_ bounded (fun _ _ same => by cases same) (fun same => by cases same)
      · rw [same]
        exact shut.masks
      · rw [same]
        exact shut.userQuiet
      · exact fun _ => by rw [same]; exact userMode

theorem shut_booted (pics : ChainedPics) {kernel : Kernel} (bounded : Screen.InBounds kernel.screen) :
    Shut [] (booted pics kernel) where
  masks := init_pics pics
  userQuiet ring := by cases ring
  entered := fun ⟨_, member⟩ => absurd member List.not_mem_nil
  bounded := bounded
  noKey _ _ member := absurd member List.not_mem_nil
  quietAfterEntry pre post frame split := absurd split.symm (by simp)

-- The kernel's view of a label: key presses and traps are the steps of the kernel that `Interrupts`
-- reasons about; the other labels leave the kernel alone.
def Label.kernelEvent : Label → Option Interrupts.Label
  | .key scancode printed => some (.key scancode printed)
  | .trap user returned => some (.trap user returned)
  | _ => none

theorem run_kernel {s s' : System} {labels : List Label} (trace : Trace.Run Step s labels s') :
    Trace.Run Interrupts.Step s.kernel (labels.filterMap Label.kernelEvent) s'.kernel := by
  refine Trace.Run.invariant (P := fun labels t => Trace.Run Interrupts.Step s.kernel
    (labels.filterMap Label.kernelEvent) t.kernel) (.nil _) (fun labels t label u before step => ?_) trace
  rw [List.filterMap_append]
  cases step with
  | key taken scancode handled => exact before.snoc (Interrupts.Step.key _ scancode handled)
  | trap userMode user room pushed clobber scratch ran =>
      exact before.snoc (Interrupts.Step.trap _ user room clobber scratch ran)
  | enable | disable | timer | enterUserspace =>
      rw [List.filterMap_cons_none rfl, List.filterMap_nil, List.append_nil]
      exact before

-- `init` leaves IRQ1 masked, so no key press is taken; after `enter_userspace` (rflags 0x002) every
-- trap returns to ring 3 with interrupts off, so no timer tick is taken either.
theorem keyboard_never_taken_and_ring_three_shuts_out_timer (pics : ChainedPics) (kernel : Kernel)
    (bounded : Screen.InBounds kernel.screen) {labels : List Label} {s : System}
    (trace : Trace.Run Step (booted pics kernel) labels s) :
    (init pics).2 = ["PIC1 mask: 0xfe (IRQ1 keyboard: masked)", "PIC2 mask: 0xff"] ∧
    (∀ scancode printed, Label.key scancode printed ∉ labels) ∧
    (∀ pre post frame, labels = pre ++ .enterUserspace frame :: post → Label.timer ∉ post) ∧
    ((∃ frame, Label.enterUserspace frame ∈ labels) → s.cpu.cpl = 3 ∧ s.cpu.interruptFlag = false) ∧
    (s.cpu.cpl = 0 → s.cpu.interruptFlag = true → Step s .timer s) ∧
    Trace.Run Interrupts.Step kernel (labels.filterMap Label.kernelEvent) s.kernel := by
  have shut : Shut labels s :=
    Trace.Run.invariant (shut_booted pics bounded) (fun _ _ _ _ shut step => shut_step shut step) trace
  refine ⟨init_printed pics, shut.noKey, shut.quietAfterEntry,
    fun entered => ⟨shut.entered entered, shut.userQuiet (shut.entered entered)⟩,
    fun _ enabled => Step.timer s ⟨enabled, ?_⟩, run_kernel trace⟩
  rw [shut.masks, lineOpen_init_masks]
  rfl

theorem tick_then_ring_three_then_trap :
    ∃ returned s, Trace.Run Step (booted ⟨0, 0⟩ (Interrupts.bootKernel fun _ => 0))
        [.timer, .enterUserspace (enterUserspace 0x400000 0x800000 0x18 0x20),
          .trap ⟨fun _ => 0, 4096, fun a => if a = 4104 then 0x1b else 0⟩ returned] s ∧
      ((init ⟨0, 0⟩).2 = ["PIC1 mask: 0xfe (IRQ1 keyboard: masked)", "PIC2 mask: 0xff"] ∧
        (∀ scancode printed, Label.key scancode printed ∉ [Label.timer,
          .enterUserspace (enterUserspace 0x400000 0x800000 0x18 0x20),
          .trap ⟨fun _ => 0, 4096, fun a => if a = 4104 then 0x1b else 0⟩ returned]) ∧
        (∀ pre post frame, [Label.timer, .enterUserspace (enterUserspace 0x400000 0x800000 0x18 0x20),
            .trap ⟨fun _ => 0, 4096, fun a => if a = 4104 then 0x1b else 0⟩ returned] =
          pre ++ .enterUserspace frame :: post → Label.timer ∉ post) ∧
        ((∃ frame, Label.enterUserspace frame ∈ [Label.timer,
            .enterUserspace (enterUserspace 0x400000 0x800000 0x18 0x20),
            .trap ⟨fun _ => 0, 4096, fun a => if a = 4104 then 0x1b else 0⟩ returned]) →
          s.cpu.cpl = 3 ∧ s.cpu.interruptFlag = false) ∧
        (s.cpu.cpl = 0 → s.cpu.interruptFlag = true → Step s .timer s) ∧
        Trace.Run Interrupts.Step (Interrupts.bootKernel fun _ => 0)
          ([Label.timer, .enterUserspace (enterUserspace 0x400000 0x800000 0x18 0x20),
            .trap ⟨fun _ => 0, 4096, fun a => if a = 4104 then 0x1b else 0⟩ returned].filterMap Label.kernelEvent)
          s.kernel) := by
  have bounded : Screen.InBounds (Interrupts.bootKernel fun _ => 0).screen := Screen.boot_inBounds _
  have ticked : Step (booted ⟨0, 0⟩ (Interrupts.bootKernel fun _ => 0)) .timer
      (booted ⟨0, 0⟩ (Interrupts.bootKernel fun _ => 0)) :=
    Step.timer _ ⟨rfl, by decide⟩
  have entered := Step.enterUserspace (booted ⟨0, 0⟩ (Interrupts.bootKernel fun _ => 0)) rfl 0x400000 0x800000 0x18 0x20
  rw [enterUserspace_resume] at entered
  obtain ⟨-, kernel', returned, -, -, ran, -⟩ := Interrupts.trap_returns bounded
    (show 8 * 17 ≤ (⟨fun _ => 0, 4096, fun a => if a = 4104 then 0x1b else 0⟩ : Machine).rsp by decide)
    (fun _ => 0) fun _ => 0
  have trapped := Step.trap { booted ⟨0, 0⟩ (Interrupts.bootKernel fun _ => 0) with
      cpu := { (booted ⟨0, 0⟩ (Interrupts.bootKernel fun _ => 0)).cpu with cpl := 3, interruptFlag := false } }
    rfl _ (by decide) ⟨by decide, by decide⟩ _ _ ran
  have trace := ((Trace.Run.single ticked).snoc entered).snoc trapped
  exact ⟨returned, _, trace, keyboard_never_taken_and_ring_three_shuts_out_timer _ _ bounded trace⟩

end Runs

end Emos.InterruptControl
