import Mathlib
import Emos.Lib.Loop
import Emos.Lib.Paging
import Emos.Memory.Bringup
import Emos.InterruptControl

set_option autoImplicit false

/- The hand-over to ring 3 at the end of `kernel_main`: `map_userspace` maps the shell and the
   user stack (`Emos.Memory.bringUp`), `load_shell_to_memory` of userspace.rs copies `SHELL_BIN`
   to `USER_SHELL_BASE`, and `enter_userspace` builds its `iretq` frame from the entry point and
   stack top `map_userspace` returned. User memory is read by virtual address, one byte per
   address; whether an address may be touched is read off the mapper's translation of its page
   and the flags there. -/
namespace Emos.Userspace

open Paging Paging.PageTableFlags Memory

def userShellBase : Nat := 0x0040_0000

def loadShellToMemory (shellBin : List UInt8) (mem : Nat → UInt8) : Nat → UInt8 :=
  (List.range shellBin.length).foldl (fun mem i => Function.update mem (userShellBase + i) (shellBin.getD i 0)) mem

theorem loadShellToMemory_eq (shellBin : List UInt8) (mem : Nat → UInt8) (addr : Nat) :
    loadShellToMemory shellBin mem addr =
      if userShellBase ≤ addr ∧ addr < userShellBase + shellBin.length then shellBin.getD (addr - userShellBase) 0
      else mem addr := by
  have offset : (userShellBase ≤ addr ∧ addr - userShellBase ∈ List.range shellBin.length) ↔
      (userShellBase ≤ addr ∧ addr < userShellBase + shellBin.length) := by
    rw [List.mem_range]
    omega
  rw [loadShellToMemory, Loop.foldl_update_offset]
  exact if_congr offset rfl rfl

section Pages

variable {shellLen : Nat}

theorem shell_page_of_addr (fits : (shellLen + 4095) / 4096 ≤ 768) {addr : Nat} (above : 0x0040_0000 ≤ addr)
    (below : addr < 0x0040_0000 + shellLen) :
    (containingAddress addr, present ||| userAccessible ||| writable, userTableFlags) ∈ bringUpPasses shellLen := by
  have inShell := containingAddress_mem_userPasses (present ||| userAccessible ||| writable) (by decide) above
    (show addr < 0x0040_0000 + (shellLen + 4095) / 4096 * pageSize by unfold pageSize; omega)
    (by unfold pageSize; omega)
  exact List.mem_append_left _ (List.mem_append_right _ inShell)

end Pages

theorem stack_page_of_addr (shellLen : Nat) {addr : Nat} (above : 0x0070_0000 ≤ addr) (below : addr < 0x0080_0000) :
    (containingAddress addr, present ||| userAccessible ||| writable ||| noExecute, userTableFlags) ∈
      bringUpPasses shellLen :=
  List.mem_append_right _ (containingAddress_mem_userPasses _ (by decide) above below (by decide))

-- An empty `SHELL_BIN` maps no shell page, so only then may the entry point be unmapped.
theorem enter_userspace_lands_on_mapped_user_pages {RegionType M H : Type} [DecidableEq RegionType]
    (usable : RegionType) (memoryMap : List (MemoryRegion RegionType))
    (mapper : Mapper M (BootInfoFrameAllocator RegionType)) (sound : mapper.Sound)
    (fallback : Allocator.FixedSizeBlock.Fallback H) (m : M) (shellLen : Nat) (userCode userData : UInt16) :
    (∃ panic, bringUp usable memoryMap mapper fallback m shellLen = .error panic) ∨
    ∃ entry stackTop m' frameAllocator global,
      bringUp usable memoryMap mapper fallback m shellLen = .ok ((entry, stackTop), m', frameAllocator, global) ∧
      let frame := InterruptControl.enterUserspace (UInt64.ofNat entry) (UInt64.ofNat stackTop) userCode userData
      (0 < shellLen → ∃ physical flags, mapper.translate m' (containingAddress frame.rip.toNat) = some (physical, flags) ∧
        flags.contains (present ||| userAccessible) = true ∧ flags.contains noExecute = false) ∧
      0x0070_0000 ≤ frame.rsp.toNat ∧
      ∀ addr, 0x0070_0000 ≤ addr → addr < frame.rsp.toNat + 8 →
        ∃ physical flags, mapper.translate m' (containingAddress addr) = some (physical, flags) ∧
          flags.contains (present ||| userAccessible ||| writable) = true ∧ flags.contains noExecute = true := by
  cases returned : bringUp usable memoryMap mapper fallback m shellLen with
  | error panic => exact .inl ⟨panic, rfl⟩
  | ok result =>
      obtain ⟨user, m', frameAllocator, global⟩ := result
      obtain ⟨rfl, -, fits, frames, mapped⟩ := bringUp_mapped sound returned
      refine .inr ⟨_, _, m', frameAllocator, global, rfl, ?_⟩
      intro frame
      have rip : frame.rip.toNat = 0x0040_0000 := rfl
      have rsp : frame.rsp.toNat = 0x007f_fff8 := rfl
      refine ⟨fun nonempty => ?_, by rw [rsp]; decide, fun addr above below => ?_⟩
      · rw [rip]
        obtain ⟨physical, translated⟩ := mapped.translated_of_mem (shell_page_of_addr fits le_rfl (by omega))
        exact ⟨physical, _, translated, by decide, by decide⟩
      · rw [rsp] at below
        obtain ⟨physical, translated⟩ := mapped.translated_of_mem (stack_page_of_addr shellLen above (by omega))
        exact ⟨physical, _, translated, by decide, by decide⟩

theorem one_region_enter_userspace :
    let memoryMap : List (MemoryRegion Bool) := [⟨0x0010_0000, 0x0080_0000, true⟩]
    (Mapper.table (BootInfoFrameAllocator Bool)).Sound ∧
    ∃ entry stackTop m' frameAllocator global,
      bringUp true memoryMap (Mapper.table _) Allocator.FixedSizeBlock.bumpFallback [] 4096 =
        .ok ((entry, stackTop), m', frameAllocator, global) ∧
      let frame := InterruptControl.enterUserspace (UInt64.ofNat entry) (UInt64.ofNat stackTop) 0x18 0x20
      (0 < 4096 → ∃ physical flags,
        (Mapper.table (BootInfoFrameAllocator Bool)).translate m' (containingAddress frame.rip.toNat) = some (physical, flags) ∧
        flags.contains (present ||| userAccessible) = true ∧ flags.contains noExecute = false) ∧
      0x0070_0000 ≤ frame.rsp.toNat ∧
      ∀ addr, 0x0070_0000 ≤ addr → addr < frame.rsp.toNat + 8 →
        ∃ physical flags,
          (Mapper.table (BootInfoFrameAllocator Bool)).translate m' (containingAddress addr) = some (physical, flags) ∧
          flags.contains (present ||| userAccessible ||| writable) = true ∧ flags.contains noExecute = true := by
  intro memoryMap
  obtain ⟨_, _, returned⟩ := one_region_bringUp_returns Allocator.FixedSizeBlock.bumpFallback 4096 (by decide)
  exact ⟨Mapper.table_sound _,
    (enter_userspace_lands_on_mapped_user_pages true memoryMap _ (Mapper.table_sound _) _ [] 4096 0x18 0x20)
      |>.resolve_left (Checked.not_error_of_eq_ok returned)⟩

-- A shell long enough to reach the user stack makes `map_userspace` panic first.
theorem shell_load_stays_in_shell_pages {RegionType M H : Type} [DecidableEq RegionType] (usable : RegionType)
    (memoryMap : List (MemoryRegion RegionType)) (mapper : Mapper M (BootInfoFrameAllocator RegionType))
    (sound : mapper.Sound) (fallback : Allocator.FixedSizeBlock.Fallback H) (m : M) (shellBin : List UInt8)
    (mem : Nat → UInt8) :
    (∃ panic, bringUp usable memoryMap mapper fallback m shellBin.length = .error panic) ∨
    ∃ m' frameAllocator global,
      bringUp usable memoryMap mapper fallback m shellBin.length =
        .ok ((userShellBase, 0x0080_0000), m', frameAllocator, global) ∧
      (∀ i (inside : i < shellBin.length), loadShellToMemory shellBin mem (userShellBase + i) = shellBin[i]) ∧
      (∀ addr, loadShellToMemory shellBin mem addr ≠ mem addr →
        ∃ physical, mapper.translate m' (containingAddress addr) = some (physical, present ||| userAccessible ||| writable)) ∧
      ∀ addr, 0x0070_0000 ≤ addr → loadShellToMemory shellBin mem addr = mem addr := by
  cases returned : bringUp usable memoryMap mapper fallback m shellBin.length with
  | error panic => exact .inl ⟨panic, rfl⟩
  | ok result =>
      obtain ⟨user, m', frameAllocator, global⟩ := result
      obtain ⟨rfl, -, fits, frames, mapped⟩ := bringUp_mapped sound returned
      have base : userShellBase = 0x0040_0000 := rfl
      refine .inr ⟨m', frameAllocator, global, rfl, fun i inside => ?_, fun addr changed => ?_, fun addr above => ?_⟩
      · rw [loadShellToMemory_eq, if_pos (by omega), Nat.add_sub_cancel_left, List.getD_eq_getElem _ _ inside]
      · rw [loadShellToMemory_eq] at changed
        by_cases written : userShellBase ≤ addr ∧ addr < userShellBase + shellBin.length
        · rw [base] at written
          exact mapped.translated_of_mem (shell_page_of_addr fits written.1 written.2)
        · exact absurd (if_neg written) changed
      · -- the shell has at most 768 pages, so it ends at 0x70_0000 at the latest
        rw [loadShellToMemory_eq, if_neg (by omega)]

theorem one_region_shell_load :
    let memoryMap : List (MemoryRegion Bool) := [⟨0x0010_0000, 0x0080_0000, true⟩]
    let shellBin : List UInt8 := [0xeb, 0xfe]
    (Mapper.table (BootInfoFrameAllocator Bool)).Sound ∧
    ∃ m' frameAllocator global,
      bringUp true memoryMap (Mapper.table _) Allocator.FixedSizeBlock.bumpFallback [] shellBin.length =
        .ok ((userShellBase, 0x0080_0000), m', frameAllocator, global) ∧
      (∀ i (inside : i < shellBin.length), loadShellToMemory shellBin (fun _ => 0) (userShellBase + i) = shellBin[i]) ∧
      (∀ addr, loadShellToMemory shellBin (fun _ => 0) addr ≠ 0 →
        ∃ physical, (Mapper.table (BootInfoFrameAllocator Bool)).translate m' (containingAddress addr) =
          some (physical, present ||| userAccessible ||| writable)) ∧
      ∀ addr, 0x0070_0000 ≤ addr → loadShellToMemory shellBin (fun _ => 0) addr = 0 := by
  intro memoryMap shellBin
  obtain ⟨_, _, returned⟩ := one_region_bringUp_returns Allocator.FixedSizeBlock.bumpFallback shellBin.length (by decide)
  exact ⟨Mapper.table_sound _,
    (shell_load_stays_in_shell_pages true memoryMap _ (Mapper.table_sound _) _ [] shellBin (fun _ => 0))
      |>.resolve_left (Checked.not_error_of_eq_ok returned)⟩

end Emos.Userspace
