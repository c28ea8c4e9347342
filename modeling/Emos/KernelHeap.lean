import Mathlib
import Emos.Allocator.FixedSizeBlock
import Emos.Memory.Bringup

set_option autoImplicit false

/- The global allocator over the pages `init_heap` mapped. Once `kernel_main` has set up memory,
   `ALLOCATOR` serves every `Box` and `Vec` of the kernel from the range `HEAP_START` to
   `HEAP_START + HEAP_SIZE` it was initialized with, as long as its fallback, the external
   `linked_list_allocator::Heap`, keeps what it hands out inside the range it was given. Those
   addresses lie in pages the bring-up mapped present and writable, so no allocation the kernel
   is served, at any point of any run of allocations and deallocations, touches memory that is
   not mapped writable. -/
namespace Emos.KernelHeap

open Allocator Allocator.FixedSizeBlock Memory Paging Paging.PageTableFlags

section Allocations

variable {H : Type} (fallback : Fallback H) {Accounts : H → List (Nat × Layout) → Prop}

theorem live_within_heap (heapSound : fallback.Sound Accounts)
    (initial : Accounts (fallback.init fallback.empty heapStart heapSize) [])
    (inHeap : ∀ heap blocks, Accounts heap blocks → ∀ b ∈ blocks, (extent b).Within ⟨heapStart, heapSize⟩)
    {a : FixedSizeBlockAllocator H} {live : List (Nat × Layout)}
    (reachable : Relation.ReflTransGen (Step fallback) (kernelAllocator fallback, []) (a, live)) :
    ∀ x ∈ live, (extent x).Within ⟨heapStart, heapSize⟩ := by
  have inv := reachable_invariant fallback heapSound initial reachable
  intro x member
  have carved : fallbackBlock x ∈ outstanding a live := List.mem_append_left _ (List.mem_map_of_mem member)
  exact (extent_within_fallbackBlock x).trans (inHeap _ _ inv.accounts _ carved)

end Allocations

theorem heap_page_of_addr (shellLen : Nat) {addr : Nat} (above : heapStart ≤ addr) (below : addr < heapStart + heapSize) :
    (containingAddress addr, present ||| writable, (present ||| writable) &&& (present ||| writable ||| userAccessible)) ∈
      bringUpPasses shellLen := by
  rw [containingAddress_eq (by unfold heapStart heapSize at below; omega)]
  simp only [bringUpPasses, heapPasses, List.mem_append, List.mem_map]
  refine .inl (.inl ⟨addr / pageSize * pageSize, (Iter.mem_stepBy (by decide)).mpr ?_, rfl⟩)
  refine ⟨addr / pageSize - heapStart / pageSize, ?_, ?_⟩ <;>
    · unfold heapStart heapSize pageSize at *
      omega

theorem heap_allocations_lie_in_mapped_pages {RegionType M H : Type} [DecidableEq RegionType] (usable : RegionType)
    (memoryMap : List (MemoryRegion RegionType)) (mapper : Mapper M (BootInfoFrameAllocator RegionType))
    (sound : mapper.Sound) (fallback : Fallback H) {Accounts : H → List (Nat × Layout) → Prop}
    (heapSound : fallback.Sound Accounts) (initial : Accounts (fallback.init fallback.empty heapStart heapSize) [])
    (inHeap : ∀ heap blocks, Accounts heap blocks → ∀ b ∈ blocks, (extent b).Within ⟨heapStart, heapSize⟩)
    (m : M) (shellLen : Nat) :
    (∃ panic, bringUp usable memoryMap mapper fallback m shellLen = .error panic) ∨
    ∃ user m' frameAllocator global,
      bringUp usable memoryMap mapper fallback m shellLen = .ok (user, m', frameAllocator, global) ∧
      ∀ a live, Relation.ReflTransGen (Step fallback) (global, []) (a, live) →
        ∀ x ∈ live, ∀ addr ∈ (extent x).toSet,
          ∃ frame, mapper.translate m' (containingAddress addr) = some (frame, present ||| writable) := by
  cases returned : bringUp usable memoryMap mapper fallback m shellLen with
  | error panic => exact .inl ⟨panic, rfl⟩
  | ok result =>
      obtain ⟨user, m', frameAllocator, global⟩ := result
      obtain ⟨-, rfl, -, frames, mapped⟩ := bringUp_mapped sound returned
      refine .inr ⟨user, m', frameAllocator, _, rfl, fun a live reachable x member addr inside => ?_⟩
      have inRange := live_within_heap fallback heapSound initial inHeap reachable x member inside
      rw [Extent.mem_toSet] at inRange
      exact mapped.translated_of_mem (heap_page_of_addr shellLen inRange.1 inRange.2)

-- A heap that hands out the next aligned address below the end of its range and never reuses
-- memory: enough of `linked_list_allocator::Heap` to stand for it.
def rangeBumpFallback : Fallback (Nat × Nat) where
  empty := (0, 0)
  init := fun _ start size => (start, start + size)
  allocateFirstFit := fun heap layout =>
    if Align.roundUp heap.1 layout.align + layout.size ≤ heap.2 then
      (some (Align.roundUp heap.1 layout.align), (Align.roundUp heap.1 layout.align + layout.size, heap.2))
    else (none, heap)
  deallocate := fun heap _ _ => heap

-- The blocks out of the range heap lie between the start of the kernel heap and the heap's next
-- free address, which stays inside the range.
def rangeAccounts (heap : Nat × Nat) (blocks : List (Nat × Layout)) : Prop :=
  heapStart ≤ heap.1 ∧ heap.2 = heapStart + heapSize ∧ heap.1 ≤ heap.2 ∧
    ∀ b ∈ blocks, heapStart ≤ b.1 ∧ b.1 % b.2.align = 0 ∧ b.1 + b.2.size ≤ heap.1

theorem rangeBump_sound : rangeBumpFallback.Sound rangeAccounts where
  reorder := fun _ _ _ perm accounts =>
    ⟨accounts.1, accounts.2.1, accounts.2.2.1, fun b member => accounts.2.2.2 b (perm.mem_iff.mpr member)⟩
  allocate := by
    intro heap blocks layout ptr heap' accounts hit
    obtain ⟨low, stop, inside, placed⟩ := accounts
    simp only [rangeBumpFallback] at hit
    split at hit
    · rename_i fits
      simp only [Prod.mk.injEq, Option.some.injEq] at hit
      obtain ⟨rfl, rfl⟩ := hit
      have above := Align.le_roundUp heap.1 layout.align layout.align_pos
      have start : 0 < heapStart := by decide
      refine ⟨by omega, Nat.mod_eq_zero_of_dvd (Align.dvd_roundUp heap.1 layout.align), fun b member => ?_, ?_⟩
      · obtain ⟨-, -, before⟩ := placed b member
        rw [Extent.apart_iff]
        simp only [extent]
        omega
      · refine ⟨by omega, stop, fits, fun b member => ?_⟩
        rcases List.mem_cons.mp member with rfl | member
        · exact ⟨by omega, Nat.mod_eq_zero_of_dvd (Align.dvd_roundUp heap.1 layout.align), le_rfl⟩
        · obtain ⟨below, aligned, before⟩ := placed b member
          exact ⟨below, aligned, by omega⟩
    · simp at hit
  allocateFails := by
    intro heap blocks layout heap' accounts miss
    simp only [rangeBumpFallback] at miss
    split at miss
    · simp at miss
    · simp only [Prod.mk.injEq] at miss
      exact miss.2 ▸ accounts
  deallocate := fun _ _ _ _ accounts _ =>
    ⟨accounts.1, accounts.2.1, accounts.2.2.1, fun b member => accounts.2.2.2 b (List.mem_of_mem_erase member)⟩

theorem rangeAccounts_within (heap : Nat × Nat) (blocks : List (Nat × Layout)) (accounts : rangeAccounts heap blocks) :
    ∀ b ∈ blocks, (extent b).Within ⟨heapStart, heapSize⟩ := by
  intro b member
  obtain ⟨-, stop, inside, placed⟩ := accounts
  obtain ⟨below, -, before⟩ := placed b member
  rw [Extent.within_iff]
  simp only [extent]
  omega

theorem one_region_heap_allocations_mapped :
    let memoryMap : List (MemoryRegion Bool) := [⟨0x0010_0000, 0x0080_0000, true⟩]
    (Mapper.table (BootInfoFrameAllocator Bool)).Sound ∧ rangeBumpFallback.Sound rangeAccounts ∧
    rangeAccounts (rangeBumpFallback.init rangeBumpFallback.empty heapStart heapSize) [] ∧
    (∀ heap blocks, rangeAccounts heap blocks → ∀ b ∈ blocks, (extent b).Within ⟨heapStart, heapSize⟩) ∧
    ∃ user m' frameAllocator global,
      bringUp true memoryMap (Mapper.table _) rangeBumpFallback [] 4096 = .ok (user, m', frameAllocator, global) ∧
      ∀ a live, Relation.ReflTransGen (Step rangeBumpFallback) (global, []) (a, live) →
        ∀ x ∈ live, ∀ addr ∈ (extent x).toSet,
          ∃ frame, (Mapper.table (BootInfoFrameAllocator Bool)).translate m' (containingAddress addr) =
            some (frame, present ||| writable) := by
  intro memoryMap
  obtain ⟨_, _, returned⟩ := one_region_bringUp_returns rangeBumpFallback 4096 (by decide)
  have initial : rangeAccounts (rangeBumpFallback.init rangeBumpFallback.empty heapStart heapSize) [] :=
    ⟨le_rfl, rfl, by decide, fun _ member => absurd member List.not_mem_nil⟩
  exact ⟨Mapper.table_sound _, rangeBump_sound, initial, rangeAccounts_within,
    (heap_allocations_lie_in_mapped_pages true memoryMap _ (Mapper.table_sound _) rangeBumpFallback rangeBump_sound
      initial rangeAccounts_within [] 4096).resolve_left (Checked.not_error_of_eq_ok returned)⟩

end Emos.KernelHeap
