import Mathlib
import Emos.Lib.Checked
import Emos.Lib.VirtAddr
import Emos.Lib.Paging
import Emos.Memory.FrameAllocator
import Emos.Allocator.FixedSizeBlock

set_option autoImplicit false

/- The page mappings `kernel_main` makes before it leaves for ring 3: `init_heap` of allocator.rs
   maps the kernel heap and hands it to the global allocator, and `map_userspace` of main.rs
   maps the shell image and the user stack. Both take a frame from the allocator for each page
   and map the page to it through the x86_64 `Mapper`; `init_heap` returns the first error,
   `map_userspace` panics on it. Between them `kernel_main` only starts the services, which map
   nothing. The mapper is any `Paging.Mapper` over the boot information frame allocator. -/
namespace Emos.Memory

open Checked Paging Paging.PageTableFlags

def bootInfoAllocator {RegionType : Type} [DecidableEq RegionType] (usable : RegionType) :
    FrameAllocator (BootInfoFrameAllocator RegionType) :=
  ⟨allocateFrame usable⟩

def pageRangeInclusive (start stop : Nat) : List Nat := Iter.stepBy start (stop + 1) pageSize

section Loops

variable {M A H : Type} (mapper : Mapper M A) (allocator : FrameAllocator A)

-- The loop of `init_heap`: `?` returns the first error.
def mapHeapPages : List Nat → M → A → Except Panic (Except MapToError (M × A))
  | [], m, a => pure (.ok (m, a))
  | page :: pages, m, a => do
      let (frame, a) ← allocator.allocateFrame a
      match frame with
      | none => pure (.error .frameAllocationFailed)
      | some frame =>
          let flags := present ||| writable
          match ← mapper.mapTo allocator m page frame flags a with
          | .error e => pure (.error e)
          | .ok (m, a) => mapHeapPages pages m a

-- `heap_start + HEAP_SIZE - 1u64`: `VirtAddr` arithmetic builds a new `VirtAddr` of the result.
def heapPageRange : Except Panic (List Nat) := do
  let heapStart ← VirtAddr.new Allocator.heapStart
  let heapEnd ← VirtAddr.new (← sub (← VirtAddr.new (← add 64 heapStart Allocator.heapSize)) 1)
  let heapStartPage := containingAddress heapStart
  let heapEndPage := containingAddress heapEnd
  pure (pageRangeInclusive heapStartPage heapEndPage)

def initHeap (fallback : Allocator.FixedSizeBlock.Fallback H) (m : M) (a : A)
    (global : Allocator.FixedSizeBlock.FixedSizeBlockAllocator H) :
    Except Panic (Except MapToError (M × A × Allocator.FixedSizeBlock.FixedSizeBlockAllocator H)) := do
  let pageRange ← heapPageRange
  match ← mapHeapPages mapper allocator pageRange m a with
  | .error e => pure (.error e)
  | .ok (m, a) => pure (.ok (m, a, Allocator.FixedSizeBlock.init fallback global Allocator.heapStart Allocator.heapSize))

def userTableFlags : PageTableFlags := present ||| writable ||| userAccessible

def userPage (base i : Nat) : Except Panic Nat := do
  let virt ← VirtAddr.new (← add 64 base (← mul 64 i 4096))
  pure (containingAddress virt)

-- One loop of `map_userspace`, over `0..count`; `expect` turns a missing frame or a failed
-- mapping into a panic with the loop's message.
def mapUserPages (base : Nat) (flags : PageTableFlags) (noFrame failed : String) :
    List Nat → M → A → Except Panic (M × A)
  | [], m, a => pure (m, a)
  | i :: rest, m, a => do
      let page ← userPage base i
      let (frame, a) ← allocator.allocateFrame a
      let frame ← expect frame noFrame
      match ← mapper.mapToWithTableFlags allocator m page frame flags userTableFlags a with
      | .error e => throw ⟨failed ++ ": " ++ e.debug⟩
      | .ok (m, a) => mapUserPages base flags noFrame failed rest m a

-- `map_userspace`: the shell's pages from 0x40_0000, then the user stack from 0x70_0000 to
-- 0x80_0000; it returns the entry point and the top of the stack.
def mapUserspace (shellLen : Nat) (m : M) (a : A) : Except Panic ((Nat × Nat) × M × A) := do
  let shellBase ← VirtAddr.new 0x0040_0000
  let numShellPages := (← add 64 shellLen 4095) / 4096
  let shellFlags := present ||| userAccessible ||| writable
  let (m, a) ← mapUserPages mapper allocator shellBase shellFlags "Unable to allocate frame for shell" "map shell page"
    (List.range numShellPages) m a
  let userStackTop ← VirtAddr.new 0x0080_0000
  let userStackBottom ← VirtAddr.new 0x0070_0000
  let stackSize ← sub userStackTop userStackBottom
  let numStackPages := (← add 64 stackSize 4095) / 4096
  let stackFlags := present ||| userAccessible ||| writable ||| noExecute
  let (m, a) ← mapUserPages mapper allocator userStackBottom stackFlags "Unable to allocate frame for user stack"
    "map stack page" (List.range numStackPages) m a
  pure ((shellBase, userStackTop), m, a)

end Loops

-- The memory set-up of `kernel_main`: the frame allocator over the boot memory map, the heap
-- through `init_heap` and its `expect`, then `map_userspace`. It returns the entry point and stack
-- top for `enter_userspace`, the page tables, the frame allocator and the global allocator.
def bringUp {RegionType M H : Type} [DecidableEq RegionType] (usable : RegionType)
    (memoryMap : List (MemoryRegion RegionType)) (mapper : Mapper M (BootInfoFrameAllocator RegionType))
    (fallback : Allocator.FixedSizeBlock.Fallback H) (m : M) (shellLen : Nat) :
    Except Panic ((Nat × Nat) × M × BootInfoFrameAllocator RegionType × Allocator.FixedSizeBlock.FixedSizeBlockAllocator H) := do
  let frameAllocator := BootInfoFrameAllocator.init memoryMap
  let heap ← initHeap mapper (bootInfoAllocator usable) fallback m frameAllocator (Allocator.FixedSizeBlock.new fallback)
  let (m, frameAllocator, global) ← match heap with
    | .ok result => pure result
    | .error e => throw ⟨"heap initialization failed: " ++ e.debug⟩
  let (user, m, frameAllocator) ← mapUserspace mapper (bootInfoAllocator usable) shellLen m frameAllocator
  pure (user, m, frameAllocator, global)

-- The passes of the bring-up, in the order it makes them: each page with its flags and the flags of
-- its parent tables. The heap goes through `map_to`, the shell's and the stack's pages through
-- `map_to_with_table_flags` with `user_table_flags`.
def heapPasses : List (Nat × PageTableFlags × PageTableFlags) :=
  (Iter.stepBy Allocator.heapStart (Allocator.heapStart + Allocator.heapSize) pageSize).map fun page =>
    (page, present ||| writable, (present ||| writable) &&& (present ||| writable ||| userAccessible))

def userPasses (base count : Nat) (flags : PageTableFlags) : List (Nat × PageTableFlags × PageTableFlags) :=
  (List.range count).map fun i => (base + i * pageSize, flags, userTableFlags)

def shellPasses (shellLen : Nat) : List (Nat × PageTableFlags × PageTableFlags) :=
  userPasses 0x0040_0000 ((shellLen + 4095) / 4096) (present ||| userAccessible ||| writable)

def stackPasses : List (Nat × PageTableFlags × PageTableFlags) :=
  userPasses 0x0070_0000 256 (present ||| userAccessible ||| writable ||| noExecute)

def bringUpPasses (shellLen : Nat) : List (Nat × PageTableFlags × PageTableFlags) :=
  heapPasses ++ shellPasses shellLen ++ stackPasses

section Runs

variable {M A H : Type} {mapper : Mapper M A} {allocator : FrameAllocator A}

theorem mapHeapPages_run {pages : List Nat} {m m' : M} {a a' : A}
    (result : mapHeapPages mapper allocator pages m a = .ok (.ok (m', a'))) :
    ∃ frames, MapRun mapper allocator (pages.map fun page =>
      (page, present ||| writable, (present ||| writable) &&& (present ||| writable ||| userAccessible))) m a frames m' a' := by
  induction pages generalizing m a with
  | nil =>
      simp only [mapHeapPages, pure, Except.pure, Except.ok.injEq, Prod.mk.injEq] at result
      obtain ⟨rfl, rfl⟩ := result
      exact ⟨[], .nil m a⟩
  | cons page pages ih =>
      obtain ⟨⟨frame, a₁⟩, allocated, rest⟩ := bind_eq_ok.mp result
      cases frame with
      | none => simp [pure, Except.pure] at rest
      | some frame =>
          obtain ⟨mapping, mapped, rest⟩ := bind_eq_ok.mp rest
          cases mapping with
          | error e => simp [pure, Except.pure] at rest
          | ok next =>
              obtain ⟨frames, run⟩ := ih rest
              exact ⟨frame :: frames, .pass allocated mapped run⟩

theorem containingAddress_eq {addr : Nat} (lt : addr < 2 ^ 64) : containingAddress addr = addr / pageSize * pageSize :=
  Align.and_complement_low_bits 64 12 addr (by decide) lt

theorem containingAddress_mem_userPasses {base count addr : Nat} (flags : PageTableFlags) (aligned : base % pageSize = 0)
    (above : base ≤ addr) (below : addr < base + count * pageSize) (fits : base + count * pageSize ≤ 2 ^ 64) :
    (containingAddress addr, flags, userTableFlags) ∈ userPasses base count flags := by
  rw [containingAddress_eq (by omega)]
  simp only [userPasses, List.mem_map, List.mem_range]
  refine ⟨addr / pageSize - base / pageSize, ?_, ?_⟩
  · unfold pageSize at *
    omega
  · have page : base + (addr / pageSize - base / pageSize) * pageSize = addr / pageSize * pageSize := by
      unfold pageSize at *
      omega
    rw [page]

theorem userPages_low {base count : Nat} (below : base + count * pageSize ≤ 2 ^ 47) :
    ∀ i ∈ List.range count, base + i * pageSize < 2 ^ 47 := by
  intro i member
  rw [List.mem_range] at member
  unfold pageSize at *
  omega

theorem userPage_of_low {base i : Nat} (aligned : base % pageSize = 0) (low : base + i * pageSize < 2 ^ 47) :
    userPage base i = .ok (base + i * pageSize) := by
  have page : pageSize = 4096 := rfl
  rw [page] at aligned low ⊢
  have offset : i * 4096 < 2 ^ 64 := by omega
  have fits : base + i * 4096 < 2 ^ 64 := by omega
  have start : containingAddress (base + i * 4096) = base + i * 4096 :=
    containingAddress_of_aligned fits (by rw [page]; omega)
  simp only [userPage, mul_of_lt 64 i 4096 offset, add_of_lt 64 base _ fits, VirtAddr.new_of_lt low, start,
    bind, Except.bind, pure, Except.pure]

theorem mapM_userPage {base : Nat} (aligned : base % pageSize = 0) {is : List Nat}
    (low : ∀ i ∈ is, base + i * pageSize < 2 ^ 47) :
    is.mapM (userPage base) = .ok (is.map fun i => base + i * pageSize) := by
  induction is with
  | nil => rfl
  | cons i is ih =>
      rw [List.mapM_cons, userPage_of_low aligned (low i List.mem_cons_self),
        ih fun j member => low j (List.mem_cons_of_mem i member)]
      rfl

theorem mapUserPages_run {base : Nat} {flags : PageTableFlags} {noFrame failed : String} {is : List Nat}
    {m m' : M} {a a' : A} (result : mapUserPages mapper allocator base flags noFrame failed is m a = .ok (m', a')) :
    ∃ pages frames, is.mapM (userPage base) = .ok pages ∧
      MapRun mapper allocator (pages.map fun page => (page, flags, userTableFlags)) m a frames m' a' := by
  induction is generalizing m a with
  | nil =>
      simp only [mapUserPages, pure, Except.pure, Except.ok.injEq, Prod.mk.injEq] at result
      obtain ⟨rfl, rfl⟩ := result
      exact ⟨[], [], rfl, .nil m a⟩
  | cons i is ih =>
      obtain ⟨page, paged, afterPage⟩ := bind_eq_ok.mp result
      obtain ⟨⟨frame, a₁⟩, allocated, afterFrame⟩ := bind_eq_ok.mp afterPage
      obtain ⟨frame', expected, afterExpect⟩ := bind_eq_ok.mp afterFrame
      have returned : frame = some frame' := by
        cases frame with
        | none => cases expected
        | some frame => cases expected; rfl
      subst returned
      obtain ⟨mapping, mapped, afterMap⟩ := bind_eq_ok.mp afterExpect
      cases mapping with
      | error e => cases afterMap
      | ok next =>
          obtain ⟨pages, frames, listed, run⟩ := ih afterMap
          refine ⟨page :: pages, frame' :: frames, ?_, .pass allocated mapped run⟩
          rw [List.mapM_cons, paged, listed]
          rfl

theorem heapPageRange_eq :
    heapPageRange = .ok (Iter.stepBy Allocator.heapStart (Allocator.heapStart + Allocator.heapSize) pageSize) := by
  decide

theorem initHeap_run {fallback : Allocator.FixedSizeBlock.Fallback H} {m m' : M} {a a' : A}
    {global global' : Allocator.FixedSizeBlock.FixedSizeBlockAllocator H}
    (result : initHeap mapper allocator fallback m a global = .ok (.ok (m', a', global'))) :
    global' = Allocator.FixedSizeBlock.init fallback global Allocator.heapStart Allocator.heapSize ∧
      ∃ frames, MapRun mapper allocator heapPasses m a frames m' a' := by
  obtain ⟨pages, ranged, afterRange⟩ := bind_eq_ok.mp result
  rw [heapPageRange_eq, Except.ok.injEq] at ranged
  subst ranged
  obtain ⟨mapping, mapped, afterMap⟩ := bind_eq_ok.mp afterRange
  cases mapping with
  | error e => cases afterMap
  | ok next =>
      simp only [pure, Except.pure, Except.ok.injEq, Prod.mk.injEq] at afterMap
      obtain ⟨rfl, rfl, rfl⟩ := afterMap
      exact ⟨rfl, mapHeapPages_run mapped⟩

theorem mapUserspace_eq (shellLen : Nat) (m : M) (a : A) :
    mapUserspace mapper allocator shellLen m a = (do
      let numShellPages := (← add 64 shellLen 4095) / 4096
      let (m, a) ← mapUserPages mapper allocator 0x0040_0000 (present ||| userAccessible ||| writable)
        "Unable to allocate frame for shell" "map shell page" (List.range numShellPages) m a
      let (m, a) ← mapUserPages mapper allocator 0x0070_0000 (present ||| userAccessible ||| writable ||| noExecute)
        "Unable to allocate frame for user stack" "map stack page" (List.range 256) m a
      pure ((0x0040_0000, 0x0080_0000), m, a)) := by
  have shellBase : VirtAddr.new 0x0040_0000 = pure 0x0040_0000 := VirtAddr.new_of_lt (by decide)
  have stackTop : VirtAddr.new 0x0080_0000 = pure 0x0080_0000 := VirtAddr.new_of_lt (by decide)
  have stackBottom : VirtAddr.new 0x0070_0000 = pure 0x0070_0000 := VirtAddr.new_of_lt (by decide)
  have stackSize : sub 0x0080_0000 0x0070_0000 = pure 0x0010_0000 := sub_of_le _ _ (by decide)
  have stackEnd : add 64 0x0010_0000 4095 = pure 0x0010_0fff := add_of_lt 64 _ _ (by decide)
  simp only [mapUserspace, shellBase, stackTop, stackBottom, stackSize, stackEnd, pure_bind]

theorem mapUserspace_run {shellLen : Nat} {m m' : M} {a a' : A} {user : Nat × Nat}
    (result : mapUserspace mapper allocator shellLen m a = .ok (user, m', a')) :
    user = (0x0040_0000, 0x0080_0000) ∧ shellLen + 4095 < 2 ^ 64 ∧
      ∃ shellPages frames, (List.range ((shellLen + 4095) / 4096)).mapM (userPage 0x0040_0000) = .ok shellPages ∧
        MapRun mapper allocator
          (shellPages.map (fun page => (page, present ||| userAccessible ||| writable, userTableFlags)) ++ stackPasses)
          m a frames m' a' := by
  rw [mapUserspace_eq] at result
  obtain ⟨total, summed, afterSum⟩ := bind_eq_ok.mp result
  obtain ⟨fits, rfl⟩ := (add_ok_iff 64 _ _ _).mp summed
  obtain ⟨⟨m₁, a₁⟩, shell, afterShell⟩ := bind_eq_ok.mp afterSum
  obtain ⟨⟨m₂, a₂⟩, stack, returned⟩ := bind_eq_ok.mp afterShell
  simp only [pure, Except.pure, Except.ok.injEq, Prod.mk.injEq] at returned
  obtain ⟨rfl, rfl, rfl⟩ := returned
  obtain ⟨shellPages, shellFrames, listed, shellRun⟩ := mapUserPages_run shell
  obtain ⟨stackPages, stackFrames, stackListed, stackRun⟩ := mapUserPages_run stack
  have stackPages_eq : stackPages = (List.range 256).map fun i => 0x0070_0000 + i * pageSize := by
    rw [mapM_userPage (by decide) (userPages_low (by decide)), Except.ok.injEq] at stackListed
    exact stackListed.symm
  rw [stackPages_eq, List.map_map] at stackRun
  exact ⟨rfl, fits, shellPages, shellFrames ++ stackFrames, listed, shellRun.append stackRun⟩

end Runs

section BringUp

variable {RegionType M H : Type} [DecidableEq RegionType] {usable : RegionType}

theorem bootInfo_allocates {a a' : BootInfoFrameAllocator RegionType} {outputs : List (Option Nat)}
    (aligned : ∀ r ∈ a.memoryMap, PageAligned r) (calls : Allocates (bootInfoAllocator usable) a outputs a') :
    a' = ⟨a.memoryMap, a.next + outputs.length⟩ ∧
      outputs = (List.range' a.next outputs.length).map fun k => (frameAddresses usable a.memoryMap)[k]? := by
  induction calls with
  | nil a => exact ⟨rfl, rfl⟩
  | call allocated _ ih =>
      obtain ⟨pulled, -, rfl⟩ := allocateFrame_eq_ok.mp allocated
      obtain ⟨rfl, rest⟩ := ih aligned
      refine ⟨by simp only [List.length_cons, Nat.add_assoc, Nat.add_comm 1], ?_⟩
      rw [List.length_cons, List.range'_succ, List.map_cons, ← rest, mapNth_frameAddresses aligned pulled]

theorem bootInfo_handed_take {memoryMap : List (MemoryRegion RegionType)} (aligned : ∀ r ∈ memoryMap, PageAligned r)
    {outputs : List (Option Nat)} {a' : BootInfoFrameAllocator RegionType}
    (calls : Allocates (bootInfoAllocator usable) (BootInfoFrameAllocator.init memoryMap) outputs a') :
    outputs.reduceOption = (frameAddresses usable memoryMap).take outputs.length := by
  obtain ⟨-, enumerated⟩ := bootInfo_allocates aligned calls
  conv_lhs => rw [enumerated]
  rw [BootInfoFrameAllocator.init, ← List.range_eq_range', Iter.reduceOption_map_getElem?]

theorem bootInfo_handed_usable {memoryMap : List (MemoryRegion RegionType)} (aligned : ∀ r ∈ memoryMap, PageAligned r)
    (disjoint : memoryMap.Pairwise (fun r s => (regionExtent r).Apart (regionExtent s)))
    {outputs : List (Option Nat)} {a' : BootInfoFrameAllocator RegionType}
    (calls : Allocates (bootInfoAllocator usable) (BootInfoFrameAllocator.init memoryMap) outputs a') :
    outputs.reduceOption.Nodup ∧ ∀ frame, some frame ∈ outputs →
      ∃ r ∈ memoryMap, r.regionType = usable ∧ r.startAddr ≤ frame ∧ frame + pageSize ≤ r.endAddr := by
  have taken := bootInfo_handed_take aligned calls
  refine ⟨taken ▸ (frameAddresses_nodup disjoint).sublist (List.take_sublist _ _), ?_⟩
  intro frame handed
  have listed : frame ∈ frameAddresses usable memoryMap := by
    have kept := List.reduceOption_mem_iff.mpr handed
    rw [taken] at kept
    exact List.mem_of_mem_take kept
  obtain ⟨r, region, kind, page⟩ := mem_frameAddresses.mp listed
  obtain ⟨-, above, below⟩ := page_within_region (aligned r region) page
  exact ⟨r, region, kind, above, below⟩

theorem bringUp_run {memoryMap : List (MemoryRegion RegionType)} {mapper : Mapper M (BootInfoFrameAllocator RegionType)}
    {fallback : Allocator.FixedSizeBlock.Fallback H} {m m' : M} {shellLen : Nat} {user : Nat × Nat}
    {frameAllocator : BootInfoFrameAllocator RegionType} {global : Allocator.FixedSizeBlock.FixedSizeBlockAllocator H}
    (result : bringUp usable memoryMap mapper fallback m shellLen = .ok (user, m', frameAllocator, global)) :
    user = (0x0040_0000, 0x0080_0000) ∧ global = Allocator.FixedSizeBlock.kernelAllocator fallback ∧
      ∃ shellPages frames, (List.range ((shellLen + 4095) / 4096)).mapM (userPage 0x0040_0000) = .ok shellPages ∧
        MapRun mapper (bootInfoAllocator usable)
          (heapPasses ++ (shellPages.map (fun page => (page, present ||| userAccessible ||| writable, userTableFlags)) ++
            stackPasses)) m (BootInfoFrameAllocator.init memoryMap) frames m' frameAllocator := by
  obtain ⟨heap, initialized, afterHeap⟩ := bind_eq_ok.mp result
  cases heap with
  | error e => cases afterHeap
  | ok mappedHeap =>
      obtain ⟨m₁, a₁, global₁⟩ := mappedHeap
      obtain ⟨rfl, heapFrames, heapRun⟩ := initHeap_run initialized
      obtain ⟨⟨m₁', a₁', global₁'⟩, unpacked, afterUnpack⟩ := bind_eq_ok.mp afterHeap
      cases unpacked
      obtain ⟨⟨user', m₂, a₂⟩, mapped, returned⟩ := bind_eq_ok.mp afterUnpack
      simp only [pure, Except.pure, Except.ok.injEq, Prod.mk.injEq] at returned
      obtain ⟨rfl, rfl, rfl, rfl⟩ := returned
      obtain ⟨rfl, -, shellPages, userFrames, listed, userRun⟩ := mapUserspace_run mapped
      exact ⟨rfl, rfl, shellPages, heapFrames ++ userFrames, listed, heapRun.append userRun⟩

theorem shell_fits_below_stack {shellLen : Nat} {shellPages : List Nat}
    (listed : (List.range ((shellLen + 4095) / 4096)).mapM (userPage 0x0040_0000) = .ok shellPages)
    (distinct : ((shellPages.map (fun page => (page, present ||| userAccessible ||| writable, userTableFlags)) ++
      stackPasses).map Prod.fst).Nodup) :
    (shellLen + 4095) / 4096 ≤ 768 ∧
      shellPages.map (fun page => (page, present ||| userAccessible ||| writable, userTableFlags)) = shellPasses shellLen := by
  have fits : (shellLen + 4095) / 4096 ≤ 768 := by
    by_contra tooLong
    have collides : userPage 0x0040_0000 768 = .ok 0x0070_0000 := userPage_of_low (by decide) (by decide)
    have inShell : 0x0070_0000 ∈ shellPages :=
      mem_of_mapM_eq_ok listed (List.mem_range.mpr (by omega)) collides
    have inStack : 0x0070_0000 ∈ stackPasses.map Prod.fst := by
      simp only [stackPasses, userPasses, List.map_map, List.mem_map, List.mem_range]
      exact ⟨0, by decide, rfl⟩
    rw [List.map_append, List.map_map, List.nodup_append] at distinct
    exact distinct.2.2 _ (by simpa using inShell) _ inStack rfl
  refine ⟨fits, ?_⟩
  rw [mapM_userPage (by decide) (userPages_low (by unfold pageSize; omega)), Except.ok.injEq] at listed
  rw [← listed, List.map_map]
  rfl

theorem bringUp_mapped {memoryMap : List (MemoryRegion RegionType)} {mapper : Mapper M (BootInfoFrameAllocator RegionType)}
    (sound : mapper.Sound) {fallback : Allocator.FixedSizeBlock.Fallback H} {m m' : M} {shellLen : Nat}
    {user : Nat × Nat} {frameAllocator : BootInfoFrameAllocator RegionType}
    {global : Allocator.FixedSizeBlock.FixedSizeBlockAllocator H}
    (result : bringUp usable memoryMap mapper fallback m shellLen = .ok (user, m', frameAllocator, global)) :
    user = (0x0040_0000, 0x0080_0000) ∧ global = Allocator.FixedSizeBlock.kernelAllocator fallback ∧
      (shellLen + 4095) / 4096 ≤ 768 ∧
      ∃ frames, Mapped mapper (bootInfoAllocator usable) (bringUpPasses shellLen) m
        (BootInfoFrameAllocator.init memoryMap) frames m' frameAllocator := by
  obtain ⟨rfl, rfl, shellPages, frames, listed, run⟩ := bringUp_run result
  have mapped := run.mapped sound
  have userDistinct := (List.nodup_append.mp (List.map_append ▸ mapped.distinct)).2.1
  obtain ⟨fits, shell⟩ := shell_fits_below_stack listed userDistinct
  rw [shell, ← List.append_assoc] at mapped
  exact ⟨rfl, rfl, fits, frames, mapped⟩

end BringUp

section Enough

/- The other direction: with every page table in place, none of the bring-up's pages mapped
   before and enough usable frames, every loop of the bring-up runs to its end. -/

variable {RegionType M : Type} [DecidableEq RegionType] {usable : RegionType} {memoryMap : List (MemoryRegion RegionType)}
  {mapper : Mapper M (BootInfoFrameAllocator RegionType)}

theorem allocateFrame_of_lt (aligned : ∀ r ∈ memoryMap, PageAligned r) (physical : ∀ r ∈ memoryMap, r.endAddr ≤ 2 ^ 52)
    {next : Nat} (left : next < (frameAddresses usable memoryMap).length) (room : next + 1 < 2 ^ 64) :
    (bootInfoAllocator usable).allocateFrame ⟨memoryMap, next⟩ =
      .ok (some (frameAddresses usable memoryMap)[next], ⟨memoryMap, next + 1⟩) := by
  have converted : ∀ addr ∈ frameAddresses usable memoryMap, frameOfAddress addr = .ok addr := by
    intro addr member
    obtain ⟨r, region, -, page⟩ := mem_frameAddresses.mp member
    obtain ⟨onPage, -, below⟩ := page_within_region (aligned r region) page
    have canonical : addr < 2 ^ 52 := by
      have top := physical r region
      unfold pageSize at below
      omega
    exact (frameOfAddress_ok_iff addr addr).mpr
      ⟨canonical, (containingAddress_of_aligned (Nat.lt_trans canonical (by decide)) onPage).symm⟩
  refine allocateFrame_eq_ok.mpr ⟨?_, room, rfl⟩
  rw [Iter.mapNth_eq_ok id converted, List.getElem?_eq_getElem left]
  rfl

section InPlace

variable (sound : mapper.Sound) (inPlace : mapper.TablesInPlace)
  (aligned : ∀ r ∈ memoryMap, PageAligned r) (physical : ∀ r ∈ memoryMap, r.endAddr ≤ 2 ^ 52)
include sound inPlace aligned physical

theorem mapHeapPages_inPlace (pages : List Nat) (next : Nat) {m : M} (distinct : pages.Nodup)
    (unmapped : ∀ page ∈ pages, mapper.translate m page = none)
    (enough : next + pages.length ≤ (frameAddresses usable memoryMap).length) (room : next + pages.length < 2 ^ 64) :
    ∃ m', mapHeapPages mapper (bootInfoAllocator usable) pages m ⟨memoryMap, next⟩ =
        .ok (.ok (m', ⟨memoryMap, next + pages.length⟩)) ∧
      ∀ page, page ∉ pages → mapper.translate m' page = mapper.translate m page := by
  induction pages generalizing m next with
  | nil => exact ⟨m, rfl, fun _ _ => rfl⟩
  | cons page pages ih =>
      obtain ⟨fresh, distinct⟩ := List.nodup_cons.mp distinct
      rw [List.length_cons] at enough room
      have left : next < (frameAddresses usable memoryMap).length := by omega
      have allocated := allocateFrame_of_lt aligned physical left (by omega)
      obtain ⟨m₁, mapped, others⟩ := inPlace.maps_keeping sound (bootInfoAllocator usable)
        (frameAddresses usable memoryMap)[next] (present ||| writable)
        ((present ||| writable) &&& (present ||| writable ||| userAccessible)) ⟨memoryMap, next + 1⟩
        (unmapped page List.mem_cons_self)
      have later : ∀ p ∈ pages, mapper.translate m₁ p = none := by
        intro p member
        rw [others p fun same => fresh (same ▸ member)]
        exact unmapped p (List.mem_cons_of_mem page member)
      obtain ⟨m', rest, kept⟩ := ih (next + 1) distinct later (by omega) (by omega)
      refine ⟨m', ?_, fun p absent => ?_⟩
      · rw [List.length_cons, show next + (pages.length + 1) = next + 1 + pages.length by omega, mapHeapPages,
          allocated, ok_bind]
        exact (congrArg (· >>= _) mapped).trans rest
      · rw [kept p fun member => absent (List.mem_cons_of_mem page member),
          others p fun same => absent (same ▸ List.mem_cons_self)]

theorem mapUserPages_inPlace (base : Nat) (flags : PageTableFlags) (noFrame failed : String) (is : List Nat)
    (next : Nat) {m : M} (baseAligned : base % pageSize = 0) (low : ∀ i ∈ is, base + i * pageSize < 2 ^ 47)
    (distinct : (is.map fun i => base + i * pageSize).Nodup)
    (unmapped : ∀ i ∈ is, mapper.translate m (base + i * pageSize) = none)
    (enough : next + is.length ≤ (frameAddresses usable memoryMap).length) (room : next + is.length < 2 ^ 64) :
    ∃ m', mapUserPages mapper (bootInfoAllocator usable) base flags noFrame failed is m ⟨memoryMap, next⟩ =
        .ok (m', ⟨memoryMap, next + is.length⟩) ∧
      ∀ page, (∀ i ∈ is, page ≠ base + i * pageSize) → mapper.translate m' page = mapper.translate m page := by
  induction is generalizing m next with
  | nil => exact ⟨m, rfl, fun _ _ => rfl⟩
  | cons i is ih =>
      rw [List.map_cons, List.nodup_cons] at distinct
      obtain ⟨fresh, distinct⟩ := distinct
      rw [List.length_cons] at enough room
      have left : next < (frameAddresses usable memoryMap).length := by omega
      have allocated := allocateFrame_of_lt aligned physical left (by omega)
      have paged := userPage_of_low baseAligned (low i List.mem_cons_self)
      obtain ⟨m₁, mapped, others⟩ := inPlace.maps_keeping sound (bootInfoAllocator usable)
        (frameAddresses usable memoryMap)[next] flags userTableFlags ⟨memoryMap, next + 1⟩ (unmapped i List.mem_cons_self)
      have later : ∀ j ∈ is, mapper.translate m₁ (base + j * pageSize) = none := by
        intro j member
        rw [others _ fun same => fresh (same ▸ List.mem_map_of_mem member)]
        exact unmapped j (List.mem_cons_of_mem i member)
      obtain ⟨m', rest, kept⟩ :=
        ih (next + 1) (fun j member => low j (List.mem_cons_of_mem i member)) distinct later (by omega) (by omega)
      refine ⟨m', ?_, fun p apart => ?_⟩
      · rw [List.length_cons, show next + (is.length + 1) = next + 1 + is.length by omega]
        simp only [mapUserPages, paged, allocated, expect_some, mapped, ok_bind]
        exact rest
      · rw [kept p fun j member => apart j (List.mem_cons_of_mem i member), others p (apart i List.mem_cons_self)]

end InPlace

theorem userPages_nodup (base count : Nat) : ((List.range count).map fun i => base + i * pageSize).Nodup :=
  List.nodup_range.map fun i j same => by
    unfold pageSize at same
    omega

theorem heap_above_user {page : Nat}
    (member : page ∈ Iter.stepBy Allocator.heapStart (Allocator.heapStart + Allocator.heapSize) pageSize) :
    0x0080_0000 ≤ page := by
  obtain ⟨k, rfl, -⟩ := (Iter.mem_stepBy (by decide)).mp member
  unfold Allocator.heapStart
  omega

theorem bringUpPasses_length (shellLen : Nat) :
    (bringUpPasses shellLen).length = 25 + (shellLen + 4095) / 4096 + 256 := by
  have heapCount : heapPasses.length = 25 := by decide
  simp only [bringUpPasses, List.length_append, heapCount, shellPasses, stackPasses, userPasses, List.length_map,
    List.length_range]

theorem userPasses_below {shellLen : Nat} (fits : (shellLen + 4095) / 4096 ≤ 768)
    {pass : Nat × PageTableFlags × PageTableFlags} (member : pass ∈ shellPasses shellLen ++ stackPasses) :
    pass.1 < 0x0080_0000 := by
  simp only [shellPasses, stackPasses, userPasses, List.mem_append, List.mem_map, List.mem_range] at member
  rcases member with ⟨i, inside, rfl⟩ | ⟨i, inside, rfl⟩ <;>
  · unfold pageSize
    omega

section InPlace

variable (sound : mapper.Sound) (inPlace : mapper.TablesInPlace)
  (aligned : ∀ r ∈ memoryMap, PageAligned r) (physical : ∀ r ∈ memoryMap, r.endAddr ≤ 2 ^ 52)
include sound inPlace aligned physical

theorem initHeap_inPlace {H : Type} (fallback : Allocator.FixedSizeBlock.Fallback H)
    (global : Allocator.FixedSizeBlock.FixedSizeBlockAllocator H) {m : M}
    (unmapped : ∀ pass ∈ heapPasses, mapper.translate m pass.1 = none)
    (enough : 25 ≤ (frameAddresses usable memoryMap).length) :
    ∃ m₁, initHeap mapper (bootInfoAllocator usable) fallback m (BootInfoFrameAllocator.init memoryMap) global =
        .ok (.ok (m₁, ⟨memoryMap, 25⟩,
          Allocator.FixedSizeBlock.init fallback global Allocator.heapStart Allocator.heapSize)) ∧
      ∀ page < 0x0080_0000, mapper.translate m₁ page = mapper.translate m page := by
  have heapCount : (Iter.stepBy Allocator.heapStart (Allocator.heapStart + Allocator.heapSize) pageSize).length = 25 := by
    decide
  obtain ⟨m₁, heapRun, heapKept⟩ := mapHeapPages_inPlace sound inPlace aligned physical
    (Iter.stepBy Allocator.heapStart (Allocator.heapStart + Allocator.heapSize) pageSize) 0 (Iter.stepBy_nodup (by decide))
    (fun page member => unmapped _ (List.mem_map_of_mem member)) (by rw [heapCount]; omega) (by rw [heapCount]; decide)
  rw [heapCount, Nat.zero_add] at heapRun
  refine ⟨m₁, ?_, fun page below => heapKept page fun heap => absurd (heap_above_user heap) (by omega)⟩
  simp only [initHeap, heapPageRange_eq, ok_bind, BootInfoFrameAllocator.init, heapRun]
  rfl

theorem mapUserspace_inPlace {shellLen next : Nat} {m : M} (fits : (shellLen + 4095) / 4096 ≤ 768)
    (unmapped : ∀ pass ∈ shellPasses shellLen ++ stackPasses, mapper.translate m pass.1 = none)
    (enough : next + (shellLen + 4095) / 4096 + 256 ≤ (frameAddresses usable memoryMap).length)
    (room : next + (shellLen + 4095) / 4096 + 256 < 2 ^ 64) :
    ∃ m', mapUserspace mapper (bootInfoAllocator usable) shellLen m ⟨memoryMap, next⟩ =
      .ok ((0x0040_0000, 0x0080_0000), m', ⟨memoryMap, next + (shellLen + 4095) / 4096 + 256⟩) := by
  have shellCount : (List.range ((shellLen + 4095) / 4096)).length = (shellLen + 4095) / 4096 := List.length_range
  obtain ⟨m₁, shellRun, shellKept⟩ := mapUserPages_inPlace sound inPlace aligned physical 0x0040_0000
    (present ||| userAccessible ||| writable) "Unable to allocate frame for shell" "map shell page"
    (List.range ((shellLen + 4095) / 4096)) next (by decide) (userPages_low (by unfold pageSize; omega))
    (userPages_nodup _ _) (fun i member => unmapped _ (List.mem_append_left _ (List.mem_map_of_mem member)))
    (show _ ≤ (frameAddresses usable memoryMap).length by rw [shellCount]; omega) (by rw [shellCount]; omega)
  rw [shellCount] at shellRun
  have stackFree : ∀ i ∈ List.range 256, mapper.translate m₁ (0x0070_0000 + i * pageSize) = none := by
    intro i member
    rw [shellKept _ fun j shell => by rw [List.mem_range] at member shell; unfold pageSize; omega]
    exact unmapped _ (List.mem_append_right _ (List.mem_map_of_mem member))
  obtain ⟨m₂, stackRun, -⟩ := mapUserPages_inPlace sound inPlace aligned physical 0x0070_0000
    (present ||| userAccessible ||| writable ||| noExecute) "Unable to allocate frame for user stack" "map stack page"
    (List.range 256) (next + (shellLen + 4095) / 4096) (by decide) (userPages_low (by decide)) (userPages_nodup _ _)
    stackFree (show _ ≤ (frameAddresses usable memoryMap).length by rw [List.length_range]; omega)
    (by rw [List.length_range]; omega)
  rw [List.length_range] at stackRun
  refine ⟨m₂, ?_⟩
  rw [mapUserspace_eq, add_of_lt 64 _ _ (by omega)]
  simp only [ok_bind, shellRun, stackRun]
  rfl

theorem bringUp_inPlace {H : Type} (fallback : Allocator.FixedSizeBlock.Fallback H) {shellLen : Nat} {m : M}
    (fits : (shellLen + 4095) / 4096 ≤ 768) (unmapped : ∀ pass ∈ bringUpPasses shellLen, mapper.translate m pass.1 = none)
    (enough : (bringUpPasses shellLen).length ≤ (frameAddresses usable memoryMap).length) :
    ∃ m' frameAllocator, bringUp usable memoryMap mapper fallback m shellLen =
      .ok ((0x0040_0000, 0x0080_0000), m', frameAllocator, Allocator.FixedSizeBlock.kernelAllocator fallback) := by
  rw [bringUpPasses_length] at enough
  obtain ⟨m₁, heapRun, heapKept⟩ := initHeap_inPlace sound inPlace aligned physical fallback
    (Allocator.FixedSizeBlock.new fallback)
    (fun pass member => unmapped pass (List.mem_append_left _ (List.mem_append_left _ member)))
    (show 25 ≤ (frameAddresses usable memoryMap).length by omega)
  have userFree : ∀ pass ∈ shellPasses shellLen ++ stackPasses, mapper.translate m₁ pass.1 = none := by
    intro pass member
    rw [heapKept _ (userPasses_below fits member)]
    exact unmapped pass (by rw [bringUpPasses, List.append_assoc]; exact List.mem_append_right _ member)
  obtain ⟨m', userRun⟩ := mapUserspace_inPlace sound inPlace aligned physical fits userFree (by omega) (by omega)
  refine ⟨m', ⟨memoryMap, 25 + (shellLen + 4095) / 4096 + 256⟩, ?_⟩
  simp only [bringUp, heapRun, ok_bind, pure_bind, userRun]
  rfl

end InPlace

end Enough

theorem one_region_bringUp_returns {H : Type} (fallback : Allocator.FixedSizeBlock.Fallback H) (shellLen : Nat)
    (fits : (shellLen + 4095) / 4096 ≤ 768) :
    ∃ m' frameAllocator, bringUp true [⟨0x0010_0000, 0x0080_0000, true⟩] (Mapper.table _) fallback [] shellLen =
      .ok ((0x0040_0000, 0x0080_0000), m', frameAllocator, Allocator.FixedSizeBlock.kernelAllocator fallback) := by
  have frames : (frameAddresses true [⟨0x0010_0000, 0x0080_0000, true⟩]).length = 1792 := by
    simp [frameAddresses, Iter.stepBy, pageSize]
  have enough : (bringUpPasses shellLen).length ≤ (frameAddresses true [⟨0x0010_0000, 0x0080_0000, true⟩]).length := by
    rw [bringUpPasses_length, frames]
    omega
  exact bringUp_inPlace (Mapper.table_sound _) (Mapper.table_tablesInPlace _) (by decide) (by decide) fallback fits
    (fun _ _ => rfl) enough

theorem bring_up_maps_heap_shell_and_stack {RegionType M H : Type} [DecidableEq RegionType] (usable : RegionType)
    (memoryMap : List (MemoryRegion RegionType)) (mapper : Mapper M (BootInfoFrameAllocator RegionType))
    (sound : mapper.Sound) (fallback : Allocator.FixedSizeBlock.Fallback H) (m : M) (shellLen : Nat) :
    (∃ panic, bringUp usable memoryMap mapper fallback m shellLen = .error panic) ∨
    ∃ m' frameAllocator frames,
      bringUp usable memoryMap mapper fallback m shellLen =
        .ok ((0x0040_0000, 0x0080_0000), m', frameAllocator, Allocator.FixedSizeBlock.kernelAllocator fallback) ∧
      (shellLen + 4095) / 4096 ≤ 768 ∧
      Mapped mapper (bootInfoAllocator usable) (bringUpPasses shellLen) m (BootInfoFrameAllocator.init memoryMap)
        frames m' frameAllocator := by
  cases returned : bringUp usable memoryMap mapper fallback m shellLen with
  | error panic => exact .inl ⟨panic, rfl⟩
  | ok result =>
      obtain ⟨user, m', frameAllocator, global⟩ := result
      obtain ⟨rfl, rfl, fits, frames, mapped⟩ := bringUp_mapped sound returned
      exact .inr ⟨m', frameAllocator, frames, rfl, fits, mapped⟩

theorem one_region_bring_up_mapped :
    let memoryMap : List (MemoryRegion Bool) := [⟨0x0010_0000, 0x0080_0000, true⟩]
    (Mapper.table (BootInfoFrameAllocator Bool)).Sound ∧
    ∃ m' frameAllocator frames,
      bringUp true memoryMap (Mapper.table _) Allocator.FixedSizeBlock.bumpFallback [] 4096 =
        .ok ((0x0040_0000, 0x0080_0000), m', frameAllocator,
          Allocator.FixedSizeBlock.kernelAllocator Allocator.FixedSizeBlock.bumpFallback) ∧
      (4096 + 4095) / 4096 ≤ 768 ∧
      Mapped (Mapper.table _) (bootInfoAllocator true) (bringUpPasses 4096) [] (BootInfoFrameAllocator.init memoryMap)
        frames m' frameAllocator := by
  intro memoryMap
  obtain ⟨_, _, returned⟩ := one_region_bringUp_returns Allocator.FixedSizeBlock.bumpFallback 4096 (by decide)
  exact ⟨Mapper.table_sound _, (bring_up_maps_heap_shell_and_stack true memoryMap _ (Mapper.table_sound _) _ [] 4096)
    |>.resolve_left (not_error_of_eq_ok returned)⟩

theorem bring_up_frames_distinct_and_usable {RegionType M H : Type} [DecidableEq RegionType] (usable : RegionType)
    (memoryMap : List (MemoryRegion RegionType)) (aligned : ∀ r ∈ memoryMap, PageAligned r)
    (disjoint : memoryMap.Pairwise (fun r s => (regionExtent r).Apart (regionExtent s)))
    (mapper : Mapper M (BootInfoFrameAllocator RegionType)) (sound : mapper.Sound)
    (fallback : Allocator.FixedSizeBlock.Fallback H) (m : M) (shellLen : Nat) :
    (∃ panic, bringUp usable memoryMap mapper fallback m shellLen = .error panic) ∨
    ∃ user m' frameAllocator global frames tables,
      bringUp usable memoryMap mapper fallback m shellLen = .ok (user, m', frameAllocator, global) ∧
      Allocates (bootInfoAllocator usable) (BootInfoFrameAllocator.init memoryMap) (passOutputs frames tables)
        frameAllocator ∧
      (∀ pass ∈ (bringUpPasses shellLen).zip frames, mapper.translate m' pass.1.1 = some (pass.2, pass.1.2.1)) ∧
      frames.Nodup ∧
      ∀ frame ∈ frames, some frame ∉ tables.flatten ∧
        ∃ r ∈ memoryMap, r.regionType = usable ∧ r.startAddr ≤ frame ∧ frame + pageSize ≤ r.endAddr := by
  cases returned : bringUp usable memoryMap mapper fallback m shellLen with
  | error panic => exact .inl ⟨panic, rfl⟩
  | ok result =>
      obtain ⟨user, m', frameAllocator, global⟩ := result
      obtain ⟨-, -, -, frames, mapped⟩ := bringUp_mapped sound returned
      obtain ⟨tables, count, handed⟩ := mapped.handed
      have paired : frames.length = tables.length := mapped.length.trans count.symm
      obtain ⟨once, inRegion⟩ := bootInfo_handed_usable aligned disjoint handed
      obtain ⟨distinct, apart⟩ := passOutputs_frames_apart paired once
      refine .inr ⟨user, m', frameAllocator, global, frames, tables, rfl, handed, mapped.translated, distinct, ?_⟩
      intro frame member
      exact ⟨apart frame member, inRegion frame (mem_passOutputs_of_frame paired member)⟩

theorem one_region_bring_up_frames :
    let memoryMap : List (MemoryRegion Bool) := [⟨0x0010_0000, 0x0080_0000, true⟩]
    (∀ r ∈ memoryMap, PageAligned r) ∧ memoryMap.Pairwise (fun r s => (regionExtent r).Apart (regionExtent s)) ∧
    (Mapper.table (BootInfoFrameAllocator Bool)).Sound ∧
    ∃ user m' frameAllocator global frames tables,
      bringUp true memoryMap (Mapper.table _) Allocator.FixedSizeBlock.bumpFallback [] 4096 =
        .ok (user, m', frameAllocator, global) ∧
      Allocates (bootInfoAllocator true) (BootInfoFrameAllocator.init memoryMap) (passOutputs frames tables)
        frameAllocator ∧
      (∀ pass ∈ (bringUpPasses 4096).zip frames,
        (Mapper.table (BootInfoFrameAllocator Bool)).translate m' pass.1.1 = some (pass.2, pass.1.2.1)) ∧
      frames.Nodup ∧
      ∀ frame ∈ frames, some frame ∉ tables.flatten ∧
        ∃ r ∈ memoryMap, r.regionType = true ∧ r.startAddr ≤ frame ∧ frame + pageSize ≤ r.endAddr := by
  intro memoryMap
  obtain ⟨_, _, returned⟩ := one_region_bringUp_returns Allocator.FixedSizeBlock.bumpFallback 4096 (by decide)
  exact ⟨by decide, by decide, Mapper.table_sound _,
    (bring_up_frames_distinct_and_usable true memoryMap (by decide) (by decide) _ (Mapper.table_sound _) _ [] 4096)
      |>.resolve_left (not_error_of_eq_ok returned)⟩

-- The boot allocator keeps no record of what it handed out, yet what it hands out later avoids
-- every frame of the bring-up.
theorem later_frames_never_reuse_bring_up_frames {RegionType M H : Type} [DecidableEq RegionType]
    (usable : RegionType) (memoryMap : List (MemoryRegion RegionType)) (aligned : ∀ r ∈ memoryMap, PageAligned r)
    (disjoint : memoryMap.Pairwise (fun r s => (regionExtent r).Apart (regionExtent s)))
    (mapper : Mapper M (BootInfoFrameAllocator RegionType)) (sound : mapper.Sound)
    (fallback : Allocator.FixedSizeBlock.Fallback H) (m : M) (shellLen : Nat) :
    (∃ panic, bringUp usable memoryMap mapper fallback m shellLen = .error panic) ∨
    ∃ user m' frameAllocator global frames tables,
      bringUp usable memoryMap mapper fallback m shellLen = .ok (user, m', frameAllocator, global) ∧
      Allocates (bootInfoAllocator usable) (BootInfoFrameAllocator.init memoryMap) (passOutputs frames tables)
        frameAllocator ∧
      (∀ pass ∈ (bringUpPasses shellLen).zip frames, mapper.translate m' pass.1.1 = some (pass.2, pass.1.2.1)) ∧
      ∀ later allocator', Allocates (bootInfoAllocator usable) frameAllocator later allocator' →
        ∀ frame, some frame ∈ later → frame ∉ frames ∧ some frame ∉ tables.flatten := by
  cases returned : bringUp usable memoryMap mapper fallback m shellLen with
  | error panic => exact .inl ⟨panic, rfl⟩
  | ok result =>
      obtain ⟨user, m', frameAllocator, global⟩ := result
      obtain ⟨-, -, -, frames, mapped⟩ := bringUp_mapped sound returned
      obtain ⟨tables, count, handed⟩ := mapped.handed
      have paired : frames.length = tables.length := mapped.length.trans count.symm
      refine .inr ⟨user, m', frameAllocator, global, frames, tables, rfl, handed, mapped.translated, ?_⟩
      intro later allocator' calls frame member
      obtain ⟨once, -⟩ := bootInfo_handed_usable aligned disjoint (handed.append calls)
      rw [List.reduceOption_append, List.nodup_append] at once
      obtain ⟨-, -, apart⟩ := once
      have again : frame ∈ later.reduceOption := List.reduceOption_mem_iff.mpr member
      refine ⟨fun inFrames => ?_, fun inTables => ?_⟩
      · exact apart frame (List.reduceOption_mem_iff.mpr (mem_passOutputs_of_frame paired inFrames)) frame again rfl
      · exact apart frame (List.reduceOption_mem_iff.mpr (mem_passOutputs_of_table paired inTables)) frame again rfl

theorem one_region_later_frames :
    let memoryMap : List (MemoryRegion Bool) := [⟨0x0010_0000, 0x0080_0000, true⟩]
    (∀ r ∈ memoryMap, PageAligned r) ∧ memoryMap.Pairwise (fun r s => (regionExtent r).Apart (regionExtent s)) ∧
    (Mapper.table (BootInfoFrameAllocator Bool)).Sound ∧
    ∃ user m' frameAllocator global frames tables,
      bringUp true memoryMap (Mapper.table _) Allocator.FixedSizeBlock.bumpFallback [] 4096 =
        .ok (user, m', frameAllocator, global) ∧
      Allocates (bootInfoAllocator true) (BootInfoFrameAllocator.init memoryMap) (passOutputs frames tables)
        frameAllocator ∧
      (∀ pass ∈ (bringUpPasses 4096).zip frames,
        (Mapper.table (BootInfoFrameAllocator Bool)).translate m' pass.1.1 = some (pass.2, pass.1.2.1)) ∧
      ∀ later allocator', Allocates (bootInfoAllocator true) frameAllocator later allocator' →
        ∀ frame, some frame ∈ later → frame ∉ frames ∧ some frame ∉ tables.flatten := by
  intro memoryMap
  obtain ⟨_, _, returned⟩ := one_region_bringUp_returns Allocator.FixedSizeBlock.bumpFallback 4096 (by decide)
  exact ⟨by decide, by decide, Mapper.table_sound _,
    (later_frames_never_reuse_bring_up_frames true memoryMap (by decide) (by decide) _ (Mapper.table_sound _) _ [] 4096)
      |>.resolve_left (not_error_of_eq_ok returned)⟩

theorem bring_up_returns_iff_shell_fits_and_frames_suffice {RegionType M H : Type} [DecidableEq RegionType]
    (usable : RegionType) (memoryMap : List (MemoryRegion RegionType)) (aligned : ∀ r ∈ memoryMap, PageAligned r)
    (physical : ∀ r ∈ memoryMap, r.endAddr ≤ 2 ^ 52) (mapper : Mapper M (BootInfoFrameAllocator RegionType))
    (sound : mapper.Sound) (inPlace : mapper.TablesInPlace) (fallback : Allocator.FixedSizeBlock.Fallback H)
    (shellLen : Nat) (m : M) (unmapped : ∀ pass ∈ bringUpPasses shellLen, mapper.translate m pass.1 = none) :
    (∃ user m' frameAllocator global,
      bringUp usable memoryMap mapper fallback m shellLen = .ok (user, m', frameAllocator, global)) ↔
    (shellLen + 4095) / 4096 ≤ 768 ∧ 25 + (shellLen + 4095) / 4096 + 256 ≤ (frameAddresses usable memoryMap).length := by
  rw [← bringUpPasses_length]
  constructor
  · rintro ⟨user, m', frameAllocator, global, returned⟩
    obtain ⟨-, -, fits, frames, mapped⟩ := bringUp_mapped sound returned
    obtain ⟨tables, count, handed⟩ := mapped.handed
    refine ⟨fits, ?_⟩
    calc (bringUpPasses shellLen).length
        = frames.length := mapped.length.symm
      _ ≤ (passOutputs frames tables).reduceOption.length :=
          length_le_reduceOption_passOutputs (mapped.length.trans count.symm)
      _ ≤ (frameAddresses usable memoryMap).length := by
          rw [bootInfo_handed_take aligned handed]
          exact List.length_take_le' _ _
  · rintro ⟨fits, enough⟩
    obtain ⟨m', frameAllocator, returned⟩ := bringUp_inPlace sound inPlace aligned physical fallback fits unmapped enough
    exact ⟨_, m', frameAllocator, _, returned⟩

theorem one_region_bring_up_iff :
    let memoryMap : List (MemoryRegion Bool) := [⟨0x0010_0000, 0x0030_0000, true⟩]
    (∀ r ∈ memoryMap, PageAligned r) ∧ (∀ r ∈ memoryMap, r.endAddr ≤ 2 ^ 52) ∧
    (Mapper.table (BootInfoFrameAllocator Bool)).Sound ∧ (Mapper.table (BootInfoFrameAllocator Bool)).TablesInPlace ∧
    (∀ pass ∈ bringUpPasses 4096, (Mapper.table (BootInfoFrameAllocator Bool)).translate [] pass.1 = none) ∧
    ((∃ user m' frameAllocator global,
      bringUp true memoryMap (Mapper.table _) Allocator.FixedSizeBlock.bumpFallback [] 4096 =
        .ok (user, m', frameAllocator, global)) ↔
      (4096 + 4095) / 4096 ≤ 768 ∧ 25 + (4096 + 4095) / 4096 + 256 ≤ (frameAddresses true memoryMap).length) :=
  ⟨by decide, by decide, Mapper.table_sound _, Mapper.table_tablesInPlace _, fun _ _ => rfl,
    bring_up_returns_iff_shell_fits_and_frames_suffice true _ (by decide) (by decide) _ (Mapper.table_sound _)
      (Mapper.table_tablesInPlace _) _ 4096 [] fun _ _ => rfl⟩

end Emos.Memory
