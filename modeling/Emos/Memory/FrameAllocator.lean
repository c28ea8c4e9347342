import Mathlib
import Emos.Lib.Checked
import Emos.Lib.Align
import Emos.Lib.Extent
import Emos.Lib.Iter

set_option autoImplicit false

/- `BootInfoFrameAllocator` of memory.rs. It keeps no record of the frames it handed out:
   every call rebuilds the iterator over the usable frames of the memory map and takes its
   `next`-th item, so what it returns is decided by that enumeration and the counter alone.
   The memory map comes from the bootloader: a region is the pair of addresses its frame
   range reports together with its type, and the region type is any type with a distinguished
   `Usable`. -/
namespace Emos.Memory

open Checked

def pageSize : Nat := 4096

-- `PhysAddr::new` of x86_64: bits 52 to 64 of a physical address must be clear.
def physAddrNotCanonical : Panic := ⟨"physical addresses must not have any bits in the range 52 to 64 set"⟩

def physAddrNew (addr : Nat) : Except Panic Nat :=
  if addr < 2 ^ 52 then .ok addr else .error physAddrNotCanonical

-- `PhysFrame::<Size4KiB>::containing_address`: the address aligned down to its page.
def containingAddress (addr : Nat) : Nat := addr &&& complement 64 (pageSize - 1)

structure MemoryRegion (RegionType : Type) where
  startAddr : Nat
  endAddr : Nat
  regionType : RegionType

structure BootInfoFrameAllocator (RegionType : Type) where
  memoryMap : List (MemoryRegion RegionType)
  next : Nat

def BootInfoFrameAllocator.init {RegionType : Type} (memoryMap : List (MemoryRegion RegionType)) :
    BootInfoFrameAllocator RegionType :=
  ⟨memoryMap, 0⟩

def frameOfAddress (addr : Nat) : Except Panic Nat := do
  let phys ← physAddrNew addr
  pure (containingAddress phys)

-- The bootloader's memory map reports frame ranges: a region starts and ends on a page boundary.
def PageAligned {RegionType : Type} (r : MemoryRegion RegionType) : Prop :=
  r.startAddr % pageSize = 0 ∧ r.endAddr % pageSize = 0

instance {RegionType : Type} (r : MemoryRegion RegionType) : Decidable (PageAligned r) :=
  inferInstanceAs (Decidable (_ ∧ _))

def regionExtent {RegionType : Type} (r : MemoryRegion RegionType) : Extent :=
  ⟨r.startAddr, r.endAddr - r.startAddr⟩

theorem containingAddress_of_aligned {addr : Nat} (lt : addr < 2 ^ 64) (aligned : addr % pageSize = 0) :
    containingAddress addr = addr := by
  have cleared := Align.and_complement_low_bits 64 12 addr (by decide) lt
  have page : pageSize = 2 ^ 12 := rfl
  rw [containingAddress, page, cleared]
  rw [page] at aligned
  exact Nat.div_mul_cancel (Nat.dvd_of_mod_eq_zero aligned)

theorem frameOfAddress_ok_iff (addr frame : Nat) :
    frameOfAddress addr = .ok frame ↔ addr < 2 ^ 52 ∧ frame = containingAddress addr := by
  unfold frameOfAddress physAddrNew
  by_cases canonical : addr < 2 ^ 52
  · rw [if_pos canonical]
    simp only [bind, Except.bind, pure, Except.pure, Except.ok.injEq, canonical, true_and, eq_comm]
  · rw [if_neg canonical]
    exact iff_of_false (by simp [bind, Except.bind]) (fun valid => canonical valid.1)

theorem frameOfAddress_aligned {addr frame : Nat} (result : frameOfAddress addr = .ok frame)
    (aligned : addr % pageSize = 0) : frame = addr := by
  obtain ⟨canonical, rfl⟩ := (frameOfAddress_ok_iff addr frame).mp result
  exact containingAddress_of_aligned (Nat.lt_trans canonical (by decide)) aligned

theorem page_within_region {RegionType : Type} {r : MemoryRegion RegionType} {addr : Nat} (aligned : PageAligned r)
    (page : addr ∈ Iter.stepBy r.startAddr r.endAddr pageSize) :
    addr % pageSize = 0 ∧ r.startAddr ≤ addr ∧ addr + pageSize ≤ r.endAddr := by
  obtain ⟨k, rfl, inside⟩ := (Iter.mem_stepBy (by decide)).mp page
  unfold PageAligned pageSize at *
  omega

section Allocator

variable {RegionType : Type} [DecidableEq RegionType] (usable : RegionType)

-- `usable_frames` up to its last `map`: the start of every page of every usable region.
def frameAddresses (memoryMap : List (MemoryRegion RegionType)) : List Nat :=
  ((memoryMap.filter (fun r => r.regionType = usable)).map (fun r => (r.startAddr, r.endAddr))).flatMap
    (fun range => Iter.stepBy range.1 range.2 pageSize)

def allocateFrame (self : BootInfoFrameAllocator RegionType) :
    Except Panic (Option Nat × BootInfoFrameAllocator RegionType) := do
  let frame ← Iter.mapNth frameOfAddress (frameAddresses usable self.memoryMap) self.next
  let next ← add 64 self.next 1
  pure (frame, { self with next })

def allocateFrames (self : BootInfoFrameAllocator RegionType) :
    Nat → Except Panic (List (Option Nat) × BootInfoFrameAllocator RegionType)
  | 0 => .ok ([], self)
  | count + 1 => do
      let (frames, self') ← allocateFrames self count
      let (frame, self'') ← allocateFrame usable self'
      pure (frames ++ [frame], self'')

variable {usable}

theorem mem_frameAddresses {memoryMap : List (MemoryRegion RegionType)} {addr : Nat} :
    addr ∈ frameAddresses usable memoryMap ↔
      ∃ r ∈ memoryMap, r.regionType = usable ∧ addr ∈ Iter.stepBy r.startAddr r.endAddr pageSize := by
  simp [frameAddresses, and_assoc]

theorem frameAddresses_aligned {memoryMap : List (MemoryRegion RegionType)}
    (aligned : ∀ r ∈ memoryMap, PageAligned r) {addr : Nat} (member : addr ∈ frameAddresses usable memoryMap) :
    addr % pageSize = 0 := by
  obtain ⟨r, region, -, page⟩ := mem_frameAddresses.mp member
  exact (page_within_region (aligned r region) page).1

theorem frameAddresses_nodup {memoryMap : List (MemoryRegion RegionType)}
    (disjoint : memoryMap.Pairwise (fun r s => (regionExtent r).Apart (regionExtent s))) :
    (frameAddresses usable memoryMap).Nodup := by
  unfold frameAddresses
  rw [List.flatMap_map, List.nodup_flatMap]
  refine ⟨fun r _ => Iter.stepBy_nodup (by decide), ?_⟩
  refine (disjoint.filter _).imp ?_
  intro r s apart addr left right
  have inside (q : MemoryRegion RegionType) (page : addr ∈ Iter.stepBy q.startAddr q.endAddr pageSize) :
      addr ∈ (regionExtent q).toSet := by
    obtain ⟨k, rfl, below⟩ := (Iter.mem_stepBy (by decide)).mp page
    rw [Extent.mem_toSet]
    simp only [regionExtent]
    omega
  exact apart.not_mem (inside r left) (inside s right)

theorem allocateFrame_eq_ok {self self' : BootInfoFrameAllocator RegionType} {frame : Option Nat} :
    allocateFrame usable self = .ok (frame, self') ↔
      Iter.mapNth frameOfAddress (frameAddresses usable self.memoryMap) self.next = .ok frame ∧
        self.next + 1 < 2 ^ 64 ∧ self' = ⟨self.memoryMap, self.next + 1⟩ := by
  constructor
  · intro result
    obtain ⟨found, pulled, rest⟩ := bind_eq_ok.mp result
    obtain ⟨next, counted, returned⟩ := bind_eq_ok.mp rest
    obtain ⟨room, rfl⟩ := (add_ok_iff 64 _ _ _).mp counted
    simp only [pure, Except.pure, Except.ok.injEq, Prod.mk.injEq] at returned
    obtain ⟨rfl, rfl⟩ := returned
    exact ⟨pulled, room, rfl⟩
  · rintro ⟨pulled, room, rfl⟩
    simp only [allocateFrame, pulled, add_of_lt 64 _ 1 room, bind, Except.bind, pure, Except.pure]

theorem mapNth_frameAddresses {memoryMap : List (MemoryRegion RegionType)} (aligned : ∀ r ∈ memoryMap, PageAligned r)
    {n : Nat} {frame : Option Nat}
    (pulled : Iter.mapNth frameOfAddress (frameAddresses usable memoryMap) n = .ok frame) :
    frame = (frameAddresses usable memoryMap)[n]? := by
  cases frame with
  | none => exact (List.getElem?_eq_none (Iter.mapNth_none pulled)).symm
  | some frame =>
      obtain ⟨addr, found, converted⟩ := Iter.mapNth_some pulled
      have member : addr ∈ frameAddresses usable memoryMap := List.mem_of_getElem? found
      rw [found, frameOfAddress_aligned converted (frameAddresses_aligned aligned member)]

theorem allocateFrames_calls {self self' : BootInfoFrameAllocator RegionType} {count : Nat}
    {frames : List (Option Nat)} (result : allocateFrames usable self count = .ok (frames, self')) :
    self' = ⟨self.memoryMap, self.next + count⟩ ∧ frames.length = count ∧
      ∀ i (lt : i < frames.length),
        Iter.mapNth frameOfAddress (frameAddresses usable self.memoryMap) (self.next + i) = .ok frames[i] := by
  induction count generalizing frames self' with
  | zero =>
      simp only [allocateFrames, Except.ok.injEq, Prod.mk.injEq] at result
      obtain ⟨rfl, rfl⟩ := result
      exact ⟨rfl, rfl, fun i lt => absurd lt (Nat.not_lt_zero i)⟩
  | succ count ih =>
      obtain ⟨⟨before, middle⟩, earlier, rest⟩ := bind_eq_ok.mp result
      obtain ⟨⟨frame, after⟩, call, returned⟩ := bind_eq_ok.mp rest
      obtain ⟨rfl, length, calls⟩ := ih earlier
      obtain ⟨pulled, -, rfl⟩ := allocateFrame_eq_ok.mp call
      simp only [pure, Except.pure, Except.ok.injEq, Prod.mk.injEq] at returned
      obtain ⟨rfl, rfl⟩ := returned
      refine ⟨rfl, by simp [length], ?_⟩
      intro i lt
      rw [List.length_append, List.length_singleton] at lt
      by_cases last : i = before.length
      · subst last
        simpa [length] using pulled
      · rw [List.getElem_append_left (by omega)]
        exact calls i (by omega)

theorem allocateFrames_init {memoryMap : List (MemoryRegion RegionType)} (aligned : ∀ r ∈ memoryMap, PageAligned r)
    {count : Nat} {frames : List (Option Nat)} {allocator : BootInfoFrameAllocator RegionType}
    (result : allocateFrames usable (BootInfoFrameAllocator.init memoryMap) count = .ok (frames, allocator)) :
    frames = (List.range count).map (fun i => (frameAddresses usable memoryMap)[i]?) := by
  obtain ⟨-, length, calls⟩ := allocateFrames_calls result
  apply List.ext_getElem (by simp [length])
  intro i lt _
  rw [List.getElem_map, List.getElem_range]
  exact mapNth_frameAddresses aligned (by simpa [BootInfoFrameAllocator.init] using calls i lt)

end Allocator

theorem allocated_frames_distinct_and_usable {RegionType : Type} [DecidableEq RegionType] (usable : RegionType)
    (memoryMap : List (MemoryRegion RegionType)) (aligned : ∀ r ∈ memoryMap, PageAligned r)
    (disjoint : memoryMap.Pairwise (fun r s => (regionExtent r).Apart (regionExtent s)))
    (count : Nat) (frames : List (Option Nat)) (allocator : BootInfoFrameAllocator RegionType)
    (run : allocateFrames usable (BootInfoFrameAllocator.init memoryMap) count = .ok (frames, allocator)) :
    frames.reduceOption.Nodup ∧
    (∀ frame, some frame ∈ frames →
      ∃ r ∈ memoryMap, r.regionType = usable ∧ r.startAddr ≤ frame ∧ frame + pageSize ≤ r.endAddr) ∧
    (∀ i j (lt : j < frames.length), i ≤ j → frames[i]? = some none → frames[j] = none) ∧
    (none ∈ frames → ∀ n, allocator.next ≤ n → n + 1 < 2 ^ 64 →
      allocateFrame usable ⟨memoryMap, n⟩ = .ok (none, ⟨memoryMap, n + 1⟩)) := by
  have enumerated := allocateFrames_init aligned run
  have prefix_ : frames.reduceOption = (frameAddresses usable memoryMap).take count := by
    rw [enumerated, Iter.reduceOption_map_getElem?]
  refine ⟨?_, ?_, ?_, ?_⟩
  · rw [prefix_]
    exact (frameAddresses_nodup disjoint).sublist (List.take_sublist _ _)
  · intro frame returned
    have listed : frame ∈ frameAddresses usable memoryMap := by
      have kept := List.reduceOption_mem_iff.mpr returned
      rw [prefix_] at kept
      exact List.mem_of_mem_take kept
    obtain ⟨r, region, kind, page⟩ := mem_frameAddresses.mp listed
    obtain ⟨-, above, below⟩ := page_within_region (aligned r region) page
    exact ⟨r, region, kind, above, below⟩
  · intro i j lt le exhausted
    have count_eq : frames.length = count := by simp [enumerated]
    rw [enumerated, List.getElem?_map, List.getElem?_range (by omega), Option.map_some,
      Option.some.injEq] at exhausted
    simp only [enumerated, List.getElem_map, List.getElem_range]
    exact List.getElem?_eq_none (Nat.le_trans (List.getElem?_eq_none_iff.mp exhausted) le)
  · intro missing n later room
    obtain ⟨rfl, -, calls⟩ := allocateFrames_calls run
    have after : count ≤ n := by simpa [BootInfoFrameAllocator.init] using later
    obtain ⟨i, lt, exhausted⟩ := List.getElem_of_mem missing
    have pulled := calls i lt
    rw [exhausted] at pulled
    have before : i < count := by simpa [enumerated] using lt
    exact allocateFrame_eq_ok.mpr ⟨Iter.mapNth_none_of_le pulled (show 0 + i ≤ n by omega), room, rfl⟩

theorem two_usable_regions_run_dry :
    let memoryMap : List (MemoryRegion Bool) := [⟨0x1000, 0x3000, true⟩, ⟨0x3000, 0x4000, false⟩, ⟨0x8000, 0x9000, true⟩]
    let frames := [some 0x1000, some 0x2000, some 0x8000, none]
    let allocator : BootInfoFrameAllocator Bool := ⟨memoryMap, 4⟩
    frames.reduceOption.Nodup ∧
    (∀ frame, some frame ∈ frames →
      ∃ r ∈ memoryMap, r.regionType = true ∧ r.startAddr ≤ frame ∧ frame + pageSize ≤ r.endAddr) ∧
    (∀ i j (lt : j < frames.length), i ≤ j → frames[i]? = some none → frames[j] = none) ∧
    (none ∈ frames → ∀ n, allocator.next ≤ n → n + 1 < 2 ^ 64 →
      allocateFrame true ⟨memoryMap, n⟩ = .ok (none, ⟨memoryMap, n + 1⟩)) :=
  allocated_frames_distinct_and_usable true _ (by decide) (by decide) 4 _ _ (by rfl)

end Emos.Memory
