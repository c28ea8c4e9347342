import Mathlib
import Emos.Lib.Checked
import Emos.Lib.Extent
import Emos.Lib.SortedMap
import Emos.Lib.VirtAddr

set_option autoImplicit false

/- The memory service of services/memory_service.rs. A region takes the next id of an atomic
   counter and is placed `id * size` above a fixed base, from its own id and size alone; no
   frame is mapped. `map_region` ignores the physical address it is given and changes nothing.
   `allocate_region` returns a `Result` and can also panic, so its model nests the two. -/
namespace Emos.Services

open Checked

inductive MemoryPermissions where
  | readOnly
  | readWrite
  | execute
  | readWriteExecute
deriving DecidableEq, Repr

inductive MemoryError where
  | outOfMemory
  | invalidAddress
  | permissionDenied
  | regionNotFound
  | alreadyAllocated
deriving DecidableEq, Repr

structure MemoryRegion where
  id : Nat
  startAddr : Nat
  size : Nat
  permissions : MemoryPermissions
  isAllocated : Bool
deriving DecidableEq, Repr

def MemoryRegion.extent (region : MemoryRegion) : Extent := ⟨region.startAddr, region.size⟩

structure MemoryService where
  nextRegionId : Nat
  allocatedRegions : SortedMap Nat MemoryRegion
deriving DecidableEq

namespace MemoryService

def new : MemoryService := ⟨1, .empty⟩

def regionBase : Nat := 0x1000_0000

def allocateRegion (self : MemoryService) (size : Nat) (permissions : MemoryPermissions) :
    Except Panic (Except MemoryError (Nat × MemoryService)) :=
  if size = 0 then pure (.error .invalidAddress)
  else do
    let regionId := self.nextRegionId
    let self := { self with nextRegionId := wrappingAdd 64 self.nextRegionId 1 }
    let offset ← mul 64 regionId size
    let addr ← add 64 regionBase offset
    let startAddr ← VirtAddr.new addr
    let region : MemoryRegion := ⟨regionId, startAddr, size, permissions, true⟩
    pure (.ok (regionId, { self with allocatedRegions := self.allocatedRegions.insert regionId region }))

theorem allocateRegion_eq_ok {s s' : MemoryService} {size : Nat} {permissions : MemoryPermissions} {regionId : Nat}
    (allocated : s.allocateRegion size permissions = .ok (.ok (regionId, s'))) :
    ∃ startAddr, regionId = s.nextRegionId ∧ size ≠ 0 ∧
      (startAddr < 2 ^ 47 → startAddr = regionBase + s.nextRegionId * size) ∧
      s' = ⟨wrappingAdd 64 s.nextRegionId 1,
        s.allocatedRegions.insert s.nextRegionId ⟨s.nextRegionId, startAddr, size, permissions, true⟩⟩ := by
  unfold allocateRegion at allocated
  split at allocated
  · cases allocated
  · rename_i nonzero
    simp only [bind_eq_ok] at allocated
    obtain ⟨offset, multiplied, addr, added, startAddr, placed, done⟩ := allocated
    obtain ⟨-, rfl⟩ := (mul_ok_iff _ _ _ _).mp multiplied
    obtain ⟨-, rfl⟩ := (add_ok_iff _ _ _ _).mp added
    simp only [pure, Except.pure, Except.ok.injEq, Prod.mk.injEq] at done
    obtain ⟨rfl, rfl⟩ := done
    exact ⟨startAddr, rfl, nonzero, fun low => VirtAddr.eq_of_new_of_lt placed low, rfl⟩

-- Removing the region returns it; marking the removed copy unallocated has no effect.
def deallocateRegion (self : MemoryService) (regionId : Nat) : Except MemoryError MemoryService :=
  match self.allocatedRegions.get? regionId with
  | some _ => .ok { self with allocatedRegions := self.allocatedRegions.erase regionId }
  | none => .error .regionNotFound

theorem deallocateRegion_eq_ok {s s' : MemoryService} {regionId : Nat} :
    s.deallocateRegion regionId = .ok s' ↔
      (s.allocatedRegions.get? regionId).isSome ∧ s' = { s with allocatedRegions := s.allocatedRegions.erase regionId } := by
  unfold deallocateRegion
  cases found : s.allocatedRegions.get? regionId with
  | none => simp
  | some region =>
      simp only [Option.isSome_some, true_and, Except.ok.injEq]
      exact eq_comm

def mapRegion (self : MemoryService) (regionId : Nat) (_physicalAddr : Nat) : Except MemoryError Unit :=
  match self.allocatedRegions.get? regionId with
  | some region => if !region.isAllocated then .error .regionNotFound else .ok ()
  | none => .error .regionNotFound

def getRegionInfo (self : MemoryService) (regionId : Nat) : Option MemoryRegion := self.allocatedRegions.get? regionId

def listRegions (self : MemoryService) : List MemoryRegion := self.allocatedRegions.values

-- `start_addr + size` is the `+` of `VirtAddr`: a checked addition, then `VirtAddr::new` of the
-- sum. Both `&&` and `any` stop at the first test that decides them.
def isAddressValid (self : MemoryService) (addr : Nat) : Except Panic Bool :=
  self.allocatedRegions.values.anyM fun region =>
    if region.isAllocated ∧ region.startAddr ≤ addr then do
      let stop ← VirtAddr.new (← add 64 region.startAddr region.size)
      pure (decide (addr < stop))
    else pure false

-- `sum` over `usize` adds with overflow checks.
def getTotalAllocated (self : MemoryService) : Except Panic Nat :=
  ((self.allocatedRegions.values.filter fun region => region.isAllocated).map MemoryRegion.size).foldlM (add 64) 0

-- The calls that change the service; `map_region` and the queries only read it, and a call that
-- returns an error or panics leaves no successor.
inductive Step : MemoryService → MemoryService → Prop
  | allocateRegion {s s' : MemoryService} (size : Nat) (permissions : MemoryPermissions) (regionId : Nat) :
      s.allocateRegion size permissions = .ok (.ok (regionId, s')) → Step s s'
  | deallocateRegion {s s' : MemoryService} (regionId : Nat) : s.deallocateRegion regionId = .ok s' → Step s s'

-- Each region sits under its own id, and unless sign extension moved it, `id * size` above the
-- base. Ids may be reused once the counter wraps; the map then keeps only the newer region.
structure Laid (s : MemoryService) : Prop where
  laid : ∀ key region, s.allocatedRegions.get? key = some region →
    region.id = key ∧ (region.startAddr < 2 ^ 47 → region.startAddr = regionBase + key * region.size)

theorem laid_new : Laid new := ⟨fun _ _ found => by cases found⟩

theorem laid_step {s s' : MemoryService} (laid : Laid s) (step : Step s s') : Laid s' := by
  cases step with
  | allocateRegion size permissions regionId allocated =>
      obtain ⟨startAddr, -, -, placed, rfl⟩ := allocateRegion_eq_ok allocated
      refine ⟨fun key region found => ?_⟩
      rw [SortedMap.get?_insert] at found
      split at found
      · -- the new region, placed from its own id
        rename_i fresh
        subst fresh
        cases found
        exact ⟨rfl, placed⟩
      · exact laid.laid key region found
  | deallocateRegion regionId deallocated =>
      obtain ⟨-, rfl⟩ := deallocateRegion_eq_ok.mp deallocated
      refine ⟨fun key region found => ?_⟩
      rw [SortedMap.get?_erase] at found
      split at found
      · cases found
      · exact laid.laid key region found

theorem reachable_laid {s : MemoryService} (reachable : Relation.ReflTransGen Step new s) : Laid s := by
  induction reachable with
  | refl => exact laid_new
  | tail _ step ih => exact laid_step ih step

theorem equal_sized_regions_apart {s : MemoryService} (reachable : Relation.ReflTransGen Step new s)
    {key key' : Nat} {region region' : MemoryRegion} (different : key ≠ key') (first : s.getRegionInfo key = some region)
    (second : s.getRegionInfo key' = some region') (sameSize : region.size = region'.size)
    (low : region.startAddr < 2 ^ 47) (low' : region'.startAddr < 2 ^ 47) : region.extent.Apart region'.extent := by
  have laid := reachable_laid reachable
  have start := (laid.laid key region first).2 low
  have start' := (laid.laid key' region' second).2 low'
  have slot : region.extent = ⟨regionBase + key * region.size, region.size⟩ := by
    rw [MemoryRegion.extent, start]
  have slot' : region'.extent = ⟨regionBase + key' * region.size, region.size⟩ := by
    rw [MemoryRegion.extent, start', sameSize]
  rw [slot, slot']
  exact Extent.slots_apart regionBase region.size different

theorem two_pages_apart :
    ∃ first second : MemoryService, ∃ region region' : MemoryRegion,
      new.allocateRegion 4096 .readWrite = .ok (.ok (1, first)) ∧
      first.allocateRegion 4096 .readOnly = .ok (.ok (2, second)) ∧
      second.getRegionInfo 1 = some region ∧ second.getRegionInfo 2 = some region' ∧
      region.extent.Apart region'.extent := by
  let region : MemoryRegion := ⟨1, 0x1000_1000, 4096, .readWrite, true⟩
  let region' : MemoryRegion := ⟨2, 0x1000_2000, 4096, .readOnly, true⟩
  let first : MemoryService := ⟨2, SortedMap.empty.insert 1 region⟩
  let second : MemoryService := ⟨3, first.allocatedRegions.insert 2 region'⟩
  have allocated : new.allocateRegion 4096 .readWrite = .ok (.ok (1, first)) := by decide
  have allocated' : first.allocateRegion 4096 .readOnly = .ok (.ok (2, second)) := by decide
  have found : second.getRegionInfo 1 = some region := by decide
  have found' : second.getRegionInfo 2 = some region' := by decide
  have reachable : Relation.ReflTransGen Step new second :=
    (Relation.ReflTransGen.single (Step.allocateRegion _ _ _ allocated)).tail (Step.allocateRegion _ _ _ allocated')
  exact ⟨first, second, region, region', allocated, allocated', found, found',
    equal_sized_regions_apart reachable (by decide) found found' rfl (by decide) (by decide)⟩

theorem regions_of_different_sizes_overlap :
    ∃ first second : MemoryService, ∃ region region' : MemoryRegion,
      new.allocateRegion 4096 .readWrite = .ok (.ok (1, first)) ∧
      first.allocateRegion 2048 .readWrite = .ok (.ok (2, second)) ∧
      second.getRegionInfo 1 = some region ∧ second.getRegionInfo 2 = some region' ∧
      region.startAddr = 0x1000_1000 ∧ region'.startAddr = 0x1000_1000 ∧ ¬ region.extent.Apart region'.extent ∧
      second.isAddressValid 0x1000_1000 = .ok true := by
  let region : MemoryRegion := ⟨1, 0x1000_1000, 4096, .readWrite, true⟩
  let region' : MemoryRegion := ⟨2, 0x1000_1000, 2048, .readWrite, true⟩
  let first : MemoryService := ⟨2, SortedMap.empty.insert 1 region⟩
  let second : MemoryService := ⟨3, first.allocatedRegions.insert 2 region'⟩
  exact ⟨first, second, region, region', by decide, by decide, by decide, by decide, rfl, rfl, by decide, by decide⟩

section Queries

-- Every region the service holds is flagged allocated: `deallocate_region` removes a region rather
-- than clearing its flag.
def Allocated (s : MemoryService) : Prop :=
  ∀ key region, s.allocatedRegions.get? key = some region → region.isAllocated = true

theorem allocated_step {s s' : MemoryService} (allocated : Allocated s) (step : Step s s') : Allocated s' := by
  cases step with
  | allocateRegion size permissions regionId result =>
      obtain ⟨startAddr, -, -, -, rfl⟩ := allocateRegion_eq_ok result
      intro key region found
      rw [SortedMap.get?_insert] at found
      split at found
      · cases found
        rfl
      · exact allocated key region found
  | deallocateRegion regionId result =>
      obtain ⟨-, rfl⟩ := deallocateRegion_eq_ok.mp result
      intro key region found
      rw [SortedMap.get?_erase] at found
      split at found
      · cases found
      · exact allocated key region found

theorem reachable_allocated {s : MemoryService} (reachable : Relation.ReflTransGen Step new s) : Allocated s := by
  induction reachable with
  | refl => exact fun _ _ found => by cases found
  | tail _ step ih => exact allocated_step ih step

theorem mem_listRegions {s : MemoryService} {region : MemoryRegion} (member : region ∈ s.listRegions) :
    ∃ key, s.allocatedRegions.get? key = some region := by
  obtain ⟨⟨key, stored⟩, entry, rfl⟩ := List.mem_map.mp member
  exact ⟨key, (SortedMap.get?_eq_some_iff _ _ _).mpr entry⟩

variable {s : MemoryService} (allocated : Allocated s)
include allocated

theorem listRegions_allocated : ∀ region ∈ s.listRegions, region.isAllocated = true := by
  intro region member
  obtain ⟨key, found⟩ := mem_listRegions member
  exact allocated key region found

theorem mapRegion_ok_iff (regionId physicalAddr : Nat) :
    s.mapRegion regionId physicalAddr = .ok () ↔ (s.getRegionInfo regionId).isSome := by
  unfold mapRegion getRegionInfo
  cases found : s.allocatedRegions.get? regionId with
  | none => simp
  | some region => simp [allocated regionId region found]

theorem getTotalAllocated_eq (fits : (s.listRegions.map MemoryRegion.size).sum < 2 ^ 64) :
    s.getTotalAllocated = .ok (s.listRegions.map MemoryRegion.size).sum := by
  have everything : (s.allocatedRegions.values.filter fun region => region.isAllocated) = s.listRegions :=
    List.filter_eq_self.mpr (listRegions_allocated allocated)
  unfold getTotalAllocated
  rw [everything, foldlM_add_of_lt 64 _ 0 (by omega), Nat.zero_add]

theorem isAddressValid_eq (low : ∀ region ∈ s.listRegions, region.startAddr + region.size < 2 ^ 47) (addr : Nat) :
    s.isAddressValid addr =
      .ok (s.listRegions.any fun region => decide (region.startAddr ≤ addr ∧ addr < region.startAddr + region.size)) := by
  unfold isAddressValid
  apply anyM_eq_ok
  intro region member
  have flagged := listRegions_allocated allocated region member
  have ends := low region member
  by_cases above : region.startAddr ≤ addr
  · rw [if_pos ⟨flagged, above⟩, add_of_lt 64 _ _ (by omega), ok_bind, VirtAddr.new_of_lt ends]
    simp [above]
  · rw [if_neg fun tested => above tested.2]
    simp [above, pure, Except.pure]

end Queries

theorem region_queries_report_the_region_map {s : MemoryService} (reachable : Relation.ReflTransGen Step new s) :
    (∀ region ∈ s.listRegions, region.isAllocated = true) ∧
    (∀ regionId physicalAddr, s.mapRegion regionId physicalAddr = .ok () ↔ (s.getRegionInfo regionId).isSome) ∧
    ((s.listRegions.map MemoryRegion.size).sum < 2 ^ 64 →
      s.getTotalAllocated = .ok (s.listRegions.map MemoryRegion.size).sum) ∧
    ((∀ region ∈ s.listRegions, region.startAddr + region.size < 2 ^ 47) →
      ∀ addr, ∃ valid, s.isAddressValid addr = .ok valid ∧
        (valid = true ↔ ∃ region ∈ s.listRegions, region.startAddr ≤ addr ∧ addr < region.startAddr + region.size)) := by
  have allocated := reachable_allocated reachable
  refine ⟨listRegions_allocated allocated, mapRegion_ok_iff allocated, getTotalAllocated_eq allocated,
    fun low addr => ⟨_, isAddressValid_eq allocated low addr, ?_⟩⟩
  simp [List.any_eq_true]

theorem two_pages_reported :
    let second : MemoryService := ⟨3, (SortedMap.empty.insert 1 ⟨1, 0x1000_1000, 4096, .readWrite, true⟩).insert 2
      ⟨2, 0x1000_2000, 4096, .readOnly, true⟩⟩
    Relation.ReflTransGen Step new second ∧
    (∀ region ∈ second.listRegions, region.isAllocated = true) ∧
    (∀ regionId physicalAddr, second.mapRegion regionId physicalAddr = .ok () ↔ (second.getRegionInfo regionId).isSome) ∧
    ((second.listRegions.map MemoryRegion.size).sum < 2 ^ 64 →
      second.getTotalAllocated = .ok (second.listRegions.map MemoryRegion.size).sum) ∧
    ((∀ region ∈ second.listRegions, region.startAddr + region.size < 2 ^ 47) →
      ∀ addr, ∃ valid, second.isAddressValid addr = .ok valid ∧
        (valid = true ↔ ∃ region ∈ second.listRegions, region.startAddr ≤ addr ∧ addr < region.startAddr + region.size)) := by
  intro second
  have allocated : new.allocateRegion 4096 .readWrite =
      .ok (.ok (1, ⟨2, SortedMap.empty.insert 1 ⟨1, 0x1000_1000, 4096, .readWrite, true⟩⟩)) := by
    decide
  have allocated' : (⟨2, SortedMap.empty.insert 1 ⟨1, 0x1000_1000, 4096, .readWrite, true⟩⟩ : MemoryService).allocateRegion
      4096 .readOnly = .ok (.ok (2, second)) := by
    decide
  have reachable : Relation.ReflTransGen Step new second :=
    (Relation.ReflTransGen.single (Step.allocateRegion _ _ _ allocated)).tail (Step.allocateRegion _ _ _ allocated')
  exact ⟨reachable, region_queries_report_the_region_map reachable⟩

end MemoryService

end Emos.Services
