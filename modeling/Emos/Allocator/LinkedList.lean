import Mathlib
import Emos.Allocator.Layout

set_option autoImplicit false

namespace Emos.Allocator.LinkedList

open Checked

-- A free region: the `ListNode` written at its first address, with the region's size.
structure ListNode where
  addr : Nat
  size : Nat
deriving DecidableEq, Repr

-- `mem::size_of::<ListNode>()` (a `usize` and an `Option<&mut ListNode>`) and its alignment.
def listNodeSize : Nat := 16
def listNodeAlign : Nat := 8

def ListNode.startAddr (node : ListNode) : Nat := node.addr

def ListNode.endAddr (node : ListNode) : Except Panic Nat := add 64 node.startAddr node.size

-- The dummy `head` node is not a region; the allocator is the list of nodes linked from it.
structure LinkedListAllocator where
  head : List ListNode
deriving DecidableEq, Repr

def new : LinkedListAllocator := ⟨[]⟩

def alignAssertion : Panic := ⟨"assertion `left == right` failed"⟩
def sizeAssertion : Panic := ⟨"assertion failed: size >= mem::size_of::<ListNode>()"⟩

def addFreeRegion (allocator : LinkedListAllocator) (addr size : Nat) : Except Panic LinkedListAllocator := do
  let aligned ← alignUp addr listNodeAlign
  if aligned ≠ addr then throw alignAssertion
  if ¬ size ≥ listNodeSize then throw sizeAssertion
  pure ⟨⟨addr, size⟩ :: allocator.head⟩

def init (allocator : LinkedListAllocator) (heapStart heapSize : Nat) : Except Panic LinkedListAllocator :=
  addFreeRegion allocator heapStart heapSize

-- `alloc_from_region`: the allocation start if the region holds `size` bytes at alignment
-- `align` and the rest is empty or can hold a node; `Err(())` is `none`. The source computes
-- `region.end_addr()` twice; both evaluations are this one.
def allocFromRegion (region : ListNode) (size align : Nat) : Except Panic (Option Nat) := do
  let allocStart ← alignUp region.startAddr align
  match checkedAdd 64 allocStart size with
  | none => pure none
  | some allocEnd =>
      let regionEnd ← region.endAddr
      if allocEnd > regionEnd then pure none
      else
        let excessSize ← sub regionEnd allocEnd
        if excessSize > 0 ∧ excessSize < listNodeSize then pure none
        else pure (some allocStart)

def findRegion : List ListNode → Nat → Nat → Except Panic (Option (ListNode × Nat × List ListNode))
  | [], _, _ => pure none
  | region :: rest, size, align => do
      match ← allocFromRegion region size align with
      | some allocStart => pure (some (region, allocStart, rest))
      | none =>
          match ← findRegion rest size align with
          | some (found, allocStart, remaining) => pure (some (found, allocStart, region :: remaining))
          | none => pure none

def adjustingAlignmentFailed : Panic := ⟨"adjusting alignment failed"⟩

def sizeAlign (layout : Layout) : Except Panic (Nat × Nat) := do
  let layout ← expect (layout.alignTo listNodeAlign) adjustingAlignmentFailed.message
  let layout := layout.padToAlign
  let size := max layout.size listNodeSize
  pure (size, layout.align)

-- `GlobalAlloc::alloc`: a null pointer is `0`. The front padding of the chosen region is
-- dropped; the excess after the allocation goes back on the list.
def alloc (allocator : LinkedListAllocator) (layout : Layout) : Except Panic (Nat × LinkedListAllocator) := do
  let (size, align) ← sizeAlign layout
  match ← findRegion allocator.head size align with
  | some (region, allocStart, rest) =>
      let allocEnd ← expect (checkedAdd 64 allocStart size) "overflow"
      let regionEnd ← region.endAddr
      let excessSize ← sub regionEnd allocEnd
      if excessSize > 0 then
        let allocator' ← addFreeRegion ⟨rest⟩ allocEnd excessSize
        pure (allocStart, allocator')
      else pure (allocStart, ⟨rest⟩)
  | none => pure (0, allocator)

def dealloc (allocator : LinkedListAllocator) (ptr : Nat) (layout : Layout) : Except Panic LinkedListAllocator := do
  let (size, _) ← sizeAlign layout
  addFreeRegion allocator ptr size

theorem endAddr_eq (node : ListNode) (bounded : node.addr + node.size < 2 ^ 64) :
    node.endAddr = .ok (node.addr + node.size) :=
  add_of_lt 64 node.addr node.size bounded

theorem alignUp_listNodeAlign (addr : Nat) (aligned : addr % listNodeAlign = 0) (room : addr + listNodeAlign < 2 ^ 64) :
    alignUp addr listNodeAlign = .ok addr := by
  rw [alignUp_eq addr listNodeAlign ⟨3, rfl⟩ room]
  rw [Align.roundUp_of_dvd addr listNodeAlign (by decide) (Nat.dvd_of_mod_eq_zero aligned)]

theorem addFreeRegion_eq (allocator : LinkedListAllocator) (addr size : Nat) (aligned : addr % listNodeAlign = 0)
    (large : listNodeSize ≤ size) (bounded : addr + size < 2 ^ 64) :
    addFreeRegion allocator addr size = .ok ⟨⟨addr, size⟩ :: allocator.head⟩ := by
  have room : addr + listNodeAlign < 2 ^ 64 := by
    unfold listNodeSize at large
    unfold listNodeAlign
    omega
  simp [addFreeRegion, alignUp_listNodeAlign addr aligned room, bind, Except.bind, large, pure, Except.pure]

def Suitable (region : ListNode) (size align : Nat) : Prop :=
  Align.roundUp region.addr align + size ≤ region.addr + region.size ∧
    (Align.roundUp region.addr align + size = region.addr + region.size ∨
      Align.roundUp region.addr align + size + listNodeSize ≤ region.addr + region.size)

instance (region : ListNode) (size align : Nat) : Decidable (Suitable region size align) := by
  unfold Suitable
  infer_instance

theorem allocFromRegion_eq (region : ListNode) (size align : Nat) (pow : align.isPowerOfTwo)
    (bounded : region.addr + region.size < 2 ^ 64) (room : region.addr + align < 2 ^ 64) :
    allocFromRegion region size align =
      .ok (if Suitable region size align then some (Align.roundUp region.addr align) else none) := by
  have below := Align.roundUp_lt region.addr align (Nat.pos_of_isPowerOfTwo pow)
  simp only [allocFromRegion, ListNode.startAddr, alignUp_eq region.addr align pow room, bind, Except.bind,
    endAddr_eq region bounded, pure, Except.pure]
  unfold checkedAdd
  by_cases fits : Align.roundUp region.addr align + size < 2 ^ 64
  · by_cases tooSmall : Align.roundUp region.addr align + size > region.addr + region.size
    · have unsuitable : ¬ Suitable region size align := by
        unfold Suitable
        omega
      simp only [fits, if_true, tooSmall, unsuitable, if_false]
    · simp only [fits, if_true, tooSmall, if_false, sub_of_le _ _ (Nat.le_of_not_gt tooSmall)]
      by_cases cramped : region.addr + region.size - (Align.roundUp region.addr align + size) > 0 ∧
          region.addr + region.size - (Align.roundUp region.addr align + size) < listNodeSize
      · have unsuitable : ¬ Suitable region size align := by
          unfold Suitable
          omega
        rw [if_pos cramped, if_neg unsuitable]
      · have suitable : Suitable region size align := by
          unfold Suitable
          omega
        rw [if_neg cramped, if_pos suitable]
  · have unsuitable : ¬ Suitable region size align := by
      unfold Suitable
      omega
    simp only [fits, unsuitable, if_false]

theorem allocFromRegion_overflow (region : ListNode) (size align : Nat) (overflow : 2 ^ 64 ≤ region.addr + align) :
    allocFromRegion region size align = .error overflowAdd := by
  simp [allocFromRegion, ListNode.startAddr, alignUp_overflow region.addr align overflow, bind, Except.bind]

theorem findRegion_some {size align : Nat} (pow : align.isPowerOfTwo) {regions : List ListNode}
    {found : ListNode} {allocStart : Nat} {rest : List ListNode}
    (bounded : ∀ r ∈ regions, r.addr + r.size < 2 ^ 64)
    (result : findRegion regions size align = .ok (some (found, allocStart, rest))) :
    ∃ pre post, regions = pre ++ found :: post ∧ rest = pre ++ post ∧ Suitable found size align ∧
      allocStart = Align.roundUp found.addr align := by
  induction regions generalizing rest with
  | nil => simp [findRegion, pure, Except.pure] at result
  | cons region others ih =>
      unfold findRegion at result
      by_cases room : region.addr + align < 2 ^ 64
      · rw [allocFromRegion_eq region size align pow (bounded region List.mem_cons_self) room] at result
        by_cases suitable : Suitable region size align
        · simp only [if_pos suitable, bind, Except.bind, pure, Except.pure, Except.ok.injEq, Option.some.injEq,
            Prod.mk.injEq] at result
          obtain ⟨rfl, rfl, rfl⟩ := result
          exact ⟨[], others, rfl, rfl, suitable, rfl⟩
        · simp only [if_neg suitable, bind, Except.bind] at result
          cases inner : findRegion others size align with
          | error e => simp [inner] at result
          | ok next =>
              rcases next with _ | ⟨found', start', remaining⟩
              · simp [inner, pure, Except.pure] at result
              · simp only [inner, pure, Except.pure, Except.ok.injEq, Option.some.injEq, Prod.mk.injEq] at result
                obtain ⟨rfl, rfl, rfl⟩ := result
                obtain ⟨pre, post, split, rfl, suitable', start⟩ :=
                  ih (fun r later => bounded r (List.mem_cons_of_mem _ later)) inner
                exact ⟨region :: pre, post, by simp [split], rfl, suitable', start⟩
      · rw [allocFromRegion_overflow region size align (by omega)] at result
        simp [bind, Except.bind] at result

theorem findRegion_error {size align : Nat} (pow : align.isPowerOfTwo) {regions : List ListNode} {e : Panic}
    (bounded : ∀ r ∈ regions, r.addr + r.size < 2 ^ 64)
    (result : findRegion regions size align = .error e) : e = overflowAdd := by
  induction regions with
  | nil => simp [findRegion, pure, Except.pure] at result
  | cons region others ih =>
      unfold findRegion at result
      by_cases room : region.addr + align < 2 ^ 64
      · rw [allocFromRegion_eq region size align pow (bounded region List.mem_cons_self) room] at result
        by_cases suitable : Suitable region size align
        · simp [if_pos suitable, bind, Except.bind, pure, Except.pure] at result
        · simp only [if_neg suitable, bind, Except.bind] at result
          cases inner : findRegion others size align with
          | error e' =>
              simp only [inner, Except.error.injEq] at result
              subst result
              exact ih (fun r later => bounded r (List.mem_cons_of_mem _ later)) inner
          | ok next =>
              rcases next with _ | ⟨found', start', remaining⟩ <;> simp [inner, pure, Except.pure] at result
      · rw [allocFromRegion_overflow region size align (by omega)] at result
        simpa [bind, Except.bind] using result.symm

theorem findRegion_first {size align : Nat} (pow : align.isPowerOfTwo) {regions : List ListNode}
    (bounded : ∀ r ∈ regions, r.addr + r.size < 2 ^ 64) (room : ∀ r ∈ regions, r.addr + align < 2 ^ 64) :
    (findRegion regions size align = .ok none ∧ ∀ r ∈ regions, ¬ Suitable r size align) ∨
    ∃ pre found post, regions = pre ++ found :: post ∧ (∀ r ∈ pre, ¬ Suitable r size align) ∧
      Suitable found size align ∧
      findRegion regions size align = .ok (some (found, Align.roundUp found.addr align, pre ++ post)) := by
  induction regions with
  | nil => exact .inl ⟨rfl, fun r member => absurd member List.not_mem_nil⟩
  | cons region rest ih =>
      have first := allocFromRegion_eq region size align pow (bounded region List.mem_cons_self)
        (room region List.mem_cons_self)
      by_cases suitable : Suitable region size align
      · -- the first region fits and is taken
        rw [if_pos suitable] at first
        refine .inr ⟨[], region, rest, rfl, fun r member => absurd member List.not_mem_nil, suitable, ?_⟩
        rw [findRegion, first]
        rfl
      · -- the first region is passed over and the search goes on in the rest
        rw [if_neg suitable] at first
        rcases ih (fun r later => bounded r (List.mem_cons_of_mem _ later))
            (fun r later => room r (List.mem_cons_of_mem _ later)) with
          ⟨missing, none⟩ | ⟨pre, found, post, split, before, fits, hit⟩
        · refine .inl ⟨?_, fun r member => ?_⟩
          · rw [findRegion, first, ok_bind, missing]
            rfl
          · rcases List.mem_cons.mp member with rfl | later
            · exact suitable
            · exact none r later
        · refine .inr ⟨region :: pre, found, post, by rw [split]; rfl, fun r member => ?_, fits, ?_⟩
          · rcases List.mem_cons.mp member with rfl | earlier
            · exact suitable
            · exact before r earlier
          · rw [findRegion, first, ok_bind, hit]
            rfl

def adjustedAlign (layout : Layout) : Nat := max layout.align listNodeAlign

def adjustedSize (layout : Layout) : Nat := max (Align.roundUp layout.size (adjustedAlign layout)) listNodeSize

-- `size_align` panics only when raising the alignment pushes the padded size past `isize::MAX`.
def Adjustable (layout : Layout) : Prop := Align.roundUp layout.size (adjustedAlign layout) ≤ isizeMax

instance (layout : Layout) : Decidable (Adjustable layout) := by
  unfold Adjustable
  infer_instance

theorem adjustedAlign_pow (layout : Layout) : (adjustedAlign layout).isPowerOfTwo := by
  unfold adjustedAlign
  rcases max_choice layout.align listNodeAlign with chosen | chosen <;> rw [chosen]
  · exact layout.align_pow
  · exact ⟨3, rfl⟩

theorem adjustedAlign_pos (layout : Layout) : 0 < adjustedAlign layout :=
  Nat.pos_of_isPowerOfTwo (adjustedAlign_pow layout)

theorem align_dvd_adjustedAlign (layout : Layout) : layout.align ∣ adjustedAlign layout :=
  Align.dvd_of_isPowerOfTwo _ _ layout.align_pow (adjustedAlign_pow layout) (le_max_left _ _)

theorem listNodeAlign_dvd_adjustedAlign (layout : Layout) : listNodeAlign ∣ adjustedAlign layout :=
  Align.dvd_of_isPowerOfTwo _ _ ⟨3, rfl⟩ (adjustedAlign_pow layout) (le_max_right _ _)

theorem listNodeAlign_dvd_adjustedSize (layout : Layout) : listNodeAlign ∣ adjustedSize layout := by
  unfold adjustedSize
  rcases max_choice (Align.roundUp layout.size (adjustedAlign layout)) listNodeSize with chosen | chosen <;>
    rw [chosen]
  · exact Nat.dvd_trans (listNodeAlign_dvd_adjustedAlign layout) (Align.dvd_roundUp _ _)
  · exact ⟨2, rfl⟩

theorem listNodeSize_le_adjustedSize (layout : Layout) : listNodeSize ≤ adjustedSize layout :=
  le_max_right _ _

theorem size_le_adjustedSize (layout : Layout) : layout.size ≤ adjustedSize layout :=
  le_trans (Align.le_roundUp _ _ (adjustedAlign_pos layout)) (le_max_left _ _)

theorem sizeAlign_eq (layout : Layout) (adjustable : Adjustable layout) :
    sizeAlign layout = .ok (adjustedSize layout, adjustedAlign layout) := by
  have raised : layout.alignTo listNodeAlign =
      some ⟨layout.size, adjustedAlign layout, adjustedAlign_pow layout, adjustable⟩ := by
    simp only [Layout.alignTo, show listNodeAlign.isPowerOfTwo from ⟨3, rfl⟩, if_true]
    exact Layout.fromSizeAlign_eq_some _ _ (adjustedAlign_pow layout) adjustable
  simp [sizeAlign, raised, bind, Except.bind, pure, Except.pure, Layout.padToAlign, adjustedSize]

theorem sizeAlign_error (layout : Layout) (unadjustable : ¬ Adjustable layout) :
    sizeAlign layout = .error adjustingAlignmentFailed := by
  have refused : layout.alignTo listNodeAlign = none := by
    simp only [Layout.alignTo, show listNodeAlign.isPowerOfTwo from ⟨3, rfl⟩, if_true]
    cases raised : Layout.fromSizeAlign layout.size (max layout.align listNodeAlign) with
    | none => rfl
    | some layout' =>
        obtain ⟨size, align⟩ := (Layout.fromSizeAlign_eq_some_iff _ _ _).mp raised
        have fits := layout'.size_fits
        rw [size, align] at fits
        exact absurd fits unadjustable
  simp [sizeAlign, refused, bind, Except.bind, adjustingAlignmentFailed]

theorem sizeAlign_ok {layout : Layout} {size align : Nat} (result : sizeAlign layout = .ok (size, align)) :
    Adjustable layout ∧ size = adjustedSize layout ∧ align = adjustedAlign layout := by
  by_cases adjustable : Adjustable layout
  · rw [sizeAlign_eq layout adjustable] at result
    simp only [Except.ok.injEq, Prod.mk.injEq] at result
    exact ⟨adjustable, result.1.symm, result.2.symm⟩
  · rw [sizeAlign_error layout adjustable] at result
    cases result

theorem init_eq (heapStart heapSize : Nat) (aligned : heapStart % listNodeAlign = 0) (large : listNodeSize ≤ heapSize)
    (bounded : heapStart + heapSize < 2 ^ 64) : init new heapStart heapSize = .ok ⟨[⟨heapStart, heapSize⟩]⟩ :=
  addFreeRegion_eq new heapStart heapSize aligned large bounded

theorem dealloc_eq (allocator : LinkedListAllocator) (ptr : Nat) (layout : Layout) (adjustable : Adjustable layout)
    (aligned : ptr % listNodeAlign = 0) (bounded : ptr + adjustedSize layout < 2 ^ 64) :
    dealloc allocator ptr layout = .ok ⟨⟨ptr, adjustedSize layout⟩ :: allocator.head⟩ := by
  simp only [dealloc, sizeAlign_eq layout adjustable, bind, Except.bind]
  exact addFreeRegion_eq allocator ptr _ aligned (listNodeSize_le_adjustedSize layout) bounded

def excessRegion (found : ListNode) (allocEnd : Nat) : List ListNode :=
  if allocEnd < found.addr + found.size then [⟨allocEnd, found.addr + found.size - allocEnd⟩] else []

theorem alloc_of_none (allocator : LinkedListAllocator) (layout : Layout) (adjustable : Adjustable layout)
    (missing : findRegion allocator.head (adjustedSize layout) (adjustedAlign layout) = .ok none) :
    alloc allocator layout = .ok (0, allocator) := by
  simp [alloc, sizeAlign_eq layout adjustable, missing, bind, Except.bind, pure, Except.pure]

theorem alloc_of_found (allocator : LinkedListAllocator) (layout : Layout) (adjustable : Adjustable layout)
    {found : ListNode} {allocStart : Nat} {rest : List ListNode}
    (bounded : ∀ r ∈ allocator.head, r.addr + r.size < 2 ^ 64)
    (search : findRegion allocator.head (adjustedSize layout) (adjustedAlign layout) =
      .ok (some (found, allocStart, rest))) :
    alloc allocator layout =
      .ok (allocStart, ⟨excessRegion found (allocStart + adjustedSize layout) ++ rest⟩) := by
  obtain ⟨pre, post, split, -, suitable, start⟩ := findRegion_some (adjustedAlign_pow layout) bounded search
  have foundBounded := bounded found (by simp [split])
  obtain ⟨fits, excess⟩ := suitable
  rw [← start] at fits excess
  have endAligned : (allocStart + adjustedSize layout) % listNodeAlign = 0 := by
    have startAligned : listNodeAlign ∣ allocStart :=
      start ▸ Nat.dvd_trans (listNodeAlign_dvd_adjustedAlign layout) (Align.dvd_roundUp _ _)
    exact Nat.mod_eq_zero_of_dvd (Nat.dvd_add startAligned (listNodeAlign_dvd_adjustedSize layout))
  simp only [alloc, sizeAlign_eq layout adjustable, search, bind, Except.bind, checkedAdd,
    show allocStart + adjustedSize layout < 2 ^ 64 by omega, if_true, expect_some, endAddr_eq found foundBounded,
    sub_of_le _ _ fits]
  by_cases leftover : found.addr + found.size - (allocStart + adjustedSize layout) > 0
  · have large : listNodeSize ≤ found.addr + found.size - (allocStart + adjustedSize layout) := by omega
    simp only [leftover, if_true, addFreeRegion_eq _ _ _ endAligned large (by omega), pure, Except.pure,
      excessRegion, show allocStart + adjustedSize layout < found.addr + found.size by omega]
    rfl
  · simp only [leftover, if_false, pure, Except.pure, excessRegion,
      show ¬ allocStart + adjustedSize layout < found.addr + found.size by omega]
    rfl

theorem alloc_cases {allocator allocator' : LinkedListAllocator} {layout : Layout} {ptr : Nat}
    (bounded : ∀ r ∈ allocator.head, r.addr + r.size < 2 ^ 64)
    (result : alloc allocator layout = .ok (ptr, allocator')) :
    Adjustable layout ∧
      ((ptr = 0 ∧ allocator' = allocator) ∨
        ∃ found pre post, allocator.head = pre ++ found :: post ∧
          Suitable found (adjustedSize layout) (adjustedAlign layout) ∧
          ptr = Align.roundUp found.addr (adjustedAlign layout) ∧
          allocator'.head = excessRegion found (ptr + adjustedSize layout) ++ (pre ++ post)) := by
  by_cases adjustable : Adjustable layout
  · refine ⟨adjustable, ?_⟩
    cases search : findRegion allocator.head (adjustedSize layout) (adjustedAlign layout) with
    | error e => simp [alloc, sizeAlign_eq layout adjustable, search, bind, Except.bind] at result
    | ok next =>
        rcases next with _ | ⟨found, allocStart, rest⟩
        · rw [alloc_of_none allocator layout adjustable search] at result
          simp only [Except.ok.injEq, Prod.mk.injEq] at result
          exact .inl ⟨result.1.symm, result.2.symm⟩
        · obtain ⟨pre, post, split, rfl, suitable, start⟩ :=
            findRegion_some (adjustedAlign_pow layout) bounded search
          rw [alloc_of_found allocator layout adjustable bounded search] at result
          simp only [Except.ok.injEq, Prod.mk.injEq] at result
          obtain ⟨rfl, rfl⟩ := result
          exact .inr ⟨found, pre, post, split, suitable, start, rfl⟩
  · simp [alloc, sizeAlign_error layout adjustable, bind, Except.bind] at result

theorem alloc_error {allocator : LinkedListAllocator} {layout : Layout} {e : Panic}
    (bounded : ∀ r ∈ allocator.head, r.addr + r.size < 2 ^ 64)
    (result : alloc allocator layout = .error e) : e = overflowAdd ∨ e = adjustingAlignmentFailed := by
  by_cases adjustable : Adjustable layout
  · cases search : findRegion allocator.head (adjustedSize layout) (adjustedAlign layout) with
    | error e' =>
        simp only [alloc, sizeAlign_eq layout adjustable, search, bind, Except.bind, Except.error.injEq] at result
        subst result
        exact .inl (findRegion_error (adjustedAlign_pow layout) bounded search)
    | ok next =>
        rcases next with _ | ⟨found, allocStart, rest⟩
        · rw [alloc_of_none allocator layout adjustable search] at result
          cases result
        · rw [alloc_of_found allocator layout adjustable bounded search] at result
          cases result
  · simp only [alloc, sizeAlign_error layout adjustable, bind, Except.bind, Except.error.injEq] at result
    exact .inr result.symm

end Emos.Allocator.LinkedList
