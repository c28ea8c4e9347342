import Mathlib
import Emos.Allocator.LinkedList
import Emos.Lib.Extent

set_option autoImplicit false

namespace Emos.Allocator.LinkedList

open Checked

def regionExtent (region : ListNode) : Extent := ⟨region.addr, region.size⟩

def liveExtent (entry : Nat × Layout) : Extent := ⟨entry.1, adjustedSize entry.2⟩

def blocks (allocator : LinkedListAllocator) (live : List (Nat × Layout)) : List Extent :=
  allocator.head.map regionExtent ++ live.map liveExtent

theorem blocks_split (pre post : List ListNode) (found : ListNode) (live : List (Nat × Layout)) :
    (blocks ⟨pre ++ found :: post⟩ live).Perm (regionExtent found :: blocks ⟨pre ++ post⟩ live) := by
  simp [blocks]

theorem blocks_grant (excess rest : List ListNode) (entry : Nat × Layout) (live : List (Nat × Layout)) :
    (blocks ⟨excess ++ rest⟩ (entry :: live)).Perm
      ((excess.map regionExtent ++ [liveExtent entry]) ++ blocks ⟨rest⟩ live) := by
  simp only [blocks, List.map_append, List.map_cons, List.append_assoc, List.singleton_append]
  exact List.Perm.append_left _ List.perm_middle

theorem blocks_keep (excess rest : List ListNode) (live : List (Nat × Layout)) :
    blocks ⟨excess ++ rest⟩ live = excess.map regionExtent ++ blocks ⟨rest⟩ live := by
  simp [blocks]

theorem blocks_release (head : List ListNode) (live : List (Nat × Layout)) (entry : Nat × Layout)
    (member : entry ∈ live) :
    (blocks ⟨⟨entry.1, adjustedSize entry.2⟩ :: head⟩ (live.erase entry)).Perm (blocks ⟨head⟩ live) := by
  have moved := ((List.perm_cons_erase member).map liveExtent).symm
  have same : regionExtent ⟨entry.1, adjustedSize entry.2⟩ = liveExtent entry := rfl
  simp only [blocks, List.map_cons, List.cons_append, same]
  exact (List.perm_middle.symm).trans (List.Perm.append_left _ (by simpa using moved))

-- The allocator's invariant over the heap `heap`: free regions and live allocations are
-- pairwise apart and inside the heap, every free region can hold its node, and every live
-- allocation sits where `alloc` put it.
structure Invariant (heap : Extent) (allocator : LinkedListAllocator) (live : List (Nat × Layout)) : Prop where
  apart : (blocks allocator live).Pairwise Extent.Apart
  inside : ∀ e ∈ blocks allocator live, e.Within heap
  freeAligned : ∀ r ∈ allocator.head, r.addr % listNodeAlign = 0
  freeLarge : ∀ r ∈ allocator.head, listNodeSize ≤ r.size
  liveAligned : ∀ x ∈ live, x.1 % adjustedAlign x.2 = 0
  liveAdjustable : ∀ x ∈ live, Adjustable x.2

-- `alloc` cuts a found region into the allocation at `ptr` and the excess after it; the
-- padding in front is dropped. These facts hold for any such cut.
section Cut

variable {found : ListNode} {ptr : Nat} {layout : Layout}
  (below : found.addr ≤ ptr) (fits : ptr + adjustedSize layout ≤ found.addr + found.size)

theorem mem_excessRegion {allocEnd : Nat} {r : ListNode} (member : r ∈ excessRegion found allocEnd) :
    allocEnd < found.addr + found.size ∧ r = ⟨allocEnd, found.addr + found.size - allocEnd⟩ := by
  unfold excessRegion at member
  split_ifs at member with nonempty
  · exact ⟨nonempty, List.mem_singleton.mp member⟩
  · cases member

include below fits in
theorem cut_within : ∀ e ∈ (excessRegion found (ptr + adjustedSize layout)).map regionExtent ++
    [liveExtent (ptr, layout)], e.Within (regionExtent found) := by
  intro e member
  rw [Extent.within_iff]
  rcases List.mem_append.mp member with piece | fresh
  · obtain ⟨r, excess, rfl⟩ := List.mem_map.mp piece
    obtain ⟨-, rfl⟩ := mem_excessRegion excess
    simp only [regionExtent]
    omega
  · rw [List.mem_singleton.mp fresh]
    simp only [liveExtent, regionExtent]
    omega

theorem cut_apart : ((excessRegion found (ptr + adjustedSize layout)).map regionExtent ++
    [liveExtent (ptr, layout)]).Pairwise Extent.Apart := by
  refine List.pairwise_append.mpr ⟨?_, List.pairwise_singleton _ _, ?_⟩
  · simp only [excessRegion]
    split_ifs <;> simp
  · intro e piece f fresh
    obtain ⟨r, excess, rfl⟩ := List.mem_map.mp piece
    obtain ⟨-, rfl⟩ := mem_excessRegion excess
    rw [List.mem_singleton.mp fresh, Extent.apart_iff]
    simp only [liveExtent, regionExtent]
    omega

theorem excess_free (start : ptr = Align.roundUp found.addr (adjustedAlign layout))
    (exact : ptr + adjustedSize layout = found.addr + found.size ∨
      ptr + adjustedSize layout + listNodeSize ≤ found.addr + found.size) :
    ∀ r ∈ excessRegion found (ptr + adjustedSize layout), r.addr % listNodeAlign = 0 ∧ listNodeSize ≤ r.size := by
  intro r member
  obtain ⟨nonempty, rfl⟩ := mem_excessRegion member
  have startAligned : listNodeAlign ∣ ptr :=
    start ▸ Nat.dvd_trans (listNodeAlign_dvd_adjustedAlign layout) (Align.dvd_roundUp _ _)
  refine ⟨Nat.mod_eq_zero_of_dvd (Nat.dvd_add startAligned (listNodeAlign_dvd_adjustedSize layout)), ?_⟩
  simp only
  omega

end Cut

theorem free_after_cut {pre post excess : List ListNode} {found : ListNode} {P : ListNode → Prop}
    (old : ∀ r ∈ pre ++ found :: post, P r) (fresh : ∀ r ∈ excess, P r) : ∀ r ∈ excess ++ (pre ++ post), P r := by
  intro r member
  rcases List.mem_append.mp member with piece | kept
  · exact fresh r piece
  · refine old r ?_
    simp only [List.mem_append, List.mem_cons] at kept ⊢
    tauto

section Invariant

variable {heap : Extent} (top : heap.start + heap.length ≤ usizeMax)
include top

theorem Invariant.freeBounded {allocator : LinkedListAllocator} {live : List (Nat × Layout)}
    (inv : Invariant heap allocator live) : ∀ r ∈ allocator.head, r.addr + r.size < 2 ^ 64 := by
  intro r member
  have within := (Extent.within_iff _ _).mp (inv.inside _ (List.mem_append_left _ (List.mem_map_of_mem member)))
  have large := inv.freeLarge r member
  unfold regionExtent at within
  unfold usizeMax at top
  unfold listNodeSize at large
  simp only at within
  omega

theorem Invariant.liveBounded {allocator : LinkedListAllocator} {live : List (Nat × Layout)}
    (inv : Invariant heap allocator live) : ∀ x ∈ live, x.1 + adjustedSize x.2 < 2 ^ 64 := by
  intro x member
  have within := (Extent.within_iff _ _).mp (inv.inside _ (List.mem_append_right _ (List.mem_map_of_mem member)))
  have large := listNodeSize_le_adjustedSize x.2
  unfold liveExtent at within
  unfold usizeMax at top
  unfold listNodeSize at large
  simp only at within
  omega

theorem alloc_preserves {allocator allocator' : LinkedListAllocator} {live : List (Nat × Layout)}
    {layout : Layout} {ptr : Nat} (inv : Invariant heap allocator live)
    (result : alloc allocator layout = .ok (ptr, allocator')) :
    Invariant heap allocator' (if ptr = 0 then live else (ptr, layout) :: live) := by
  obtain ⟨adjustable, missed | ⟨found, pre, post, split, suitable, start, head'⟩⟩ :=
    alloc_cases (inv.freeBounded top) result
  · obtain ⟨rfl, rfl⟩ := missed
    simpa using inv
  obtain ⟨fits, exact⟩ := suitable
  rw [← start] at fits exact
  have below : found.addr ≤ ptr := start ▸ Align.le_roundUp _ _ (adjustedAlign_pos layout)
  have splitAt : allocator = ⟨pre ++ found :: post⟩ := by
    cases allocator
    simp_all
  have rebuilt : allocator' = ⟨excessRegion found (ptr + adjustedSize layout) ++ (pre ++ post)⟩ := by
    cases allocator'
    simp_all
  subst splitAt rebuilt
  have whole := Extent.pairwise_apart_perm (blocks_split pre post found live) inv.apart
  have inFound : (regionExtent found).Within heap := inv.inside _ (by simp [blocks])
  have others : ∀ e ∈ blocks ⟨pre ++ post⟩ live, e ∈ blocks ⟨pre ++ found :: post⟩ live :=
    fun e member => (blocks_split pre post found live).mem_iff.mpr (List.mem_cons_of_mem _ member)
  have pieces : ((excessRegion found (ptr + adjustedSize layout)).map regionExtent ++
      [liveExtent (ptr, layout)]).Pairwise Extent.Apart := cut_apart
  have piecesWithin := cut_within below fits
  have excess := excess_free start exact
  have freeAligned := free_after_cut inv.freeAligned fun r piece => (excess r piece).1
  have freeLarge := free_after_cut inv.freeLarge fun r piece => (excess r piece).2
  by_cases null : ptr = 0
  · -- a null result loses the allocation: only the excess goes back on the free list
    rw [if_pos null]
    have excessWithin : ∀ e ∈ (excessRegion found (ptr + adjustedSize layout)).map regionExtent,
        e.Within (regionExtent found) := fun e piece => piecesWithin e (List.mem_append_left _ piece)
    refine ⟨?_, ?_, freeAligned, freeLarge, inv.liveAligned, inv.liveAdjustable⟩
    · rw [blocks_keep]
      exact Extent.pairwise_apart_split whole excessWithin (pieces.sublist (List.sublist_append_left _ _))
    · intro e member
      rw [blocks_keep] at member
      rcases List.mem_append.mp member with piece | old
      · exact (excessWithin e piece).trans inFound
      · exact inv.inside e (others e old)
  · rw [if_neg null]
    refine ⟨?_, ?_, freeAligned, freeLarge, ?_, ?_⟩
    · exact Extent.pairwise_apart_perm (blocks_grant _ _ _ _).symm
        (Extent.pairwise_apart_split whole piecesWithin pieces)
    · intro e member
      rcases List.mem_append.mp ((blocks_grant _ _ _ _).mem_iff.mp member) with piece | old
      · exact (piecesWithin e piece).trans inFound
      · exact inv.inside e (others e old)
    · intro x member
      rcases List.mem_cons.mp member with rfl | old
      · exact start ▸ Nat.mod_eq_zero_of_dvd (Align.dvd_roundUp _ _)
      · exact inv.liveAligned x old
    · intro x member
      rcases List.mem_cons.mp member with rfl | old
      · exact adjustable
      · exact inv.liveAdjustable x old

theorem dealloc_preserves {allocator : LinkedListAllocator} {live : List (Nat × Layout)} {ptr : Nat}
    {layout : Layout} (inv : Invariant heap allocator live) (member : (ptr, layout) ∈ live) :
    ∃ allocator', dealloc allocator ptr layout = .ok allocator' ∧
      Invariant heap allocator' (live.erase (ptr, layout)) := by
  have aligned : ptr % listNodeAlign = 0 :=
    Nat.mod_eq_zero_of_dvd (Nat.dvd_trans (listNodeAlign_dvd_adjustedAlign layout)
      (Nat.dvd_of_mod_eq_zero (inv.liveAligned _ member)))
  refine ⟨_, dealloc_eq allocator ptr layout (inv.liveAdjustable _ member) aligned
    (inv.liveBounded top _ member), ?_⟩
  have moved := blocks_release allocator.head live (ptr, layout) member
  refine ⟨Extent.pairwise_apart_perm moved.symm inv.apart, fun e kept => inv.inside e (moved.mem_iff.mp kept),
    ?_, ?_, fun x kept => inv.liveAligned x (List.mem_of_mem_erase kept),
    fun x kept => inv.liveAdjustable x (List.mem_of_mem_erase kept)⟩
  · intro r free
    rcases List.mem_cons.mp free with rfl | old
    · exact aligned
    · exact inv.freeAligned r old
  · intro r free
    rcases List.mem_cons.mp free with rfl | old
    · exact listNodeSize_le_adjustedSize layout
    · exact inv.freeLarge r old

end Invariant

-- One call by a client that keeps the `GlobalAlloc` contract; `live` holds the allocations
-- handed out and not yet freed, with the layouts they were asked with.
inductive Step : LinkedListAllocator × List (Nat × Layout) → LinkedListAllocator × List (Nat × Layout) → Prop
  | alloc (allocator allocator' : LinkedListAllocator) (live : List (Nat × Layout)) (layout : Layout) (ptr : Nat)
      (result : alloc allocator layout = .ok (ptr, allocator')) :
      Step (allocator, live) (allocator', if ptr = 0 then live else (ptr, layout) :: live)
  | dealloc (allocator allocator' : LinkedListAllocator) (live : List (Nat × Layout)) (ptr : Nat) (layout : Layout)
      (member : (ptr, layout) ∈ live) (result : dealloc allocator ptr layout = .ok allocator') :
      Step (allocator, live) (allocator', live.erase (ptr, layout))

section Runs

variable (heapStart heapSize : Nat) (aligned : heapStart % listNodeAlign = 0) (large : listNodeSize ≤ heapSize)
  (top : heapStart + heapSize ≤ usizeMax)
include aligned large top

theorem initial_invariant {initial : LinkedListAllocator} (initialized : init new heapStart heapSize = .ok initial) :
    Invariant ⟨heapStart, heapSize⟩ initial [] := by
  have bounded : heapStart + heapSize < 2 ^ 64 := by
    unfold usizeMax at top
    omega
  rw [init_eq heapStart heapSize aligned large bounded, Except.ok.injEq] at initialized
  subst initialized
  refine ⟨by simp [blocks], ?_, by simpa using aligned, by simpa using large, by simp, by simp⟩
  intro e member
  simp only [blocks, List.map_cons, List.map_nil, List.append_nil, List.mem_singleton] at member
  exact member ▸ Extent.within_refl _

theorem reachable_invariant {initial : LinkedListAllocator} (initialized : init new heapStart heapSize = .ok initial)
    {config : LinkedListAllocator × List (Nat × Layout)}
    (reachable : Relation.ReflTransGen Step (initial, []) config) :
    Invariant ⟨heapStart, heapSize⟩ config.1 config.2 := by
  induction reachable with
  | refl => exact initial_invariant heapStart heapSize aligned large top initialized
  | tail _ step ih =>
      cases step with
      | alloc allocator allocator' live layout ptr result => exact alloc_preserves top ih result
      | dealloc allocator allocator' live ptr layout member result =>
          obtain ⟨allocator'', freed, inv⟩ := dealloc_preserves top ih member
          rw [result, Except.ok.injEq] at freed
          exact freed ▸ inv

end Runs

theorem reachable_free_list_and_allocations_sound (heapStart heapSize : Nat)
    (aligned : heapStart % listNodeAlign = 0) (large : listNodeSize ≤ heapSize) (top : heapStart + heapSize ≤ usizeMax)
    (initial : LinkedListAllocator) (initialized : init new heapStart heapSize = .ok initial)
    (allocator : LinkedListAllocator) (live : List (Nat × Layout))
    (reachable : Relation.ReflTransGen Step (initial, []) (allocator, live)) :
    allocator.head.Pairwise (fun r s => (regionExtent r).Apart (regionExtent s)) ∧
    (∀ r ∈ allocator.head, r.addr % listNodeAlign = 0 ∧ listNodeSize ≤ r.size ∧
      (regionExtent r).Within ⟨heapStart, heapSize⟩) ∧
    (∀ layout ptr allocator', alloc allocator layout = .ok (ptr, allocator') → ptr ≠ 0 → ptr % layout.align = 0) ∧
    (∀ x ∈ live, ∃ size align, sizeAlign x.2 = .ok (size, align) ∧ x.1 % x.2.align = 0 ∧
      (Extent.mk x.1 size).Within ⟨heapStart, heapSize⟩ ∧
      ∀ r ∈ allocator.head, (Extent.mk x.1 size).Apart (regionExtent r)) ∧
    live.Pairwise (fun x y => (liveExtent x).Apart (liveExtent y)) ∧
    (∀ layout e, alloc allocator layout = .error e → e = overflowAdd ∨ e = adjustingAlignmentFailed) ∧
    (∀ x ∈ live, ∃ allocator', dealloc allocator x.1 x.2 = .ok allocator') := by
  have inv := reachable_invariant heapStart heapSize aligned large top initialized reachable
  have parts := List.pairwise_append.mp inv.apart
  refine ⟨List.pairwise_map.mp parts.1, ?_, ?_, ?_, List.pairwise_map.mp parts.2.1, ?_, ?_⟩
  · intro r free
    exact ⟨inv.freeAligned r free, inv.freeLarge r free,
      inv.inside _ (List.mem_append_left _ (List.mem_map_of_mem free))⟩
  · intro layout ptr allocator' result nonNull
    have next := alloc_preserves top inv result
    rw [if_neg nonNull] at next
    exact Nat.mod_eq_zero_of_dvd (Nat.dvd_trans (align_dvd_adjustedAlign layout)
      (Nat.dvd_of_mod_eq_zero (next.liveAligned _ List.mem_cons_self)))
  · intro x member
    refine ⟨adjustedSize x.2, adjustedAlign x.2, sizeAlign_eq x.2 (inv.liveAdjustable x member),
      Nat.mod_eq_zero_of_dvd (Nat.dvd_trans (align_dvd_adjustedAlign x.2)
        (Nat.dvd_of_mod_eq_zero (inv.liveAligned x member))),
      inv.inside _ (List.mem_append_right _ (List.mem_map_of_mem member)), ?_⟩
    intro r free
    exact (parts.2.2 _ (List.mem_map_of_mem free) _ (List.mem_map_of_mem member)).symm
  · intro layout e result
    exact alloc_error (inv.freeBounded top) result
  · intro x member
    obtain ⟨allocator', freed, -⟩ := dealloc_preserves top inv member
    exact ⟨allocator', freed⟩

theorem kernel_heap_after_first_box :
    let allocator : LinkedListAllocator := ⟨[⟨heapStart + 16, heapSize - 16⟩]⟩
    let live : List (Nat × Layout) := [(heapStart, ⟨8, 8, by decide, by decide⟩)]
    allocator.head.Pairwise (fun r s => (regionExtent r).Apart (regionExtent s)) ∧
    (∀ r ∈ allocator.head, r.addr % listNodeAlign = 0 ∧ listNodeSize ≤ r.size ∧
      (regionExtent r).Within ⟨heapStart, heapSize⟩) ∧
    (∀ layout ptr allocator', alloc allocator layout = .ok (ptr, allocator') → ptr ≠ 0 → ptr % layout.align = 0) ∧
    (∀ x ∈ live, ∃ size align, sizeAlign x.2 = .ok (size, align) ∧ x.1 % x.2.align = 0 ∧
      (Extent.mk x.1 size).Within ⟨heapStart, heapSize⟩ ∧
      ∀ r ∈ allocator.head, (Extent.mk x.1 size).Apart (regionExtent r)) ∧
    live.Pairwise (fun x y => (liveExtent x).Apart (liveExtent y)) ∧
    (∀ layout e, alloc allocator layout = .error e → e = overflowAdd ∨ e = adjustingAlignmentFailed) ∧
    (∀ x ∈ live, ∃ allocator', dealloc allocator x.1 x.2 = .ok allocator') :=
  reachable_free_list_and_allocations_sound heapStart heapSize (by decide) (by decide) (by decide)
    ⟨[⟨heapStart, heapSize⟩]⟩ (by rfl) ⟨[⟨heapStart + 16, heapSize - 16⟩]⟩ [(heapStart, ⟨8, 8, by decide, by decide⟩)]
    (Relation.ReflTransGen.single (Step.alloc _ _ [] _ heapStart (by rfl)))

section Reuse

theorem findRegion_cons_of_suitable {region : ListNode} {size align : Nat} (pow : align.isPowerOfTwo)
    (bounded : region.addr + region.size < 2 ^ 64) (room : region.addr + align < 2 ^ 64)
    (suitable : Suitable region size align) (rest : List ListNode) :
    findRegion (region :: rest) size align = .ok (some (region, Align.roundUp region.addr align, rest)) := by
  rw [findRegion, allocFromRegion_eq region size align pow bounded room, if_pos suitable]
  rfl

theorem reachable_live_pos {initial : LinkedListAllocator} {config : LinkedListAllocator × List (Nat × Layout)}
    (reachable : Relation.ReflTransGen Step (initial, []) config) : ∀ x ∈ config.2, 0 < x.1 := by
  induction reachable with
  | refl => exact fun x member => absurd member List.not_mem_nil
  | tail _ step ih =>
      cases step with
      | alloc allocator allocator' live layout ptr result =>
          intro x member
          by_cases null : ptr = 0
          · rw [if_pos null] at member
            exact ih x member
          · rw [if_neg null] at member
            rcases List.mem_cons.mp member with rfl | old
            · exact Nat.pos_of_ne_zero null
            · exact ih x old
      | dealloc allocator allocator' live ptr layout member result =>
          exact fun x kept => ih x (List.mem_of_mem_erase kept)

theorem Invariant.free_inHeap {heapStart heapSize : Nat} {allocator : LinkedListAllocator}
    {live : List (Nat × Layout)} (inv : Invariant ⟨heapStart, heapSize⟩ allocator live) :
    ∀ r ∈ allocator.head, heapStart ≤ r.addr ∧ r.addr + r.size ≤ heapStart + heapSize := by
  intro r free
  have within := (Extent.within_iff _ _).mp (inv.inside _ (List.mem_append_left _ (List.mem_map_of_mem free)))
  have nonempty := inv.freeLarge r free
  unfold regionExtent at within
  unfold listNodeSize at nonempty
  simp only at within
  omega

theorem Invariant.live_inHeap {heapStart heapSize : Nat} {allocator : LinkedListAllocator}
    {live : List (Nat × Layout)} (inv : Invariant ⟨heapStart, heapSize⟩ allocator live) :
    ∀ x ∈ live, heapStart ≤ x.1 ∧ x.1 + adjustedSize x.2 ≤ heapStart + heapSize := by
  intro x member
  have within := (Extent.within_iff _ _).mp (inv.inside _ (List.mem_append_right _ (List.mem_map_of_mem member)))
  have nonempty := listNodeSize_le_adjustedSize x.2
  unfold liveExtent at within
  unfold listNodeSize at nonempty
  simp only at within
  omega

end Reuse

-- `dealloc` links the block at the front, where `alloc` finds it first and takes it whole; at the
-- very top of the address space `align_up` of the freed block can overflow.
theorem freed_allocation_comes_back_to_the_same_request (heapStart heapSize : Nat)
    (aligned : heapStart % listNodeAlign = 0) (large : listNodeSize ≤ heapSize) (lowerHalf : heapStart + heapSize ≤ 2 ^ 63)
    (initial : LinkedListAllocator) (initialized : init new heapStart heapSize = .ok initial)
    (allocator : LinkedListAllocator) (live : List (Nat × Layout))
    (reachable : Relation.ReflTransGen Step (initial, []) (allocator, live)) (ptr : Nat) (layout : Layout)
    (member : (ptr, layout) ∈ live) :
    ∃ freed, dealloc allocator ptr layout = .ok freed ∧ alloc freed layout = .ok (ptr, allocator) := by
  have top : heapStart + heapSize ≤ usizeMax := by
    unfold usizeMax
    omega
  have inv := reachable_invariant heapStart heapSize aligned large top initialized reachable
  have adjustable := inv.liveAdjustable _ member
  have bounded : ptr + adjustedSize layout < 2 ^ 64 := inv.liveBounded top _ member
  have ptrAligned : adjustedAlign layout ∣ ptr := Nat.dvd_of_mod_eq_zero (inv.liveAligned _ member)
  have nodeAligned : ptr % listNodeAlign = 0 :=
    Nat.mod_eq_zero_of_dvd (Nat.dvd_trans (listNodeAlign_dvd_adjustedAlign layout) ptrAligned)
  have room : ptr + adjustedAlign layout < 2 ^ 64 := by
    have positive : 0 < ptr := reachable_live_pos reachable _ member
    have atLeast := Nat.le_of_dvd positive ptrAligned
    have inHeap := inv.live_inHeap _ member
    have nonempty := listNodeSize_le_adjustedSize layout
    unfold listNodeSize at nonempty
    dsimp only at inHeap
    omega
  have start : Align.roundUp ptr (adjustedAlign layout) = ptr :=
    Align.roundUp_of_dvd ptr _ (adjustedAlign_pos layout) ptrAligned
  have suitable : Suitable ⟨ptr, adjustedSize layout⟩ (adjustedSize layout) (adjustedAlign layout) := by
    unfold Suitable
    simp [start]
  have freedBounded : ∀ r ∈ ⟨ptr, adjustedSize layout⟩ :: allocator.head, r.addr + r.size < 2 ^ 64 := by
    intro r member'
    rcases List.mem_cons.mp member' with rfl | free
    · exact bounded
    · exact inv.freeBounded top r free
  refine ⟨_, dealloc_eq allocator ptr layout adjustable nodeAligned bounded, ?_⟩
  rw [alloc_of_found _ layout adjustable freedBounded
    (findRegion_cons_of_suitable (adjustedAlign_pow layout) bounded room suitable allocator.head), start]
  simp [excessRegion]

theorem kernel_box_freed_and_asked_again :
    heapStart % listNodeAlign = 0 ∧ listNodeSize ≤ heapSize ∧ heapStart + heapSize ≤ 2 ^ 63 ∧
    init new heapStart heapSize = .ok ⟨[⟨heapStart, heapSize⟩]⟩ ∧
    Relation.ReflTransGen Step (⟨[⟨heapStart, heapSize⟩]⟩, [])
      (⟨[⟨heapStart + 16, heapSize - 16⟩]⟩, [(heapStart, ⟨8, 8, ⟨3, rfl⟩, Nat.le_of_ble_eq_true rfl⟩)]) ∧
    (heapStart, ⟨8, 8, ⟨3, rfl⟩, Nat.le_of_ble_eq_true rfl⟩) ∈
      [(heapStart, (⟨8, 8, ⟨3, rfl⟩, Nat.le_of_ble_eq_true rfl⟩ : Layout))] ∧
    ∃ freed, dealloc ⟨[⟨heapStart + 16, heapSize - 16⟩]⟩ heapStart ⟨8, 8, ⟨3, rfl⟩, Nat.le_of_ble_eq_true rfl⟩ = .ok freed ∧
      alloc freed ⟨8, 8, ⟨3, rfl⟩, Nat.le_of_ble_eq_true rfl⟩ = .ok (heapStart, ⟨[⟨heapStart + 16, heapSize - 16⟩]⟩) := by
  have reachable : Relation.ReflTransGen Step (⟨[⟨heapStart, heapSize⟩]⟩, [])
      (⟨[⟨heapStart + 16, heapSize - 16⟩]⟩, [(heapStart, ⟨8, 8, ⟨3, rfl⟩, Nat.le_of_ble_eq_true rfl⟩)]) :=
    .single (Step.alloc _ _ [] _ heapStart (by rfl))
  exact ⟨by decide, by decide, by decide, rfl, reachable, List.mem_cons_self,
    freed_allocation_comes_back_to_the_same_request heapStart heapSize (by decide) (by decide) (by decide) _ rfl _ _
      reachable heapStart _ List.mem_cons_self⟩

theorem alloc_is_first_fit (heapStart heapSize : Nat) (nonNull : 0 < heapStart)
    (aligned : heapStart % listNodeAlign = 0) (large : listNodeSize ≤ heapSize) (lowerHalf : heapStart + heapSize ≤ 2 ^ 63)
    (initial : LinkedListAllocator) (initialized : init new heapStart heapSize = .ok initial)
    (allocator : LinkedListAllocator) (live : List (Nat × Layout))
    (reachable : Relation.ReflTransGen Step (initial, []) (allocator, live)) (layout : Layout)
    (adjustable : Adjustable layout) (alignBelow : adjustedAlign layout ≤ 2 ^ 63) :
    ∃ ptr allocator', alloc allocator layout = .ok (ptr, allocator') ∧
      ((ptr = 0 ∧ allocator' = allocator ∧ ∀ r ∈ allocator.head, ¬ Suitable r (adjustedSize layout) (adjustedAlign layout)) ∨
        (0 < ptr ∧ ∃ pre found post, allocator.head = pre ++ found :: post ∧
          (∀ r ∈ pre, ¬ Suitable r (adjustedSize layout) (adjustedAlign layout)) ∧
          Suitable found (adjustedSize layout) (adjustedAlign layout) ∧
          ptr = Align.roundUp found.addr (adjustedAlign layout))) := by
  have top : heapStart + heapSize ≤ usizeMax := by
    unfold usizeMax
    omega
  have inv := reachable_invariant heapStart heapSize aligned large top initialized reachable
  have room : ∀ r ∈ allocator.head, r.addr + adjustedAlign layout < 2 ^ 64 := by
    intro r free
    have below := inv.free_inHeap r free
    have nonempty := inv.freeLarge r free
    unfold listNodeSize at nonempty
    omega
  rcases findRegion_first (adjustedAlign_pow layout) (inv.freeBounded top) room with
    ⟨missing, unsuitable⟩ | ⟨pre, found, post, split, before, fits, hit⟩
  · exact ⟨0, allocator, alloc_of_none allocator layout adjustable missing, .inl ⟨rfl, rfl, unsuitable⟩⟩
  · refine ⟨_, _, alloc_of_found allocator layout adjustable (inv.freeBounded top) hit,
      .inr ⟨?_, pre, found, post, split, before, fits, rfl⟩⟩
    have start := (inv.free_inHeap found (by rw [split]; simp)).1
    have raised := Align.le_roundUp found.addr (adjustedAlign layout) (adjustedAlign_pos layout)
    omega

theorem kernel_second_box_first_fit :
    0 < heapStart ∧ heapStart % listNodeAlign = 0 ∧ listNodeSize ≤ heapSize ∧ heapStart + heapSize ≤ 2 ^ 63 ∧
    init new heapStart heapSize = .ok ⟨[⟨heapStart, heapSize⟩]⟩ ∧
    Relation.ReflTransGen Step (⟨[⟨heapStart, heapSize⟩]⟩, [])
      (⟨[⟨heapStart + 16, heapSize - 16⟩]⟩, [(heapStart, ⟨8, 8, ⟨3, rfl⟩, Nat.le_of_ble_eq_true rfl⟩)]) ∧
    Adjustable ⟨8, 8, ⟨3, rfl⟩, Nat.le_of_ble_eq_true rfl⟩ ∧ adjustedAlign ⟨8, 8, ⟨3, rfl⟩, Nat.le_of_ble_eq_true rfl⟩ ≤ 2 ^ 63 ∧
    ∃ ptr allocator', alloc ⟨[⟨heapStart + 16, heapSize - 16⟩]⟩ ⟨8, 8, ⟨3, rfl⟩, Nat.le_of_ble_eq_true rfl⟩ =
        .ok (ptr, allocator') ∧
      ((ptr = 0 ∧ allocator' = ⟨[⟨heapStart + 16, heapSize - 16⟩]⟩ ∧
          ∀ r ∈ [(⟨heapStart + 16, heapSize - 16⟩ : ListNode)],
            ¬ Suitable r (adjustedSize ⟨8, 8, ⟨3, rfl⟩, Nat.le_of_ble_eq_true rfl⟩)
              (adjustedAlign ⟨8, 8, ⟨3, rfl⟩, Nat.le_of_ble_eq_true rfl⟩)) ∨
        (0 < ptr ∧ ∃ pre found post, [(⟨heapStart + 16, heapSize - 16⟩ : ListNode)] = pre ++ found :: post ∧
          (∀ r ∈ pre, ¬ Suitable r (adjustedSize ⟨8, 8, ⟨3, rfl⟩, Nat.le_of_ble_eq_true rfl⟩)
            (adjustedAlign ⟨8, 8, ⟨3, rfl⟩, Nat.le_of_ble_eq_true rfl⟩)) ∧
          Suitable found (adjustedSize ⟨8, 8, ⟨3, rfl⟩, Nat.le_of_ble_eq_true rfl⟩)
            (adjustedAlign ⟨8, 8, ⟨3, rfl⟩, Nat.le_of_ble_eq_true rfl⟩) ∧
          ptr = Align.roundUp found.addr (adjustedAlign ⟨8, 8, ⟨3, rfl⟩, Nat.le_of_ble_eq_true rfl⟩))) := by
  have reachable : Relation.ReflTransGen Step (⟨[⟨heapStart, heapSize⟩]⟩, [])
      (⟨[⟨heapStart + 16, heapSize - 16⟩]⟩, [(heapStart, ⟨8, 8, ⟨3, rfl⟩, Nat.le_of_ble_eq_true rfl⟩)]) :=
    .single (Step.alloc _ _ [] _ heapStart (by rfl))
  exact ⟨by decide, by decide, by decide, by decide, rfl, reachable, by decide, by decide,
    alloc_is_first_fit heapStart heapSize (by decide) (by decide) (by decide) (by decide) _ rfl _ _ reachable _
      (by decide) (by decide)⟩

end Emos.Allocator.LinkedList
