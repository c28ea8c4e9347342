import Mathlib
import Emos.Allocator.Layout
import Emos.Lib.Extent

set_option autoImplicit false

namespace Emos.Allocator.FixedSizeBlock

open Checked

-- `BLOCK_SIZES`: each size is a power of two and doubles as the block's alignment.
def blockSizes : List Nat := [8, 16, 32, 64, 128, 256, 512, 1024, 2048]

abbrev ClassIndex := Fin blockSizes.length

-- `mem::size_of::<ListNode>()` and `mem::align_of::<ListNode>()` for a node holding one
-- `Option<&mut ListNode>`.
def listNodeSize : Nat := 8
def listNodeAlign : Nat := 8

def listIndex (layout : Layout) : Option ClassIndex :=
  blockSizes.findFinIdx? (fun s => decide (s ≥ max layout.size layout.align))

-- The fallback is `linked_list_allocator::Heap`, which is not part of this repository: its
-- state is a parameter `H`, and the calls the allocator makes on it are these functions.
structure Fallback (H : Type) where
  empty : H
  init : H → Nat → Nat → H
  allocateFirstFit : H → Layout → Option Nat × H
  deallocate : H → Nat → Layout → H

-- Each of the nine `list_heads` is the list of node addresses it links, head first; the
-- `next` field of a node is the address after it in that list.
structure FixedSizeBlockAllocator (H : Type) where
  listHeads : ClassIndex → List Nat
  fallbackAllocator : H

variable {H : Type} (fallback : Fallback H)

def new : FixedSizeBlockAllocator H := ⟨fun _ => [], fallback.empty⟩

def init (a : FixedSizeBlockAllocator H) (heapStart heapSize : Nat) : FixedSizeBlockAllocator H :=
  { a with fallbackAllocator := fallback.init a.fallbackAllocator heapStart heapSize }

def fallbackAlloc (a : FixedSizeBlockAllocator H) (layout : Layout) : Nat × FixedSizeBlockAllocator H :=
  match fallback.allocateFirstFit a.fallbackAllocator layout with
  | (some ptr, heap) => (ptr, { a with fallbackAllocator := heap })
  | (none, heap) => (0, { a with fallbackAllocator := heap })

def setHead (a : FixedSizeBlockAllocator H) (index : ClassIndex) (nodes : List Nat) : FixedSizeBlockAllocator H :=
  { a with listHeads := Function.update a.listHeads index nodes }

def unwrapFailed : String := "called `Result::unwrap()` on an `Err` value"

-- `GlobalAlloc::alloc`: pop the class's list, or carve a fresh block of exactly the class
-- size and alignment out of the fallback heap; layouts above every class go to the heap.
def alloc (a : FixedSizeBlockAllocator H) (layout : Layout) : Except Panic (Nat × FixedSizeBlockAllocator H) :=
  match listIndex layout with
  | some index =>
      match a.listHeads index with
      | node :: next => .ok (node, setHead a index next)
      | [] => do
          let blockSize := blockSizes[index]
          let blockAlign := blockSize
          let blockLayout ← expect (Layout.fromSizeAlign blockSize blockAlign) unwrapFailed
          pure (fallbackAlloc fallback a blockLayout)
  | none => pure (fallbackAlloc fallback a layout)

def sizeAssertion : Panic := ⟨"assertion failed: mem::size_of::<ListNode>() <= BLOCK_SIZES[index]"⟩
def alignAssertion : Panic := ⟨"assertion failed: mem::align_of::<ListNode>() <= BLOCK_SIZES[index]"⟩

-- `GlobalAlloc::dealloc`: a block of a class is pushed on that class's list and never
-- returned to the fallback heap.
def dealloc (a : FixedSizeBlockAllocator H) (ptr : Nat) (layout : Layout) :
    Except Panic (FixedSizeBlockAllocator H) :=
  match listIndex layout with
  | some index => do
      if ¬ listNodeSize ≤ blockSizes[index] then throw sizeAssertion
      if ¬ listNodeAlign ≤ blockSizes[index] then throw alignAssertion
      pure (setHead a index (ptr :: a.listHeads index))
  | none => do
      let nonNull ← expect (if ptr = 0 then none else some ptr) "called `Option::unwrap()` on a `None` value"
      pure { a with fallbackAllocator := fallback.deallocate a.fallbackAllocator nonNull layout }

end Emos.Allocator.FixedSizeBlock

namespace Emos.Allocator.FixedSizeBlock

open Checked

variable {H : Type} (fallback : Fallback H)

theorem blockSize_pow (index : ClassIndex) : blockSizes[index].isPowerOfTwo := by
  revert index
  decide

theorem blockSize_holds_node (index : ClassIndex) :
    listNodeSize ≤ blockSizes[index] ∧ listNodeAlign ≤ blockSizes[index] := by
  revert index
  decide

theorem blockSize_le (index : ClassIndex) : blockSizes[index] ≤ 2048 := by
  revert index
  decide

def blockLayout (index : ClassIndex) : Layout :=
  ⟨blockSizes[index], blockSizes[index], blockSize_pow index, by
    rw [Align.roundUp_of_dvd _ _ (Nat.pos_of_isPowerOfTwo (blockSize_pow index)) (Nat.dvd_refl _)]
    have small := blockSize_le index
    unfold isizeMax
    omega⟩

theorem fromSizeAlign_blockSize (index : ClassIndex) :
    Layout.fromSizeAlign blockSizes[index] blockSizes[index] = some (blockLayout index) :=
  Layout.fromSizeAlign_eq_some _ _ _ _

theorem listIndex_covers (layout : Layout) (index : ClassIndex) (found : listIndex layout = some index) :
    max layout.size layout.align ≤ blockSizes[index] := by
  simpa using (List.findFinIdx?_eq_some_iff.mp found).1

theorem align_dvd_blockSize (layout : Layout) (index : ClassIndex) (found : listIndex layout = some index) :
    layout.align ∣ blockSizes[index] := by
  have covers := listIndex_covers layout index found
  exact Align.dvd_of_isPowerOfTwo _ _ layout.align_pow (blockSize_pow index) (by omega)

def extent (block : Nat × Layout) : Extent := ⟨block.1, block.2.size⟩

-- The block the fallback heap handed out for a live allocation: a whole class block when the
-- layout has a class, the allocation itself otherwise.
def fallbackBlock (entry : Nat × Layout) : Nat × Layout :=
  match listIndex entry.2 with
  | some index => (entry.1, blockLayout index)
  | none => entry

theorem extent_within_fallbackBlock (entry : Nat × Layout) :
    (extent entry).Within (extent (fallbackBlock entry)) := by
  unfold fallbackBlock
  split
  · rename_i index found
    have covers := listIndex_covers entry.2 index found
    rw [Extent.within_iff]
    simp only [extent, blockLayout]
    omega
  · exact Extent.within_refl _

theorem fallbackBlock_of_class (ptr : Nat) (layout : Layout) (index : ClassIndex)
    (found : listIndex layout = some index) : fallbackBlock (ptr, layout) = (ptr, blockLayout index) := by
  simp [fallbackBlock, found]

theorem fallbackBlock_of_large (ptr : Nat) (layout : Layout) (large : listIndex layout = none) :
    fallbackBlock (ptr, layout) = (ptr, layout) := by
  simp [fallbackBlock, large]

def classBlocks (index : ClassIndex) (nodes : List Nat) : List (Nat × Layout) :=
  nodes.map fun node => (node, blockLayout index)

def freeBlocks (a : FixedSizeBlockAllocator H) : List (Nat × Layout) :=
  (List.finRange blockSizes.length).flatMap fun index => classBlocks index (a.listHeads index)

def outstanding (a : FixedSizeBlockAllocator H) (live : List (Nat × Layout)) : List (Nat × Layout) :=
  live.map fallbackBlock ++ freeBlocks a

theorem flatMap_perm_of_cons {α β : Type} (indices : List α) (f g : α → List β) (i : α) (b : β)
    (nodup : indices.Nodup) (member : i ∈ indices) (here : f i = b :: g i)
    (elsewhere : ∀ j, j ≠ i → f j = g j) :
    (indices.flatMap f).Perm (b :: indices.flatMap g) := by
  induction indices with
  | nil => simp at member
  | cons j rest ih =>
      obtain ⟨fresh, nodupRest⟩ := List.nodup_cons.mp nodup
      by_cases same : j = i
      · subst same
        have tail : rest.flatMap f = rest.flatMap g :=
          List.flatMap_congr fun k later => elsewhere k (fun eq => fresh (eq ▸ later))
        simp [here, tail]
      · have later : i ∈ rest := by simpa [Ne.symm same] using member
        rw [List.flatMap_cons, List.flatMap_cons, elsewhere j same]
        exact ((ih nodupRest later).append_left (g j)).trans List.perm_middle

theorem setHead_listHeads (a : FixedSizeBlockAllocator H) (index j : ClassIndex) (nodes : List Nat) :
    (setHead a index nodes).listHeads j = if j = index then nodes else a.listHeads j := by
  simp [setHead, Function.update_apply]

theorem setHead_self (a : FixedSizeBlockAllocator H) (index : ClassIndex) : setHead a index (a.listHeads index) = a := by
  simp [setHead]

theorem freeBlocks_setHead_cons (a : FixedSizeBlockAllocator H) (index : ClassIndex) (node : Nat) (rest : List Nat) :
    (freeBlocks (setHead a index (node :: rest))).Perm ((node, blockLayout index) :: freeBlocks (setHead a index rest)) := by
  apply flatMap_perm_of_cons _ _ _ index _ (List.nodup_finRange _) (List.mem_finRange index)
  · simp [setHead_listHeads, classBlocks]
  · intro j other
    simp [setHead_listHeads, other]

theorem mem_freeBlocks (a : FixedSizeBlockAllocator H) (block : Nat × Layout) :
    block ∈ freeBlocks a ↔ ∃ index, ∃ node ∈ a.listHeads index, block = (node, blockLayout index) := by
  simp [freeBlocks, classBlocks, eq_comm]

-- What the allocator relies on from `linked_list_allocator::Heap`, stated against a ghost
-- ledger: `Accounts heap blocks` says the heap has handed out exactly `blocks` and not taken
-- them back, in any order. A successful allocation is non-null, aligned, and apart from every
-- block still out; a deallocation takes back one block it handed out with that layout.
structure Fallback.Sound (Accounts : H → List (Nat × Layout) → Prop) : Prop where
  reorder : ∀ heap blocks blocks', blocks.Perm blocks' → Accounts heap blocks → Accounts heap blocks'
  allocate : ∀ heap blocks layout ptr heap', Accounts heap blocks →
    fallback.allocateFirstFit heap layout = (some ptr, heap') →
      0 < ptr ∧ ptr % layout.align = 0 ∧ (∀ b ∈ blocks, (extent (ptr, layout)).Apart (extent b)) ∧
        Accounts heap' ((ptr, layout) :: blocks)
  allocateFails : ∀ heap blocks layout heap', Accounts heap blocks →
    fallback.allocateFirstFit heap layout = (none, heap') → Accounts heap' blocks
  deallocate : ∀ heap blocks ptr layout, Accounts heap blocks → (ptr, layout) ∈ blocks →
    Accounts (fallback.deallocate heap ptr layout) (blocks.erase (ptr, layout))

structure Ledger (Accounts : H → List (Nat × Layout) → Prop) (heap : H) (blocks : List (Nat × Layout)) : Prop where
  accounts : Accounts heap blocks
  apart : blocks.Pairwise fun b c => (extent b).Apart (extent c)
  positive : ∀ b ∈ blocks, 0 < b.1
  aligned : ∀ b ∈ blocks, b.1 % b.2.align = 0

section Ledger

variable {fallback} {Accounts : H → List (Nat × Layout) → Prop} (sound : fallback.Sound Accounts)
include sound

theorem Ledger.perm {heap : H} {blocks blocks' : List (Nat × Layout)} (ledger : Ledger Accounts heap blocks)
    (perm : blocks.Perm blocks') : Ledger Accounts heap blocks' where
  accounts := sound.reorder heap blocks blocks' perm ledger.accounts
  apart := (List.Perm.pairwise_iff (fun apart => Extent.Apart.symm apart) perm).mp ledger.apart
  positive := fun b member => ledger.positive b (perm.mem_iff.mpr member)
  aligned := fun b member => ledger.aligned b (perm.mem_iff.mpr member)

theorem Ledger.allocate {heap heap' : H} {blocks : List (Nat × Layout)} {layout : Layout} {ptr : Nat}
    (ledger : Ledger Accounts heap blocks) (hit : fallback.allocateFirstFit heap layout = (some ptr, heap')) :
    Ledger Accounts heap' ((ptr, layout) :: blocks) := by
  obtain ⟨positive, aligned, apart, accounts⟩ := sound.allocate heap blocks layout ptr heap' ledger.accounts hit
  refine ⟨accounts, List.Pairwise.cons apart ledger.apart, ?_, ?_⟩
  · intro b member
    rcases List.mem_cons.mp member with rfl | old
    · exact positive
    · exact ledger.positive b old
  · intro b member
    rcases List.mem_cons.mp member with rfl | old
    · exact aligned
    · exact ledger.aligned b old

theorem Ledger.allocateFails {heap heap' : H} {blocks : List (Nat × Layout)} {layout : Layout}
    (ledger : Ledger Accounts heap blocks) (miss : fallback.allocateFirstFit heap layout = (none, heap')) :
    Ledger Accounts heap' blocks :=
  { ledger with accounts := sound.allocateFails heap blocks layout heap' ledger.accounts miss }

theorem Ledger.deallocate {heap : H} {blocks : List (Nat × Layout)} {ptr : Nat} {layout : Layout}
    (ledger : Ledger Accounts heap blocks) (member : (ptr, layout) ∈ blocks) :
    Ledger Accounts (fallback.deallocate heap ptr layout) (blocks.erase (ptr, layout)) where
  accounts := sound.deallocate heap blocks ptr layout ledger.accounts member
  apart := ledger.apart.sublist (List.erase_sublist)
  positive := fun b kept => ledger.positive b (List.mem_of_mem_erase kept)
  aligned := fun b kept => ledger.aligned b (List.mem_of_mem_erase kept)

end Ledger

theorem alloc_cases {a a' : FixedSizeBlockAllocator H} {layout : Layout} {ptr : Nat}
    (result : alloc fallback a layout = .ok (ptr, a')) :
    (∃ index next, listIndex layout = some index ∧ a.listHeads index = ptr :: next ∧ a' = setHead a index next) ∨
    (∃ index, listIndex layout = some index ∧ a.listHeads index = [] ∧
      fallbackAlloc fallback a (blockLayout index) = (ptr, a')) ∨
    (listIndex layout = none ∧ fallbackAlloc fallback a layout = (ptr, a')) := by
  unfold alloc at result
  split at result
  · rename_i index found
    split at result
    · rename_i node next heads
      simp only [Except.ok.injEq, Prod.mk.injEq] at result
      obtain ⟨rfl, rfl⟩ := result
      exact .inl ⟨index, next, found, heads, rfl⟩
    · rename_i heads
      simp only [fromSizeAlign_blockSize, expect_some, bind, Except.bind, pure, Except.pure,
        Except.ok.injEq] at result
      exact .inr (.inl ⟨index, found, heads, result⟩)
  · rename_i large
    simp only [pure, Except.pure, Except.ok.injEq] at result
    exact .inr (.inr ⟨large, result⟩)

theorem dealloc_cases {a a' : FixedSizeBlockAllocator H} {ptr : Nat} {layout : Layout}
    (result : dealloc fallback a ptr layout = .ok a') :
    (∃ index, listIndex layout = some index ∧ a' = setHead a index (ptr :: a.listHeads index)) ∨
    (listIndex layout = none ∧ ptr ≠ 0 ∧
      a' = { a with fallbackAllocator := fallback.deallocate a.fallbackAllocator ptr layout }) := by
  unfold dealloc at result
  split at result
  · rename_i index found
    have large := blockSize_holds_node index
    simp only [large, not_true_eq_false, if_false, bind, Except.bind, pure, Except.pure,
      Except.ok.injEq] at result
    exact .inl ⟨index, found, result.symm⟩
  · rename_i large
    by_cases null : ptr = 0
    · simp [null, bind, Except.bind] at result
    · simp only [null, if_false, expect_some, bind, Except.bind, pure, Except.pure, Except.ok.injEq] at result
      exact .inr ⟨large, null, result.symm⟩

theorem freeBlocks_congr {a a' : FixedSizeBlockAllocator H} (heads : a'.listHeads = a.listHeads) :
    freeBlocks a' = freeBlocks a := by
  simp [freeBlocks, heads]

-- The allocator's invariant: every block out of the fallback heap, live or on a free list,
-- stands in the heap's ledger.
def Invariant (Accounts : H → List (Nat × Layout) → Prop) (a : FixedSizeBlockAllocator H)
    (live : List (Nat × Layout)) : Prop :=
  Ledger Accounts a.fallbackAllocator (outstanding a live)

section Invariant

variable {fallback} {Accounts : H → List (Nat × Layout) → Prop} (sound : fallback.Sound Accounts)
include sound

theorem fallbackAlloc_ledger {a a' : FixedSizeBlockAllocator H} {layout : Layout} {ptr : Nat}
    {blocks : List (Nat × Layout)} (ledger : Ledger Accounts a.fallbackAllocator blocks)
    (result : fallbackAlloc fallback a layout = (ptr, a')) :
    a'.listHeads = a.listHeads ∧
      (ptr = 0 ∧ Ledger Accounts a'.fallbackAllocator blocks ∨
        0 < ptr ∧ Ledger Accounts a'.fallbackAllocator ((ptr, layout) :: blocks)) := by
  unfold fallbackAlloc at result
  split at result
  · rename_i found heap hit
    simp only [Prod.mk.injEq] at result
    obtain ⟨rfl, rfl⟩ := result
    have grown := ledger.allocate sound hit
    exact ⟨rfl, .inr ⟨grown.positive _ List.mem_cons_self, grown⟩⟩
  · rename_i heap miss
    simp only [Prod.mk.injEq] at result
    obtain ⟨rfl, rfl⟩ := result
    exact ⟨rfl, .inl ⟨rfl, ledger.allocateFails sound miss⟩⟩

theorem fallback_preserves {a a' : FixedSizeBlockAllocator H} {live : List (Nat × Layout)} {layout asked : Layout}
    {ptr : Nat} (inv : Invariant Accounts a live) (block : fallbackBlock (ptr, layout) = (ptr, asked))
    (fresh : fallbackAlloc fallback a asked = (ptr, a')) :
    Invariant Accounts a' (if ptr = 0 then live else (ptr, layout) :: live) := by
  obtain ⟨heads', grown⟩ := fallbackAlloc_ledger sound inv fresh
  rcases grown with ⟨rfl, ledger⟩ | ⟨positive, ledger⟩
  · simpa [Invariant, outstanding, freeBlocks_congr heads'] using ledger
  · rw [if_neg (Nat.pos_iff_ne_zero.mp positive)]
    simpa [Invariant, outstanding, freeBlocks_congr heads', block] using ledger

theorem alloc_preserves {a a' : FixedSizeBlockAllocator H} {live : List (Nat × Layout)} {layout : Layout}
    {ptr : Nat} (inv : Invariant Accounts a live) (result : alloc fallback a layout = .ok (ptr, a')) :
    Invariant Accounts a' (if ptr = 0 then live else (ptr, layout) :: live) := by
  rcases alloc_cases fallback result with ⟨index, next, found, heads, rfl⟩ | ⟨index, found, heads, fresh⟩ |
    ⟨large, fresh⟩
  · -- the popped node moves from its free list to the live allocations
    have popped : (freeBlocks a).Perm ((ptr, blockLayout index) :: freeBlocks (setHead a index next)) := by
      have pushed := freeBlocks_setHead_cons a index ptr next
      rwa [← heads, setHead_self] at pushed
    have nonNull : ptr ≠ 0 :=
      Nat.pos_iff_ne_zero.mp (inv.positive _ (List.mem_append_right _ (popped.mem_iff.mpr List.mem_cons_self)))
    rw [if_neg nonNull]
    apply inv.perm sound
    simp only [outstanding, List.map_cons, fallbackBlock_of_class ptr layout index found, List.cons_append]
    exact (popped.append_left _).trans List.perm_middle
  · -- an empty class list: the fallback heap carves a block of the class's layout
    exact fallback_preserves sound inv (fallbackBlock_of_class ptr layout index found) fresh
  · exact fallback_preserves sound inv (fallbackBlock_of_large ptr layout large) fresh

theorem dealloc_preserves {a a' : FixedSizeBlockAllocator H} {live : List (Nat × Layout)} {ptr : Nat}
    {layout : Layout} (inv : Invariant Accounts a live) (member : (ptr, layout) ∈ live)
    (result : dealloc fallback a ptr layout = .ok a') : Invariant Accounts a' (live.erase (ptr, layout)) := by
  have mapped : (live.map fallbackBlock).Perm
      (fallbackBlock (ptr, layout) :: (live.erase (ptr, layout)).map fallbackBlock) := by
    simpa using (List.perm_cons_erase member).map fallbackBlock
  rcases dealloc_cases fallback result with ⟨index, found, rfl⟩ | ⟨large, nonNull, rfl⟩
  · -- the freed block moves from the live allocations to the head of its class list
    have pushed := freeBlocks_setHead_cons a index ptr (a.listHeads index)
    rw [setHead_self] at pushed
    rw [fallbackBlock_of_class ptr layout index found] at mapped
    apply inv.perm sound
    exact ((mapped.append_right _).trans List.perm_middle.symm).trans (pushed.symm.append_left _)
  · -- a large block goes back to the fallback heap, which erases it from its ledger
    rw [fallbackBlock_of_large ptr layout large] at mapped
    have member' : (ptr, layout) ∈ live.map fallbackBlock := mapped.mem_iff.mpr List.mem_cons_self
    have shrunk := inv.deallocate sound (List.mem_append_left _ member')
    apply shrunk.perm sound
    rw [outstanding, List.erase_append_left _ member']
    have erased := mapped.erase (ptr, layout)
    rw [List.erase_cons_head] at erased
    exact erased.append_right _

theorem alloc_aligned {a a' : FixedSizeBlockAllocator H} {live : List (Nat × Layout)} {layout : Layout}
    {ptr : Nat} (inv : Invariant Accounts a live) (result : alloc fallback a layout = .ok (ptr, a'))
    (nonNull : ptr ≠ 0) : ptr % layout.align = 0 := by
  rcases alloc_cases fallback result with ⟨index, next, found, heads, rfl⟩ | ⟨index, found, heads, fresh⟩ |
    ⟨large, fresh⟩
  · have node : (ptr, blockLayout index) ∈ outstanding a live :=
      List.mem_append_right _ ((mem_freeBlocks a _).mpr ⟨index, ptr, by simp [heads], rfl⟩)
    have blockAligned : blockSizes[index] ∣ ptr := Nat.dvd_of_mod_eq_zero (inv.aligned _ node)
    exact Nat.mod_eq_zero_of_dvd (Nat.dvd_trans (align_dvd_blockSize layout index found) blockAligned)
  · obtain ⟨-, grown⟩ := fallbackAlloc_ledger sound inv fresh
    rcases grown with ⟨null, -⟩ | ⟨-, ledger⟩
    · exact absurd null nonNull
    · have blockAligned : blockSizes[index] ∣ ptr :=
        Nat.dvd_of_mod_eq_zero (ledger.aligned _ List.mem_cons_self)
      exact Nat.mod_eq_zero_of_dvd (Nat.dvd_trans (align_dvd_blockSize layout index found) blockAligned)
  · obtain ⟨-, grown⟩ := fallbackAlloc_ledger sound inv fresh
    rcases grown with ⟨null, -⟩ | ⟨-, ledger⟩
    · exact absurd null nonNull
    · exact ledger.aligned _ List.mem_cons_self

end Invariant

section Consequences

variable {Accounts : H → List (Nat × Layout) → Prop}

theorem live_apart {a : FixedSizeBlockAllocator H} {live : List (Nat × Layout)} (inv : Invariant Accounts a live) :
    live.Pairwise fun x y => (extent x).Apart (extent y) := by
  have blocks := List.pairwise_map.mp (inv.apart.sublist (List.sublist_append_left _ _))
  exact blocks.imp fun apart =>
    apart.mono (extent_within_fallbackBlock _) (extent_within_fallbackBlock _)

theorem live_apart_free {a : FixedSizeBlockAllocator H} {live : List (Nat × Layout)}
    (inv : Invariant Accounts a live) (x : Nat × Layout) (member : x ∈ live) (index : ClassIndex) (node : Nat)
    (free : node ∈ a.listHeads index) : (extent x).Apart ⟨node, blockSizes[index]⟩ := by
  have across := (List.pairwise_append.mp inv.apart).2.2
  have apart := across (fallbackBlock x) (List.mem_map_of_mem member) (node, blockLayout index)
    ((mem_freeBlocks a _).mpr ⟨index, node, free, rfl⟩)
  exact apart.mono (extent_within_fallbackBlock x) (Extent.within_refl _)

theorem free_aligned {a : FixedSizeBlockAllocator H} {live : List (Nat × Layout)} (inv : Invariant Accounts a live)
    (index : ClassIndex) (node : Nat) (free : node ∈ a.listHeads index) : node % blockSizes[index] = 0 :=
  inv.aligned (node, blockLayout index)
    (List.mem_append_right _ ((mem_freeBlocks a _).mpr ⟨index, node, free, rfl⟩))

end Consequences

-- One call on the global allocator by a client that keeps the `GlobalAlloc` contract; `live`
-- holds the allocations handed out and not yet freed, with the layouts they were asked with.
inductive Step : FixedSizeBlockAllocator H × List (Nat × Layout) → FixedSizeBlockAllocator H × List (Nat × Layout) → Prop
  | alloc (a a' : FixedSizeBlockAllocator H) (live : List (Nat × Layout)) (layout : Layout) (ptr : Nat)
      (result : alloc fallback a layout = .ok (ptr, a')) :
      Step (a, live) (a', if ptr = 0 then live else (ptr, layout) :: live)
  | dealloc (a a' : FixedSizeBlockAllocator H) (live : List (Nat × Layout)) (ptr : Nat) (layout : Layout)
      (member : (ptr, layout) ∈ live) (result : dealloc fallback a ptr layout = .ok a') :
      Step (a, live) (a', live.erase (ptr, layout))

def kernelAllocator : FixedSizeBlockAllocator H := init fallback (new fallback) heapStart heapSize

theorem reachable_invariant {Accounts : H → List (Nat × Layout) → Prop} (sound : fallback.Sound Accounts)
    (initial : Accounts (fallback.init fallback.empty heapStart heapSize) [])
    {config : FixedSizeBlockAllocator H × List (Nat × Layout)}
    (reachable : Relation.ReflTransGen (Step fallback) (kernelAllocator fallback, []) config) :
    Invariant Accounts config.1 config.2 := by
  induction reachable with
  | refl =>
      have empty : outstanding (kernelAllocator fallback) [] = [] := by
        simp [outstanding, freeBlocks, kernelAllocator, init, new, classBlocks]
      rw [Invariant, empty]
      exact ⟨initial, List.Pairwise.nil, by simp, by simp⟩
  | tail _ step ih =>
      cases step with
      | alloc a a' live layout ptr result => exact alloc_preserves sound ih result
      | dealloc a a' live ptr layout member result => exact dealloc_preserves sound ih member result

theorem reachable_allocations_aligned_and_apart {Accounts : H → List (Nat × Layout) → Prop}
    (sound : fallback.Sound Accounts) (initial : Accounts (fallback.init fallback.empty heapStart heapSize) [])
    (a : FixedSizeBlockAllocator H) (live : List (Nat × Layout))
    (reachable : Relation.ReflTransGen (Step fallback) (kernelAllocator fallback, []) (a, live)) :
    (∀ layout ptr a', alloc fallback a layout = .ok (ptr, a') → ptr ≠ 0 → ptr % layout.align = 0) ∧
    live.Pairwise (fun x y => (extent x).Apart (extent y)) ∧
    (∀ x ∈ live, ∀ index node, node ∈ a.listHeads index → (extent x).Apart ⟨node, blockSizes[index]⟩) ∧
    (∀ index node, node ∈ a.listHeads index → node % blockSizes[index] = 0) := by
  have inv := reachable_invariant fallback sound initial reachable
  exact ⟨fun _ _ _ result nonNull => alloc_aligned sound inv result nonNull, live_apart inv,
    fun x member index node free => live_apart_free inv x member index node free,
    fun index node free => free_aligned inv index node free⟩

-- A bump heap that hands out the next aligned address and never reuses memory: on a fresh
-- heap, first fit also takes the lowest free address, so it behaves as the real heap does for
-- a first allocation.
def bumpFallback : Fallback Nat where
  empty := 0
  init := fun _ start _ => start
  allocateFirstFit := fun next layout =>
    (some (Align.roundUp next layout.align), Align.roundUp next layout.align + layout.size)
  deallocate := fun next _ _ => next

def bumpAccounts (next : Nat) (blocks : List (Nat × Layout)) : Prop :=
  0 < next ∧ ∀ b ∈ blocks, 0 < b.1 ∧ b.1 % b.2.align = 0 ∧ b.1 + b.2.size ≤ next

theorem bump_sound : bumpFallback.Sound bumpAccounts where
  reorder := fun _ _ _ perm accounts => ⟨accounts.1, fun b member => accounts.2 b (perm.mem_iff.mpr member)⟩
  allocate := by
    intro next blocks layout ptr next' accounts hit
    simp only [bumpFallback, Prod.mk.injEq, Option.some.injEq] at hit
    obtain ⟨rfl, rfl⟩ := hit
    have positive := accounts.1
    have above := Align.le_roundUp next layout.align layout.align_pos
    have aligned := Nat.mod_eq_zero_of_dvd (Align.dvd_roundUp next layout.align)
    refine ⟨by omega, aligned, ?_, by omega, ?_⟩
    · intro b member
      obtain ⟨-, -, below⟩ := accounts.2 b member
      rw [Extent.apart_iff]
      simp only [extent]
      omega
    · intro b member
      rcases List.mem_cons.mp member with rfl | old
      · exact ⟨by omega, aligned, Nat.le_refl _⟩
      · obtain ⟨positive, blockAligned, below⟩ := accounts.2 b old
        exact ⟨positive, blockAligned, by omega⟩
  allocateFails := by
    intro _ _ _ _ _ miss
    simp [bumpFallback] at miss
  deallocate := fun _ _ _ _ accounts _ => ⟨accounts.1, fun b kept => accounts.2 b (List.mem_of_mem_erase kept)⟩

def boxLayout : Layout := ⟨8, 8, by decide, by decide⟩

theorem kernel_allocator_after_first_box :
    let a : FixedSizeBlockAllocator Nat := ⟨fun _ => [], heapStart + 8⟩
    (∀ layout ptr a', alloc bumpFallback a layout = .ok (ptr, a') → ptr ≠ 0 → ptr % layout.align = 0) ∧
    [(heapStart, boxLayout)].Pairwise (fun x y => (extent x).Apart (extent y)) ∧
    (∀ x ∈ [(heapStart, boxLayout)], ∀ (index : ClassIndex) node, node ∈ a.listHeads index →
        (extent x).Apart ⟨node, blockSizes[index]⟩) ∧
    (∀ (index : ClassIndex) node, node ∈ a.listHeads index → node % blockSizes[index] = 0) :=
  reachable_allocations_aligned_and_apart bumpFallback bump_sound ⟨by decide, by simp⟩ ⟨fun _ => [], heapStart + 8⟩
    [(heapStart, boxLayout)]
    (Relation.ReflTransGen.single (Step.alloc _ _ [] boxLayout heapStart (by rfl)))

section Reuse

theorem dealloc_of_class (a : FixedSizeBlockAllocator H) (ptr : Nat) {layout : Layout} {index : ClassIndex}
    (found : listIndex layout = some index) :
    dealloc fallback a ptr layout = .ok (setHead a index (ptr :: a.listHeads index)) := by
  have holds := blockSize_holds_node index
  simp only [dealloc, found, holds.1, holds.2, not_true_eq_false, if_false]
  rfl

theorem alloc_of_head (a : FixedSizeBlockAllocator H) {layout : Layout} {index : ClassIndex}
    (found : listIndex layout = some index) {node : Nat} {next : List Nat} (heads : a.listHeads index = node :: next) :
    alloc fallback a layout = .ok (node, setHead a index next) := by
  simp only [alloc, found, heads]

theorem setHead_setHead (a : FixedSizeBlockAllocator H) (index : ClassIndex) (nodes nodes' : List Nat) :
    setHead (setHead a index nodes) index nodes' = setHead a index nodes' := by
  simp [setHead]

variable {fallback} {Accounts : H → List (Nat × Layout) → Prop}

theorem fallbackBlock_apart_erase {a : FixedSizeBlockAllocator H} {live : List (Nat × Layout)}
    (inv : Invariant Accounts a live) {x : Nat × Layout} (member : x ∈ live) :
    ∀ y ∈ live.erase x, (extent (fallbackBlock x)).Apart (extent (fallbackBlock y)) := by
  have blocks := List.pairwise_map.mpr (List.pairwise_map.mp (inv.apart.sublist (List.sublist_append_left _ _)))
  have moved : (live.map fallbackBlock).Perm (fallbackBlock x :: (live.erase x).map fallbackBlock) := by
    simpa using (List.perm_cons_erase member).map fallbackBlock
  have first := List.pairwise_cons.mp ((List.Perm.pairwise_iff (fun apart => Extent.Apart.symm apart) moved).mp blocks)
  exact fun y kept => first.1 _ (List.mem_map_of_mem kept)

end Reuse

-- A freed block is what the next request of its class gets, with the allocator as before the free.
theorem freed_block_serves_next_request_of_its_class {Accounts : H → List (Nat × Layout) → Prop}
    (sound : fallback.Sound Accounts) (initial : Accounts (fallback.init fallback.empty heapStart heapSize) [])
    {a : FixedSizeBlockAllocator H} {live : List (Nat × Layout)}
    (reachable : Relation.ReflTransGen (Step fallback) (kernelAllocator fallback, []) (a, live))
    {ptr : Nat} {layout layout' : Layout} {index : ClassIndex} (member : (ptr, layout) ∈ live)
    (found : listIndex layout = some index) (found' : listIndex layout' = some index) :
    ∃ a', dealloc fallback a ptr layout = .ok a' ∧ alloc fallback a' layout' = .ok (ptr, a) ∧
      ptr % layout'.align = 0 ∧ ∀ y ∈ live.erase (ptr, layout), (extent (ptr, layout')).Apart (extent y) := by
  have inv := reachable_invariant fallback sound initial reachable
  have carved : fallbackBlock (ptr, layout) = (ptr, blockLayout index) := fallbackBlock_of_class ptr layout index found
  have blockAligned : blockSizes[index] ∣ ptr := by
    have out : (ptr, blockLayout index) ∈ outstanding a live := carved ▸ List.mem_append_left _ (List.mem_map_of_mem member)
    exact Nat.dvd_of_mod_eq_zero (inv.aligned _ out)
  have fits : (extent (ptr, layout')).Within (extent (ptr, blockLayout index)) :=
    fallbackBlock_of_class ptr layout' index found' ▸ extent_within_fallbackBlock (ptr, layout')
  refine ⟨_, dealloc_of_class fallback a ptr found, ?_, ?_, fun y kept => ?_⟩
  · rw [alloc_of_head fallback _ found' (by rw [setHead_listHeads, if_pos rfl]), setHead_setHead, setHead_self]
  · exact Nat.mod_eq_zero_of_dvd (Nat.dvd_trans (align_dvd_blockSize layout' index found') blockAligned)
  · have apart := fallbackBlock_apart_erase inv member y kept
    rw [carved] at apart
    exact apart.mono fits (extent_within_fallbackBlock y)

theorem box_freed_then_u32_reuses_it :
    let a : FixedSizeBlockAllocator Nat := ⟨fun _ => [], heapStart + 8⟩
    let u32Layout : Layout := ⟨4, 4, ⟨2, rfl⟩, Nat.le_of_ble_eq_true rfl⟩
    bumpFallback.Sound bumpAccounts ∧ bumpAccounts (bumpFallback.init bumpFallback.empty heapStart heapSize) [] ∧
    Relation.ReflTransGen (Step bumpFallback) (kernelAllocator bumpFallback, []) (a, [(heapStart, boxLayout)]) ∧
    (heapStart, boxLayout) ∈ [(heapStart, boxLayout)] ∧ listIndex boxLayout = some ⟨0, Nat.zero_lt_succ 8⟩ ∧
    listIndex u32Layout = some ⟨0, Nat.zero_lt_succ 8⟩ ∧
    ∃ a', dealloc bumpFallback a heapStart boxLayout = .ok a' ∧ alloc bumpFallback a' u32Layout = .ok (heapStart, a) ∧
      heapStart % u32Layout.align = 0 ∧
      ∀ y ∈ [(heapStart, boxLayout)].erase (heapStart, boxLayout), (extent (heapStart, u32Layout)).Apart (extent y) := by
  intro a u32Layout
  have initial : bumpAccounts (bumpFallback.init bumpFallback.empty heapStart heapSize) [] :=
    ⟨Nat.le_of_ble_eq_true rfl, fun _ member => absurd member List.not_mem_nil⟩
  have reachable : Relation.ReflTransGen (Step bumpFallback) (kernelAllocator bumpFallback, []) (a, [(heapStart, boxLayout)]) :=
    .single (Step.alloc _ _ [] boxLayout heapStart rfl)
  have boxClass : listIndex boxLayout = some ⟨0, Nat.zero_lt_succ 8⟩ := rfl
  have u32Class : listIndex u32Layout = some ⟨0, Nat.zero_lt_succ 8⟩ := rfl
  exact ⟨bump_sound, initial, reachable, List.mem_cons_self, boxClass, u32Class,
    freed_block_serves_next_request_of_its_class bumpFallback bump_sound initial reachable List.mem_cons_self boxClass
      u32Class⟩

end Emos.Allocator.FixedSizeBlock
