import Mathlib
import Emos.Lib.Align
import Emos.Lib.Checked
import Emos.Lib.Extent
import Emos.Allocator.Layout

set_option autoImplicit false

/- The bump allocator of allocator/bump.rs. It hands out memory from `next` upwards and only
   counts what is live: the `dealloc` that brings the count to zero sets `next` back to the start
   of the heap. A `GlobalAlloc` that returns the null pointer has failed, so a block that lands at
   address 0 reaches its caller as a failure, although the allocator counted it. -/
namespace Emos.Allocator.Bump

open Checked

structure BumpAllocator where
  heapStart : Nat
  heapEnd : Nat
  next : Nat
  allocations : Nat
deriving DecidableEq, Repr

namespace BumpAllocator

def new : BumpAllocator := ⟨0, 0, 0, 0⟩

def init (self : BumpAllocator) (heapStart heapSize : Nat) : BumpAllocator :=
  { self with heapStart := heapStart, heapEnd := saturatingAdd 64 heapStart heapSize, next := heapStart }

def alloc (self : BumpAllocator) (layout : Layout) : Except Panic (Nat × BumpAllocator) := do
  let allocStart ← alignUp self.next layout.align
  match checkedAdd 64 allocStart layout.size with
  | none => pure (0, self)
  | some allocEnd =>
      if allocEnd > self.heapEnd then pure (0, self)
      else do
        let allocations ← add 64 self.allocations 1
        pure (allocStart, { self with next := allocEnd, allocations := allocations })

def dealloc (self : BumpAllocator) (_ptr : Nat) (_layout : Layout) : Except Panic BumpAllocator := do
  let allocations ← sub self.allocations 1
  let self := { self with allocations := allocations }
  pure (if allocations = 0 then { self with next := self.heapStart } else self)

theorem alloc_eq_ok {self self' : BumpAllocator} {layout : Layout} {ptr : Nat}
    (result : self.alloc layout = .ok (ptr, self')) :
    (ptr = 0 ∧ self' = self) ∨
      (ptr = Align.roundUp self.next layout.align ∧ ptr + layout.size ≤ self.heapEnd ∧
        self' = { self with next := ptr + layout.size, allocations := self.allocations + 1 }) := by
  simp only [alloc, bind_eq_ok] at result
  obtain ⟨allocStart, aligned, rest⟩ := result
  obtain ⟨-, rfl⟩ := alignUp_eq_ok layout.align_pow aligned
  split at rest
  · -- the end of the block overflows
    simp only [pure, Except.pure, Except.ok.injEq, Prod.mk.injEq] at rest
    exact .inl ⟨rest.1.symm, rest.2.symm⟩
  · rename_i allocEnd ended
    obtain ⟨-, rfl⟩ := (checkedAdd_eq_some_iff _ _ _ _).mp ended
    split at rest
    · simp only [pure, Except.pure, Except.ok.injEq, Prod.mk.injEq] at rest
      exact .inl ⟨rest.1.symm, rest.2.symm⟩
    · rename_i fits
      obtain ⟨allocations, bumped, done⟩ := bind_eq_ok.mp rest
      obtain ⟨-, rfl⟩ := (add_ok_iff _ _ _ _).mp bumped
      simp only [pure, Except.pure, Except.ok.injEq, Prod.mk.injEq] at done
      obtain ⟨rfl, rfl⟩ := done
      exact .inr ⟨rfl, Nat.le_of_not_lt fits, rfl⟩

theorem dealloc_eq_ok {self self' : BumpAllocator} {ptr : Nat} {layout : Layout} :
    self.dealloc ptr layout = .ok self' ↔
      0 < self.allocations ∧
        self' = if self.allocations - 1 = 0 then { self with allocations := 0, next := self.heapStart }
          else { self with allocations := self.allocations - 1 } := by
  simp only [dealloc, bind_eq_ok, sub_ok_iff, pure, Except.pure, Except.ok.injEq]
  constructor
  · rintro ⟨allocations, ⟨positive, rfl⟩, rfl⟩
    refine ⟨positive, ?_⟩
    split <;> simp_all
  · rintro ⟨positive, rfl⟩
    refine ⟨self.allocations - 1, ⟨positive, rfl⟩, ?_⟩
    split <;> simp_all

end BumpAllocator

open BumpAllocator

def extent (block : Nat × Layout) : Extent := ⟨block.1, block.2.size⟩

-- What the allocator knows about the allocations its caller holds: they lie between the start of
-- the heap and `next`, keep their alignment, do not overlap, and are exactly as many as it counts.
structure Sound (a : BumpAllocator) (live : List (Nat × Layout)) : Prop where
  nonNull : 0 < a.heapStart
  below : a.heapStart ≤ a.next
  above : a.next ≤ a.heapEnd
  counted : a.allocations = live.length
  aligned : ∀ x ∈ live, x.1 % x.2.align = 0
  inside : ∀ x ∈ live, a.heapStart ≤ x.1 ∧ x.1 + x.2.size ≤ a.next
  apart : live.Pairwise fun x y => (extent x).Apart (extent y)

-- Every call of the caller, who frees only what it holds; the null pointer is a failure.
inductive Step : BumpAllocator × List (Nat × Layout) → BumpAllocator × List (Nat × Layout) → Prop
  | alloc (a a' : BumpAllocator) (live : List (Nat × Layout)) (layout : Layout) (ptr : Nat)
      (result : a.alloc layout = .ok (ptr, a')) :
      Step (a, live) (a', if ptr = 0 then live else (ptr, layout) :: live)
  | dealloc (a a' : BumpAllocator) (live : List (Nat × Layout)) (ptr : Nat) (layout : Layout)
      (member : (ptr, layout) ∈ live) (result : a.dealloc ptr layout = .ok a') :
      Step (a, live) (a', live.erase (ptr, layout))

section Steps

variable {a a' : BumpAllocator} {live : List (Nat × Layout)}

theorem sound_init {heapStart heapSize : Nat} (nonNull : 0 < heapStart) (room : heapStart + heapSize ≤ usizeMax) :
    Sound (new.init heapStart heapSize) [] := by
  have heapEnd : saturatingAdd 64 heapStart heapSize = heapStart + heapSize := saturatingAdd_of_le 64 _ _ room
  refine ⟨nonNull, Nat.le_refl _, ?_, rfl, by simp, by simp, .nil⟩
  show heapStart ≤ saturatingAdd 64 heapStart heapSize
  rw [heapEnd]
  exact Nat.le_add_right _ _

theorem sound_alloc {layout : Layout} {ptr : Nat} (sound : Sound a live) (result : a.alloc layout = .ok (ptr, a')) :
    Sound a' (if ptr = 0 then live else (ptr, layout) :: live) := by
  rcases alloc_eq_ok result with ⟨rfl, rfl⟩ | ⟨rfl, fits, rfl⟩
  · simpa using sound
  · -- the new block starts at or above `next`, so above every live block
    have raised := Align.le_roundUp a.next layout.align layout.align_pos
    have low := sound.below
    have nonzero : Align.roundUp a.next layout.align ≠ 0 := by
      have := sound.nonNull
      omega
    rw [if_neg nonzero]
    refine ⟨sound.nonNull, ?_, fits, ?_, ?_, ?_, ?_⟩
    · dsimp only
      omega
    · dsimp only
      rw [sound.counted, List.length_cons]
    · intro x member
      rcases List.mem_cons.mp member with rfl | old
      · exact Nat.mod_eq_zero_of_dvd (Align.dvd_roundUp a.next layout.align)
      · exact sound.aligned x old
    · intro x member
      dsimp only
      rcases List.mem_cons.mp member with rfl | old
      · exact ⟨by omega, Nat.le_refl _⟩
      · obtain ⟨start, stop⟩ := sound.inside x old
        exact ⟨start, by omega⟩
    · refine List.pairwise_cons.mpr ⟨fun x old => ?_, sound.apart⟩
      obtain ⟨-, stop⟩ := sound.inside x old
      rw [Extent.apart_iff]
      simp only [extent]
      omega

theorem sound_dealloc {ptr : Nat} {layout : Layout} (sound : Sound a live) (member : (ptr, layout) ∈ live)
    (result : a.dealloc ptr layout = .ok a') : Sound a' (live.erase (ptr, layout)) := by
  obtain ⟨-, rfl⟩ := dealloc_eq_ok.mp result
  have shorter : (live.erase (ptr, layout)).length = live.length - 1 := List.length_erase_of_mem member
  have kept : ∀ x ∈ live.erase (ptr, layout), x ∈ live := fun _ remaining => List.mem_of_mem_erase remaining
  split
  · -- the last live allocation is freed and the heap starts over
    rename_i last
    have empty : live.erase (ptr, layout) = [] := by
      apply List.eq_nil_of_length_eq_zero
      rw [shorter, ← sound.counted, last]
    rw [empty]
    exact ⟨sound.nonNull, Nat.le_refl _, sound.below.trans sound.above, rfl, by simp, by simp, .nil⟩
  · exact ⟨sound.nonNull, sound.below, sound.above, by rw [shorter, sound.counted],
      fun x remaining => sound.aligned x (kept x remaining), fun x remaining => sound.inside x (kept x remaining),
      sound.apart.sublist List.erase_sublist⟩

theorem dealloc_next {ptr : Nat} {layout : Layout} (sound : Sound a live) (member : (ptr, layout) ∈ live)
    (result : a.dealloc ptr layout = .ok a') :
    a'.next = a.next ∨ (live.erase (ptr, layout) = [] ∧ a'.next = a.heapStart) := by
  have after := sound_dealloc sound member result
  obtain ⟨-, rfl⟩ := dealloc_eq_ok.mp result
  split
  · rename_i last
    rw [if_pos last] at after
    refine .inr ⟨?_, rfl⟩
    apply List.eq_nil_of_length_eq_zero
    rw [← after.counted]
  · exact .inl rfl

theorem alloc_next {layout : Layout} {ptr : Nat} (sound : Sound a live) (result : a.alloc layout = .ok (ptr, a')) :
    a.next ≤ a'.next := by
  rcases alloc_eq_ok result with ⟨-, rfl⟩ | ⟨rfl, -, rfl⟩
  · exact Nat.le_refl _
  · have raised := Align.le_roundUp a.next layout.align layout.align_pos
    show a.next ≤ Align.roundUp a.next layout.align + layout.size
    omega

theorem sound_step {live' : List (Nat × Layout)} (sound : Sound a live) (step : Step (a, live) (a', live')) :
    Sound a' live' := by
  cases step with
  | alloc _ _ _ layout ptr result => exact sound_alloc sound result
  | dealloc _ _ _ ptr layout member result => exact sound_dealloc sound member result

theorem step_heap {live' : List (Nat × Layout)} (step : Step (a, live) (a', live')) :
    a'.heapStart = a.heapStart ∧ a'.heapEnd = a.heapEnd := by
  cases step with
  | alloc _ _ _ layout ptr result =>
      rcases alloc_eq_ok result with ⟨-, rfl⟩ | ⟨-, -, rfl⟩ <;> exact ⟨rfl, rfl⟩
  | dealloc _ _ _ ptr layout member result =>
      obtain ⟨-, rfl⟩ := dealloc_eq_ok.mp result
      split <;> exact ⟨rfl, rfl⟩

end Steps

theorem reachable_sound {heapStart heapSize : Nat} (nonNull : 0 < heapStart) (room : heapStart + heapSize ≤ usizeMax)
    {config : BumpAllocator × List (Nat × Layout)}
    (reachable : Relation.ReflTransGen Step (new.init heapStart heapSize, []) config) :
    Sound config.1 config.2 ∧ config.1.heapStart = heapStart ∧ config.1.heapEnd = heapStart + heapSize := by
  induction reachable with
  | refl => exact ⟨sound_init nonNull room, rfl, saturatingAdd_of_le 64 _ _ room⟩
  | tail _ step ih =>
      obtain ⟨sound, start, stop⟩ := ih
      obtain ⟨start', stop'⟩ := step_heap step
      exact ⟨sound_step sound step, start'.trans start, stop'.trans stop⟩

theorem bump_allocations_sound (heapStart heapSize : Nat) (nonNull : 0 < heapStart)
    (room : heapStart + heapSize ≤ usizeMax) {a : BumpAllocator} {live : List (Nat × Layout)}
    (reachable : Relation.ReflTransGen Step (new.init heapStart heapSize, []) (a, live)) :
    a.heapStart = heapStart ∧ a.heapEnd = heapStart + heapSize ∧
    heapStart ≤ a.next ∧ a.next ≤ heapStart + heapSize ∧ a.allocations = live.length ∧
    (∀ x ∈ live, x.1 % x.2.align = 0 ∧ heapStart ≤ x.1 ∧ x.1 + x.2.size ≤ a.next) ∧
    live.Pairwise (fun x y => (extent x).Apart (extent y)) ∧
    (∀ a' live', Step (a, live) (a', live') → a'.next < a.next → live' = [] ∧ a'.next = heapStart) := by
  obtain ⟨sound, rfl, stop⟩ := reachable_sound nonNull room reachable
  refine ⟨rfl, stop, sound.below, stop ▸ sound.above, sound.counted,
    fun x member => ⟨sound.aligned x member, sound.inside x member⟩, sound.apart, ?_⟩
  intro a' live' step lowered
  cases step with
  | alloc _ _ _ layout ptr result => exact absurd (alloc_next sound result) (Nat.not_le_of_lt lowered)
  | dealloc _ _ _ ptr layout member result =>
      rcases dealloc_next sound member result with same | reset
      · exact absurd same (Nat.ne_of_lt lowered)
      · exact reset

def wordLayout : Layout := ⟨8, 8, ⟨3, rfl⟩, Nat.le_of_ble_eq_true rfl⟩

theorem kernel_heap_after_one_word :
    let a := ⟨heapStart, heapStart + heapSize, heapStart + 8, 1⟩
    Relation.ReflTransGen Step (new.init heapStart heapSize, []) (a, [(heapStart, wordLayout)]) ∧
    a.heapStart = heapStart ∧ a.heapEnd = heapStart + heapSize ∧
    heapStart ≤ a.next ∧ a.next ≤ heapStart + heapSize ∧ a.allocations = [(heapStart, wordLayout)].length ∧
    (∀ x ∈ [(heapStart, wordLayout)], x.1 % x.2.align = 0 ∧ heapStart ≤ x.1 ∧ x.1 + x.2.size ≤ a.next) ∧
    [(heapStart, wordLayout)].Pairwise (fun x y => (extent x).Apart (extent y)) ∧
    (∀ a' live', Step (a, [(heapStart, wordLayout)]) (a', live') → a'.next < a.next →
      live' = [] ∧ a'.next = heapStart) := by
  intro a
  have allocated : (new.init heapStart heapSize).alloc wordLayout = .ok (heapStart, a) := by
    rfl
  have reachable : Relation.ReflTransGen Step (new.init heapStart heapSize, []) (a, [(heapStart, wordLayout)]) :=
    .single (Step.alloc _ _ [] wordLayout heapStart allocated)
  exact ⟨reachable, bump_allocations_sound heapStart heapSize (by decide) (by decide) reachable⟩

theorem null_block_counted :
    let a : BumpAllocator := ⟨0, 4096, 8, 1⟩
    (new.init 0 4096).alloc wordLayout = .ok (0, a) ∧
      Relation.ReflTransGen Step (new.init 0 4096, []) (a, []) ∧ a.allocations ≠ ([] : List (Nat × Layout)).length := by
  intro a
  have allocated : (new.init 0 4096).alloc wordLayout = .ok (0, a) := by
    rfl
  exact ⟨allocated, .single (Step.alloc _ _ [] wordLayout 0 allocated), by decide⟩

-- `align_up` adds the alignment before it rounds down, so at the top of the address space
-- the sum passes `usize::MAX`.
theorem align_up_overflows_at_top_of_address_space :
    2 ^ 64 - 16 + 15 ≤ usizeMax ∧
      (new.init (2 ^ 64 - 16) 15).alloc ⟨1, 32, ⟨5, rfl⟩, Nat.le_of_ble_eq_true rfl⟩ = .error overflowAdd := by
  refine ⟨by decide, ?_⟩
  have overflow : alignUp (2 ^ 64 - 16) 32 = .error overflowAdd := alignUp_overflow _ _ (by decide)
  simp only [BumpAllocator.alloc, BumpAllocator.init, new, overflow]
  rfl

section Room

variable {a : BumpAllocator} {layout : Layout}

theorem alloc_of_fits (room : a.next + layout.align < 2 ^ 64)
    (fits : Align.roundUp a.next layout.align + layout.size ≤ a.heapEnd) (endBelow : a.heapEnd < 2 ^ 64)
    (counted : a.allocations + 1 < 2 ^ 64) :
    a.alloc layout = .ok (Align.roundUp a.next layout.align,
      { a with next := Align.roundUp a.next layout.align + layout.size, allocations := a.allocations + 1 }) := by
  have ended : checkedAdd 64 (Align.roundUp a.next layout.align) layout.size =
      some (Align.roundUp a.next layout.align + layout.size) :=
    (checkedAdd_eq_some_iff _ _ _ _).mpr ⟨by omega, rfl⟩
  rw [BumpAllocator.alloc, alignUp_eq _ _ layout.align_pow room, ok_bind, ended]
  simp only [gt_iff_lt, Nat.not_lt.mpr fits, if_false, add_of_lt 64 _ 1 counted, ok_bind]
  rfl

theorem alloc_of_full (room : a.next + layout.align < 2 ^ 64)
    (full : a.heapEnd < Align.roundUp a.next layout.align + layout.size) : a.alloc layout = .ok (0, a) := by
  rw [BumpAllocator.alloc, alignUp_eq _ _ layout.align_pow room, ok_bind]
  cases ended : checkedAdd 64 (Align.roundUp a.next layout.align) layout.size with
  | none => rfl
  | some allocEnd =>
      obtain ⟨-, rfl⟩ := (checkedAdd_eq_some_iff _ _ _ _).mp ended
      simp only [gt_iff_lt, full, if_true]
      rfl

end Room

theorem reachable_empty_next {heapStart heapSize : Nat} (nonNull : 0 < heapStart) (room : heapStart + heapSize ≤ usizeMax)
    {config : BumpAllocator × List (Nat × Layout)}
    (reachable : Relation.ReflTransGen Step (new.init heapStart heapSize, []) config) :
    config.2 = [] → config.1.next = heapStart := by
  induction reachable with
  | refl => exact fun _ => rfl
  | tail earlier step ih =>
      cases step with
      | alloc a a' live layout ptr result =>
          obtain ⟨sound, -⟩ := reachable_sound nonNull room earlier
          dsimp only at sound
          rcases alloc_eq_ok result with ⟨rfl, rfl⟩ | ⟨rfl, -, rfl⟩
          · simpa using ih
          · -- a successful block starts at or above the heap's start, so it is not null
            have raised := Align.le_roundUp a.next layout.align layout.align_pos
            have low := sound.below
            have positive := sound.nonNull
            have nonzero : Align.roundUp a.next layout.align ≠ 0 := by
              omega
            rw [if_neg nonzero]
            exact fun empty => absurd empty (List.cons_ne_nil _ _)
      | dealloc a a' live ptr layout member result =>
          obtain ⟨sound, start, -⟩ := reachable_sound nonNull room earlier
          dsimp only at sound start
          intro empty
          obtain ⟨-, rfl⟩ := dealloc_eq_ok.mp result
          have shorter := List.length_erase_of_mem member
          have one : a.allocations - 1 = 0 := by
            have positive := List.length_pos_of_mem member
            dsimp only at empty
            rw [empty, List.length_nil] at shorter
            rw [sound.counted]
            omega
          rw [if_pos one]
          exact start

-- `next` is back at the heap's start once nothing is live, and `alloc` returns the null pointer
-- only when the aligned block does not fit below the heap's end.
theorem bump_alloc_fails_only_when_full (heapStart heapSize : Nat) (nonNull : 0 < heapStart)
    (lowerHalf : heapStart + heapSize < 2 ^ 63) {a : BumpAllocator} {live : List (Nat × Layout)}
    (reachable : Relation.ReflTransGen Step (new.init heapStart heapSize, []) (a, live)) (layout : Layout)
    (alignBelow : layout.align ≤ 2 ^ 63) (counted : live.length + 1 < 2 ^ 64) :
    (live = [] → a.next = heapStart) ∧
    ∃ ptr a', a.alloc layout = .ok (ptr, a') ∧
      ((Align.roundUp a.next layout.align + layout.size ≤ heapStart + heapSize ∧ 0 < ptr ∧
          ptr = Align.roundUp a.next layout.align) ∨
        (heapStart + heapSize < Align.roundUp a.next layout.align + layout.size ∧ ptr = 0 ∧ a' = a)) := by
  have room : heapStart + heapSize ≤ usizeMax := by
    unfold usizeMax
    omega
  obtain ⟨sound, start, stop⟩ := reachable_sound nonNull room reachable
  dsimp only at sound start stop
  refine ⟨reachable_empty_next nonNull room reachable, ?_⟩
  have above := sound.above
  have below := sound.below
  have aligned : a.next + layout.align < 2 ^ 64 := by
    omega
  by_cases fits : Align.roundUp a.next layout.align + layout.size ≤ heapStart + heapSize
  · have raised := Align.le_roundUp a.next layout.align layout.align_pos
    refine ⟨_, _, alloc_of_fits aligned (by omega) (by omega) (by rw [sound.counted]; exact counted),
      .inl ⟨fits, by omega, rfl⟩⟩
  · exact ⟨0, a, alloc_of_full aligned (by omega), .inr ⟨by omega, rfl, rfl⟩⟩

theorem kernel_heap_second_word :
    0 < heapStart ∧ heapStart + heapSize < 2 ^ 63 ∧
    Relation.ReflTransGen Step (new.init heapStart heapSize, [])
      (⟨heapStart, heapStart + heapSize, heapStart + 8, 1⟩, [(heapStart, wordLayout)]) ∧
    wordLayout.align ≤ 2 ^ 63 ∧ [(heapStart, wordLayout)].length + 1 < 2 ^ 64 ∧
    ([(heapStart, wordLayout)] = [] → (⟨heapStart, heapStart + heapSize, heapStart + 8, 1⟩ : BumpAllocator).next = heapStart) ∧
    ∃ ptr a', (⟨heapStart, heapStart + heapSize, heapStart + 8, 1⟩ : BumpAllocator).alloc wordLayout = .ok (ptr, a') ∧
      ((Align.roundUp (heapStart + 8) wordLayout.align + wordLayout.size ≤ heapStart + heapSize ∧ 0 < ptr ∧
          ptr = Align.roundUp (heapStart + 8) wordLayout.align) ∨
        (heapStart + heapSize < Align.roundUp (heapStart + 8) wordLayout.align + wordLayout.size ∧ ptr = 0 ∧
          a' = ⟨heapStart, heapStart + heapSize, heapStart + 8, 1⟩)) := by
  have allocated : (new.init heapStart heapSize).alloc wordLayout =
      .ok (heapStart, ⟨heapStart, heapStart + heapSize, heapStart + 8, 1⟩) := by
    rfl
  have reachable : Relation.ReflTransGen Step (new.init heapStart heapSize, [])
      (⟨heapStart, heapStart + heapSize, heapStart + 8, 1⟩, [(heapStart, wordLayout)]) :=
    .single (Step.alloc _ _ [] wordLayout heapStart allocated)
  exact ⟨by decide, by decide, reachable, by decide, by decide,
    bump_alloc_fails_only_when_full heapStart heapSize (by decide) (by decide) reachable wordLayout (by decide) (by decide)⟩

end Emos.Allocator.Bump
