import Mathlib
import Emos.Lib.Align
import Emos.Lib.Checked

set_option autoImplicit false

namespace Emos.Allocator

open Checked

def usizeMax : Nat := 2 ^ 64 - 1

def isizeMax : Nat := 2 ^ 63 - 1

-- `HEAP_START` and `HEAP_SIZE`: the kernel heap handed to the global allocator by `init_heap`.
def heapStart : Nat := 0x4444_4444_0000
def heapSize : Nat := 100 * 1024

-- `core::alloc::Layout`: a size and a power-of-two alignment such that the size, rounded up
-- to the alignment, does not exceed `isize::MAX`. Only values with both properties exist.
structure Layout where
  size : Nat
  align : Nat
  align_pow : align.isPowerOfTwo
  size_fits : Align.roundUp size align ≤ isizeMax
deriving DecidableEq

namespace Layout

theorem align_pos (layout : Layout) : 0 < layout.align :=
  Nat.pos_of_isPowerOfTwo layout.align_pow

def fromSizeAlign (size align : Nat) : Option Layout :=
  if h : align.isPowerOfTwo ∧ Align.roundUp size align ≤ isizeMax then some ⟨size, align, h.1, h.2⟩ else none

def alignTo (layout : Layout) (align : Nat) : Option Layout :=
  if align.isPowerOfTwo then fromSizeAlign layout.size (max layout.align align) else none

theorem roundUp_roundUp (size align : Nat) (pos : 0 < align) :
    Align.roundUp (Align.roundUp size align) align = Align.roundUp size align :=
  Align.roundUp_of_dvd _ align pos (Align.dvd_roundUp size align)

def padToAlign (layout : Layout) : Layout :=
  ⟨Align.roundUp layout.size layout.align, layout.align, layout.align_pow, by
    rw [roundUp_roundUp _ _ layout.align_pos]
    exact layout.size_fits⟩

theorem fromSizeAlign_eq_some (size align : Nat) (pow : align.isPowerOfTwo)
    (fits : Align.roundUp size align ≤ isizeMax) :
    fromSizeAlign size align = some ⟨size, align, pow, fits⟩ := by
  simp [fromSizeAlign, pow, fits]

theorem fromSizeAlign_eq_some_iff (size align : Nat) (layout : Layout) :
    fromSizeAlign size align = some layout ↔ layout.size = size ∧ layout.align = align := by
  unfold fromSizeAlign
  split
  · constructor
    · rintro ⟨⟩
      exact ⟨rfl, rfl⟩
    · rintro ⟨rfl, rfl⟩
      rfl
  · rename_i invalid
    simp only [reduceCtorEq, false_iff]
    rintro ⟨rfl, rfl⟩
    exact invalid ⟨layout.align_pow, layout.size_fits⟩

end Layout

-- `align_up` (allocator.rs): `(addr + align - 1) & !(align - 1)`, evaluated with the overflow
-- checks of a debug build.
def alignUp (addr align : Nat) : Except Panic Nat := do
  let sum ← add 64 addr align
  let top ← sub sum 1
  let low ← sub align 1
  pure (top &&& complement 64 low)

theorem alignUp_eq (addr align : Nat) (pow : align.isPowerOfTwo) (fits : addr + align < 2 ^ 64) :
    alignUp addr align = .ok (Align.roundUp addr align) := by
  obtain ⟨k, rfl⟩ := pow
  have positive : 0 < 2 ^ k := Nat.two_pow_pos k
  have small : k ≤ 64 := by
    by_contra large
    have : 2 ^ 64 ≤ 2 ^ k := Nat.pow_le_pow_right (by decide) (by omega)
    omega
  have mask := Align.and_complement_low_bits 64 k (addr + 2 ^ k - 1) small (by omega)
  simp only [alignUp, bind, Except.bind, pure, Except.pure, add_of_lt 64 addr (2 ^ k) fits,
    sub_of_le (addr + 2 ^ k) 1 (by omega), sub_of_le (2 ^ k) 1 positive, mask, Align.roundUp]

theorem alignUp_overflow (addr align : Nat) (overflow : 2 ^ 64 ≤ addr + align) :
    alignUp addr align = .error overflowAdd := by
  simp [alignUp, add_of_le 64 addr align overflow, bind, Except.bind]

theorem alignUp_eq_ok {addr align aligned : Nat} (pow : align.isPowerOfTwo) (result : alignUp addr align = .ok aligned) :
    addr + align < 2 ^ 64 ∧ aligned = Align.roundUp addr align := by
  by_cases fits : addr + align < 2 ^ 64
  · rw [alignUp_eq addr align pow fits, Except.ok.injEq] at result
    exact ⟨fits, result.symm⟩
  · rw [alignUp_overflow addr align (Nat.le_of_not_lt fits)] at result
    cases result

end Emos.Allocator
