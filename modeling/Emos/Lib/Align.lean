import Mathlib
import Emos.Lib.Checked

set_option autoImplicit false

/- Alignment of addresses to powers of two. `roundUp` is the arithmetic meaning of the
   usual `(addr + align - 1) & !(align - 1)`; `and_complement_low_bits` is the bit-level
   fact that connects the two on a fixed-width word. -/
namespace Align

def roundUp (addr align : Nat) : Nat := (addr + align - 1) / align * align

theorem dvd_roundUp (addr align : Nat) : align ∣ roundUp addr align :=
  Nat.dvd_mul_left align _

theorem le_roundUp (addr align : Nat) (pos : 0 < align) : addr ≤ roundUp addr align := by
  have bound := Nat.lt_div_mul_add (a := addr + align - 1) pos
  unfold roundUp
  omega

theorem roundUp_lt (addr align : Nat) (pos : 0 < align) : roundUp addr align < addr + align := by
  have bound := Nat.div_mul_le_self (addr + align - 1) align
  unfold roundUp
  omega

theorem roundUp_le_of_dvd (addr align m : Nat) (pos : 0 < align) (le : addr ≤ m) (dvd : align ∣ m) :
    roundUp addr align ≤ m := by
  obtain ⟨q, rfl⟩ := dvd
  have quotient : (addr + align - 1) / align < q + 1 := by
    rw [Nat.div_lt_iff_lt_mul pos, Nat.succ_mul]
    rw [Nat.mul_comm] at le
    omega
  calc roundUp addr align = (addr + align - 1) / align * align := rfl
    _ ≤ q * align := Nat.mul_le_mul_right align (Nat.lt_succ_iff.mp quotient)
    _ = align * q := Nat.mul_comm q align

theorem roundUp_of_dvd (addr align : Nat) (pos : 0 < align) (dvd : align ∣ addr) : roundUp addr align = addr :=
  Nat.le_antisymm (roundUp_le_of_dvd addr align addr pos (Nat.le_refl addr) dvd) (le_roundUp addr align pos)

theorem and_complement_low_bits (width k x : Nat) (le : k ≤ width) (lt : x < 2 ^ width) :
    x &&& Checked.complement width (2 ^ k - 1) = x / 2 ^ k * 2 ^ k := by
  apply Nat.eq_of_testBit_eq
  intro i
  simp only [Checked.complement, Nat.testBit_and, Nat.testBit_xor, Nat.testBit_two_pow_sub_one,
    Nat.testBit_mul_two_pow, Nat.testBit_div_two_pow]
  by_cases low : i < k
  · simp [low, show i < width by omega, show ¬ k ≤ i by omega]
  · by_cases inside : i < width
    · simp [low, inside, show k ≤ i by omega, Nat.sub_add_cancel (Nat.le_of_not_lt low)]
    · have high : x.testBit i = false :=
        Nat.testBit_lt_two_pow (Nat.lt_of_lt_of_le lt (Nat.pow_le_pow_right (by decide) (by omega)))
      simp [low, inside, high, Nat.sub_add_cancel (Nat.le_of_not_lt low)]

theorem dvd_of_isPowerOfTwo (a b : Nat) (ha : a.isPowerOfTwo) (hb : b.isPowerOfTwo) (le : a ≤ b) : a ∣ b := by
  obtain ⟨i, rfl⟩ := ha
  obtain ⟨j, rfl⟩ := hb
  exact Nat.pow_dvd_pow 2 ((Nat.pow_le_pow_iff_right (by decide)).mp le)

end Align
