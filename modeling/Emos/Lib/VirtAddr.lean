import Mathlib
import Emos.Lib.Checked

set_option autoImplicit false

/- `VirtAddr::new` of the x86_64 crate on a 64-bit value. Bits 47 to 64 must all be clear or all
   be set; when only bit 47 is set the address is sign-extended into the upper half, and any
   other pattern panics. -/
namespace VirtAddr

open Checked

-- `Result::expect` appends the `Debug` form of the error, which prints the address in hex.
def notCanonical (addr : Nat) : Panic :=
  ⟨"address passed to VirtAddr::new must not contain any data in bits 48 to 64: VirtAddrNotValid(0x" ++
    String.ofList (Nat.toDigits 16 addr) ++ ")"⟩

def signBits : Nat := 2 ^ 64 - 2 ^ 48

def new (addr : Nat) : Except Panic Nat :=
  if addr < 2 ^ 47 then .ok addr
  else if addr < 2 ^ 48 then .ok (addr + signBits)
  else if 2 ^ 64 - 2 ^ 47 ≤ addr ∧ addr < 2 ^ 64 then .ok addr
  else .error (notCanonical addr)

theorem new_of_lt {addr : Nat} (low : addr < 2 ^ 47) : new addr = .ok addr := by
  rw [new, if_pos low]

theorem eq_of_new_of_lt {addr virt : Nat} (result : new addr = .ok virt) (low : virt < 2 ^ 47) : virt = addr := by
  unfold new at result
  by_cases lower : addr < 2 ^ 47
  · rw [if_pos lower, Except.ok.injEq] at result
    exact result.symm
  · rw [if_neg lower] at result
    by_cases extended : addr < 2 ^ 48
    · rw [if_pos extended, Except.ok.injEq] at result
      unfold signBits at result
      omega
    · rw [if_neg extended] at result
      split at result
      · rw [Except.ok.injEq] at result
        omega
      · cases result

end VirtAddr
