import Mathlib
import Emos.Lib.Loop

set_option autoImplicit false

/- A fragment of x86-64 for straight-line code that saves registers on the stack and calls a
   function with the System V calling convention. Memory maps byte addresses to 64-bit words:
   such code reads and writes whole words at offsets from rsp that are multiples of eight, so no
   two of its accesses overlap in part. The stack grows down from rsp, a number; the results
   below assume room on the stack for what is pushed. A call runs a function of its integer
   arguments against an outside state, and may fail. -/
namespace X86

inductive Reg where
  | rax | rbx | rcx | rdx | rsi | rdi | rbp | r8 | r9 | r10 | r11 | r12 | r13 | r14 | r15
deriving DecidableEq, Repr

-- A callee may change these; it keeps rbx, rbp and r12 to r15.
def Reg.callerSaved : Reg → Bool
  | .rax | .rcx | .rdx | .rsi | .rdi | .r8 | .r9 | .r10 | .r11 => true
  | .rbx | .rbp | .r12 | .r13 | .r14 | .r15 => false

structure Machine where
  regs : Reg → UInt64
  rsp : Nat
  mem : Nat → UInt64

inductive Instr where
  | push (r : Reg)
  | pop (r : Reg)
  -- mov r, [rsp + offset]
  | load (r : Reg) (offset : Nat)
  -- mov [rsp + offset], r
  | store (offset : Nat) (r : Reg)
  | subRsp (n : Nat)
  | addRsp (n : Nat)
  | call
deriving DecidableEq, Repr

-- A function of `arity` integer arguments, called against an outside state: it returns a value in
-- rax or fails, leaves `clobber` in the other caller-saved registers, and may overwrite the stack
-- below the end of its stack arguments with `scratch`.
structure Callee (σ ε : Type) (arity : Nat) where
  run : σ → (Fin arity → UInt64) → Except ε (UInt64 × σ)
  clobber : Reg → UInt64
  scratch : Nat → UInt64

namespace Machine

def push (m : Machine) (r : Reg) : Machine :=
  { m with rsp := m.rsp - 8, mem := Function.update m.mem (m.rsp - 8) (m.regs r) }

def pop (m : Machine) (r : Reg) : Machine :=
  { m with regs := Function.update m.regs r (m.mem m.rsp), rsp := m.rsp + 8 }

def load (m : Machine) (r : Reg) (offset : Nat) : Machine :=
  { m with regs := Function.update m.regs r (m.mem (m.rsp + offset)) }

def store (m : Machine) (offset : Nat) (r : Reg) : Machine :=
  { m with mem := Function.update m.mem (m.rsp + offset) (m.regs r) }

-- Integer argument `i` of a call: rdi, rsi, rdx, rcx, r8 and r9, then the stack from rsp up.
def arg (m : Machine) : Nat → UInt64
  | 0 => m.regs .rdi
  | 1 => m.regs .rsi
  | 2 => m.regs .rdx
  | 3 => m.regs .rcx
  | 4 => m.regs .r8
  | 5 => m.regs .r9
  | i + 6 => m.mem (m.rsp + 8 * i)

-- The machine when a call returns `result`: the stack arguments, the return address and all
-- below them belong to the callee.
def returned {σ ε : Type} {arity : Nat} (m : Machine) (callee : Callee σ ε arity) (result : UInt64) :
    Machine where
  regs r := if r = .rax then result else if r.callerSaved then callee.clobber r else m.regs r
  rsp := m.rsp
  mem a := if a < m.rsp + 8 * (arity - 6) then callee.scratch a else m.mem a

section Pushes

theorem pushAll_rsp (rs : List Reg) (m : Machine) : (rs.foldl push m).rsp = m.rsp - 8 * rs.length := by
  induction rs generalizing m with
  | nil => rfl
  | cons r rest ih =>
      rw [List.foldl_cons, ih, List.length_cons]
      simp only [push]
      omega

theorem pushAll_regs (rs : List Reg) (m : Machine) : (rs.foldl push m).regs = m.regs := by
  induction rs generalizing m with
  | nil => rfl
  | cons r rest ih => rw [List.foldl_cons, ih]; rfl

theorem pushAll_above (rs : List Reg) (m : Machine) (room : 8 * rs.length ≤ m.rsp) {a : Nat} (above : m.rsp ≤ a) :
    (rs.foldl push m).mem a = m.mem a := by
  induction rs generalizing m with
  | nil => rfl
  | cons r rest ih =>
      rw [List.length_cons] at room
      rw [List.foldl_cons, ih (m.push r) (by simp only [push]; omega) (by simp only [push]; omega)]
      exact Function.update_of_ne (by omega) _ _

theorem pushAll_slot (rs : List Reg) (m : Machine) (room : 8 * rs.length ≤ m.rsp) {i : Nat} (inside : i < rs.length) :
    (rs.foldl push m).mem (m.rsp - 8 * rs.length + 8 * i) = m.regs (rs.reverse.getD i .rax) := by
  induction rs using List.reverseRecOn generalizing i with
  | nil => exact absurd inside (Nat.not_lt_zero _)
  | append_singleton init r ih =>
      rw [List.length_append, List.length_singleton] at room inside
      have below : (init.foldl push m).rsp = m.rsp - 8 * init.length := pushAll_rsp init m
      rw [List.foldl_append, List.foldl_cons, List.foldl_nil, List.reverse_append, List.reverse_singleton,
        List.singleton_append, List.length_append, List.length_singleton]
      simp only [push, Function.update_apply]
      cases i with
      | zero => rw [if_pos (by omega), pushAll_regs]; rfl
      | succ j =>
          rw [if_neg (by omega), List.getD_cons_succ, ← ih (by omega) (by omega)]
          congr 1
          omega

end Pushes

section Pops

theorem popAll_rsp (rs : List Reg) (m : Machine) : (rs.foldl pop m).rsp = m.rsp + 8 * rs.length := by
  induction rs generalizing m with
  | nil => rfl
  | cons r rest ih =>
      rw [List.foldl_cons, ih, List.length_cons]
      simp only [pop]
      omega

theorem popAll_mem (rs : List Reg) (m : Machine) : (rs.foldl pop m).mem = m.mem := by
  induction rs generalizing m with
  | nil => rfl
  | cons r rest ih => rw [List.foldl_cons, ih]; rfl

theorem popAll_other (rs : List Reg) (m : Machine) {r : Reg} (absent : r ∉ rs) : (rs.foldl pop m).regs r = m.regs r := by
  induction rs generalizing m with
  | nil => rfl
  | cons r' rest ih =>
      rw [List.mem_cons, not_or] at absent
      rw [List.foldl_cons, ih (m.pop r') absent.2]
      exact Function.update_of_ne absent.1 _ _

theorem popAll_slot (rs : List Reg) (m : Machine) (distinct : rs.Nodup) {i : Nat} (inside : i < rs.length) :
    (rs.foldl pop m).regs (rs.getD i .rax) = m.mem (m.rsp + 8 * i) := by
  induction rs generalizing m i with
  | nil => exact absurd inside (Nat.not_lt_zero _)
  | cons r rest ih =>
      obtain ⟨fresh, restDistinct⟩ := List.nodup_cons.mp distinct
      rw [List.foldl_cons]
      cases i with
      | zero =>
          rw [List.getD_cons_zero, popAll_other rest (m.pop r) fresh]
          simp only [pop, Function.update_self, Nat.mul_zero, Nat.add_zero]
      | succ j =>
          rw [List.getD_cons_succ, ih (m.pop r) restDistinct (by simpa using inside)]
          simp only [pop]
          congr 1
          omega

end Pops

end Machine

section Run

variable {σ ε : Type} {arity : Nat}

def step (callee : Callee σ ε arity) (state : Machine × σ) : Instr → Except ε (Machine × σ)
  | .push r => .ok (state.1.push r, state.2)
  | .pop r => .ok (state.1.pop r, state.2)
  | .load r offset => .ok (state.1.load r offset, state.2)
  | .store offset r => .ok (state.1.store offset r, state.2)
  | .subRsp n => .ok ({ state.1 with rsp := state.1.rsp - n }, state.2)
  | .addRsp n => .ok ({ state.1 with rsp := state.1.rsp + n }, state.2)
  | .call => do
      let (result, outside) ← callee.run state.2 fun i => state.1.arg i
      pure (state.1.returned callee result, outside)

def run (callee : Callee σ ε arity) (state : Machine × σ) (program : List Instr) : Except ε (Machine × σ) :=
  program.foldlM (step callee) state

theorem run_append (callee : Callee σ ε arity) {state middle : Machine × σ} {first : List Instr}
    (ran : run callee state first = .ok middle) (rest : List Instr) :
    run callee state (first ++ rest) = run callee middle rest :=
  Loop.foldlM_append_ok ran

theorem run_cons (callee : Callee σ ε arity) {state next : Machine × σ} {i : Instr} {rest : List Instr}
    (stepped : step callee state i = .ok next) : run callee state (i :: rest) = run callee next rest := by
  simp only [run, List.foldlM_cons, stepped]
  rfl

theorem step_call (callee : Callee σ ε arity) (m : Machine) {s s' : σ} {result : UInt64}
    (called : callee.run s (fun i => m.arg i) = .ok (result, s')) :
    step callee (m, s) .call = .ok (m.returned callee result, s') := by
  simp only [step, called]
  rfl

theorem run_pushes (callee : Callee σ ε arity) (rs : List Reg) (m : Machine) (s : σ) :
    run callee (m, s) (rs.map .push) = .ok (rs.foldl Machine.push m, s) := by
  induction rs generalizing m with
  | nil => rfl
  | cons r rest ih =>
      simp only [run, List.map_cons, List.foldlM_cons, step, bind, Except.bind]
      exact ih (m.push r)

theorem run_pops (callee : Callee σ ε arity) (rs : List Reg) (m : Machine) (s : σ) :
    run callee (m, s) (rs.map .pop) = .ok (rs.foldl Machine.pop m, s) := by
  induction rs generalizing m with
  | nil => rfl
  | cons r rest ih =>
      simp only [run, List.map_cons, List.foldlM_cons, step, bind, Except.bind]
      exact ih (m.pop r)

end Run

end X86
