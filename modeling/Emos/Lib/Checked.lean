import Mathlib

set_option autoImplicit false

/- Unsigned machine arithmetic as a debug build performs it: `+`, `-` and `*` panic on
   overflow and `/` on a zero divisor, `checked_add` reports overflow, and `wrapping_add` (what
   an atomic `fetch_add` does) reduces modulo the word size. Words are naturals below
   `2 ^ width`. -/
namespace Checked

structure Panic where
  message : String
deriving DecidableEq, Repr

def overflowAdd : Panic := ⟨"attempt to add with overflow"⟩
def overflowSub : Panic := ⟨"attempt to subtract with overflow"⟩
def overflowMul : Panic := ⟨"attempt to multiply with overflow"⟩
def divideByZero : Panic := ⟨"attempt to divide by zero"⟩

def add (width a b : Nat) : Except Panic Nat :=
  if a + b < 2 ^ width then .ok (a + b) else .error overflowAdd

def sub (a b : Nat) : Except Panic Nat :=
  if b ≤ a then .ok (a - b) else .error overflowSub

def mul (width a b : Nat) : Except Panic Nat :=
  if a * b < 2 ^ width then .ok (a * b) else .error overflowMul

def div (a b : Nat) : Except Panic Nat :=
  if b = 0 then .error divideByZero else .ok (a / b)

def checkedAdd (width a b : Nat) : Option Nat :=
  if a + b < 2 ^ width then some (a + b) else none

def wrappingAdd (width a b : Nat) : Nat := (a + b) % 2 ^ width

def saturatingAdd (width a b : Nat) : Nat := min (a + b) (2 ^ width - 1)

def expect {α : Type} (value : Option α) (message : String) : Except Panic α :=
  match value with
  | some a => .ok a
  | none => .error ⟨message⟩

def indexOutOfBounds (len index : Nat) : Panic :=
  ⟨"index out of bounds: the len is " ++ toString len ++ " but the index is " ++ toString index⟩

def index {α : Type} {n : Nat} (xs : Fin n → α) (i : Nat) : Except Panic α :=
  if inside : i < n then .ok (xs ⟨i, inside⟩) else .error (indexOutOfBounds n i)

def setIndex {α : Type} {n : Nat} (xs : Fin n → α) (i : Nat) (a : α) : Except Panic (Fin n → α) :=
  if inside : i < n then .ok (Function.update xs ⟨i, inside⟩ a) else .error (indexOutOfBounds n i)

def complement (width x : Nat) : Nat := x ^^^ (2 ^ width - 1)

@[simp] theorem add_of_lt (width a b : Nat) (fits : a + b < 2 ^ width) :
    add width a b = .ok (a + b) := by
  simp [add, fits]

theorem add_of_le (width a b : Nat) (overflow : 2 ^ width ≤ a + b) :
    add width a b = .error overflowAdd := by
  simp [add, Nat.not_lt.mpr overflow]

@[simp] theorem sub_of_le (a b : Nat) (le : b ≤ a) : sub a b = .ok (a - b) := by
  simp [sub, le]

@[simp] theorem mul_of_lt (width a b : Nat) (fits : a * b < 2 ^ width) :
    mul width a b = .ok (a * b) := by
  simp [mul, fits]

theorem mul_of_le (width a b : Nat) (overflow : 2 ^ width ≤ a * b) :
    mul width a b = .error overflowMul := by
  simp [mul, Nat.not_lt.mpr overflow]

theorem add_ok_iff (width a b c : Nat) : add width a b = .ok c ↔ a + b < 2 ^ width ∧ c = a + b := by
  unfold add
  split <;> simp [eq_comm] <;> omega

theorem sub_ok_iff (a b c : Nat) : sub a b = .ok c ↔ b ≤ a ∧ c = a - b := by
  unfold sub
  split <;> simp [eq_comm] <;> omega

theorem mul_ok_iff (width a b c : Nat) : mul width a b = .ok c ↔ a * b < 2 ^ width ∧ c = a * b := by
  unfold mul
  split <;> simp [eq_comm] <;> omega

@[simp] theorem div_of_pos (a b : Nat) (positive : 0 < b) : div a b = .ok (a / b) := by
  simp [div, Nat.pos_iff_ne_zero.mp positive]

@[simp] theorem div_zero (a : Nat) : div a 0 = .error divideByZero := rfl

theorem checkedAdd_eq_some_iff (width a b c : Nat) :
    checkedAdd width a b = some c ↔ a + b < 2 ^ width ∧ c = a + b := by
  unfold checkedAdd
  split <;> simp [eq_comm] <;> omega

theorem checkedAdd_eq_none_iff (width a b : Nat) : checkedAdd width a b = none ↔ 2 ^ width ≤ a + b := by
  unfold checkedAdd
  split <;> simp_all

@[simp] theorem expect_some {α : Type} (a : α) (message : String) : expect (some a) message = .ok a := rfl

@[simp] theorem expect_none {α : Type} (message : String) : expect (none : Option α) message = .error ⟨message⟩ := rfl

theorem wrappingAdd_of_lt (width a b : Nat) (fits : a + b < 2 ^ width) : wrappingAdd width a b = a + b :=
  Nat.mod_eq_of_lt fits

theorem saturatingAdd_of_le (width a b : Nat) (fits : a + b ≤ 2 ^ width - 1) : saturatingAdd width a b = a + b :=
  Nat.min_eq_left fits

theorem wrappingAdd_lt (width a b : Nat) : wrappingAdd width a b < 2 ^ width :=
  Nat.mod_lt _ (Nat.two_pow_pos width)

theorem lt_of_le_wrappingAdd (width n : Nat) (pos : 0 < n) (le : n ≤ wrappingAdd width n 1) : n + 1 < 2 ^ width := by
  unfold wrappingAdd at le
  by_contra wraps
  have wrapped : (n + 1) % 2 ^ width = (n + 1 - 2 ^ width) % 2 ^ width := Nat.mod_eq_sub_mod (by omega)
  have small := Nat.mod_le (n + 1 - 2 ^ width) (2 ^ width)
  have bounded := Nat.mod_lt (n + 1 - 2 ^ width) (Nat.two_pow_pos width)
  omega

@[simp] theorem index_of_lt {α : Type} {n : Nat} (xs : Fin n → α) {i : Nat} (inside : i < n) :
    index xs i = .ok (xs ⟨i, inside⟩) := by
  simp [index, inside]

@[simp] theorem setIndex_of_lt {α : Type} {n : Nat} (xs : Fin n → α) {i : Nat} (inside : i < n) (a : α) :
    setIndex xs i a = .ok (Function.update xs ⟨i, inside⟩ a) := by
  simp [setIndex, inside]

theorem bind_eq_ok {ε α β : Type} {x : Except ε α} {f : α → Except ε β} {b : β} :
    x >>= f = .ok b ↔ ∃ a, x = .ok a ∧ f a = .ok b := by
  cases x <;> simp [bind, Except.bind]

theorem ok_bind {ε α β : Type} (a : α) (f : α → Except ε β) : (Except.ok a >>= f) = f a := rfl

theorem not_error_of_eq_ok {ε α : Type} {x : Except ε α} {a : α} (returned : x = .ok a) : ¬ ∃ e, x = .error e :=
  fun ⟨_, failed⟩ => nomatch returned.symm.trans failed

theorem mem_of_mapM_eq_ok {ε α β : Type} {f : α → Except ε β} {xs : List α} {ys : List β}
    (result : xs.mapM f = .ok ys) {x : α} {y : β} (member : x ∈ xs) (image : f x = .ok y) : y ∈ ys := by
  induction xs generalizing ys with
  | nil => exact absurd member List.not_mem_nil
  | cons head rest ih =>
      rw [List.mapM_cons] at result
      obtain ⟨first, ran, later⟩ := bind_eq_ok.mp result
      obtain ⟨others, collected, returned⟩ := bind_eq_ok.mp later
      simp only [pure, Except.pure, Except.ok.injEq] at returned
      subst returned
      rcases List.mem_cons.mp member with rfl | member
      · rw [image, Except.ok.injEq] at ran
        exact ran ▸ List.mem_cons_self
      · exact List.mem_cons_of_mem _ (ih collected member)

theorem foldlM_add_of_lt (width : Nat) (xs : List Nat) (init : Nat) (fits : init + xs.sum < 2 ^ width) :
    xs.foldlM (add width) init = .ok (init + xs.sum) := by
  induction xs generalizing init with
  | nil => rfl
  | cons x xs ih =>
      rw [List.sum_cons] at fits
      rw [List.foldlM_cons, add_of_lt width init x (by omega), ok_bind, ih (init + x) (by omega), List.sum_cons,
        Nat.add_assoc]

theorem anyM_eq_ok {ε α : Type} {p : α → Except ε Bool} (g : α → Bool) {xs : List α}
    (total : ∀ x ∈ xs, p x = .ok (g x)) : xs.anyM p = .ok (xs.any g) := by
  induction xs with
  | nil => rfl
  | cons x xs ih =>
      rw [List.anyM, total x List.mem_cons_self, ok_bind, List.any_cons]
      cases g x with
      | true => rfl
      | false => exact ih fun y member => total y (List.mem_cons_of_mem x member)

theorem eq_ok_of_toOption {ε α : Type} {x : Except ε α} {a : α} (returned : x.toOption = some a) : x = .ok a := by
  cases x <;> simp_all [Except.toOption]

end Checked
