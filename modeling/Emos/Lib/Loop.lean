import Mathlib

set_option autoImplicit false

/- `for` loops of a program that can fail, read as `List.foldlM` in `Except`: the loop runs its
   body on each item in turn and stops at the first error. -/
namespace Loop

variable {ε α β : Type}

theorem foldlM_ok {f : β → α → Except ε β} {xs : List α} (inv : β → Prop) (init : β) (start : inv init)
    (step : ∀ acc x, x ∈ xs → inv acc → ∃ acc', f acc x = .ok acc' ∧ inv acc') :
    ∃ result, xs.foldlM f init = .ok result ∧ inv result := by
  induction xs generalizing init with
  | nil => exact ⟨init, rfl, start⟩
  | cons x xs ih =>
      obtain ⟨acc, first, kept⟩ := step init x List.mem_cons_self start
      rw [List.foldlM_cons, first]
      exact ih acc kept fun acc y member => step acc y (List.mem_cons_of_mem x member)

theorem foldlM_cons_ok {f : β → α → Except ε β} {x : α} {xs : List α} {init result : β}
    (ran : (x :: xs).foldlM f init = .ok result) : ∃ acc, f init x = .ok acc ∧ xs.foldlM f acc = .ok result := by
  rw [List.foldlM_cons] at ran
  cases first : f init x with
  | error e =>
      rw [first] at ran
      cases ran
  | ok acc => exact ⟨acc, rfl, by rwa [first] at ran⟩

theorem foldlM_append_ok {f : β → α → Except ε β} {xs ys : List α} {init middle : β}
    (first : xs.foldlM f init = .ok middle) : (xs ++ ys).foldlM f init = ys.foldlM f middle := by
  rw [List.foldlM_append, first]
  rfl

theorem foldlM_range'_ok {f : β → Nat → Except ε β} (inv : Nat → β → Prop) (start n : Nat) (init : β)
    (first : inv start init)
    (step : ∀ k acc, start ≤ k → k < start + n → inv k acc → ∃ acc', f acc k = .ok acc' ∧ inv (k + 1) acc') :
    ∃ result, (List.range' start n).foldlM f init = .ok result ∧ inv (start + n) result := by
  induction n generalizing start init with
  | zero => exact ⟨init, rfl, first⟩
  | succ n ih =>
      obtain ⟨acc, ran, kept⟩ := step start init le_rfl (by omega) first
      obtain ⟨result, rest, last⟩ :=
        ih (start + 1) acc kept fun k acc low high => step k acc (by omega) (by omega)
      refine ⟨result, ?_, by rwa [show start + (n + 1) = start + 1 + n by omega]⟩
      rw [List.range'_succ, List.foldlM_cons, ran]
      exact rest

theorem update_prefix {n : Nat} (written original : Fin n → α) {k : Nat} (inside : k < n) :
    Function.update (fun i : Fin n => if i.val < k then written i else original i) ⟨k, inside⟩ (written ⟨k, inside⟩) =
      fun i => if i.val < k + 1 then written i else original i := by
  funext i
  by_cases here : i = ⟨k, inside⟩
  · subst here
    simp
  · have other : i.val ≠ k := fun same => here (Fin.ext same)
    rw [Function.update_of_ne here]
    by_cases before : i.val < k
    · simp [before, show i.val < k + 1 by omega]
    · simp [before, show ¬i.val < k + 1 by omega]

theorem foldl_update_offset (base : Nat) (value : Nat → α) (passes : List Nat) (init : Nat → α) :
    passes.foldl (fun out i => Function.update out (base + i) (value i)) init =
      fun addr => if base ≤ addr ∧ addr - base ∈ passes then value (addr - base) else init addr := by
  induction passes generalizing init with
  | nil => simp
  | cons i passes ih =>
      rw [List.foldl_cons, ih]
      funext addr
      by_cases later : base ≤ addr ∧ addr - base ∈ passes
      · simp [later]
      · by_cases here : addr = base + i
        · subst here
          simp
        · have notHere : ¬(base ≤ addr ∧ addr - base = i) := fun ⟨above, same⟩ => here (by omega)
          simp only [later, if_false, Function.update_of_ne here, List.mem_cons]
          rw [if_neg]
          rintro ⟨above, same | member⟩
          · exact notHere ⟨above, same⟩
          · exact later ⟨above, member⟩

end Loop
