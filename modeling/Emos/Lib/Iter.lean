import Mathlib

set_option autoImplicit false

/- Iterators of the core library, read as the lists of items they yield. `stepBy` is what
   `(start..stop).step_by(step)` yields. `mapNth` is `iter.map(f).nth(n)` for a closure that can
   fail: `nth` pulls the first `n + 1` items through the closure, so a failure on any of them,
   and not only on the item returned, ends the call. -/
namespace Iter

variable {α β ε : Type}

def stepBy (start stop step : Nat) : List Nat :=
  (List.range ((stop - start + step - 1) / step)).map (fun k => start + k * step)

def mapNth (f : α → Except ε β) : List α → Nat → Except ε (Option β)
  | [], _ => .ok none
  | x :: _, 0 => some <$> f x
  | x :: xs, n + 1 => do
      let _ ← f x
      mapNth f xs n

section StepBy

variable {start stop step : Nat}

theorem mem_stepBy (pos : 0 < step) {x : Nat} :
    x ∈ stepBy start stop step ↔ ∃ k, start + k * step = x ∧ start + k * step < stop := by
  unfold stepBy
  simp only [List.mem_map, List.mem_range]
  have count (k : Nat) : k < (stop - start + step - 1) / step ↔ start + k * step < stop := by
    rw [Nat.lt_iff_add_one_le, Nat.le_div_iff_mul_le pos, Nat.succ_mul]
    omega
  simp only [count]
  constructor
  · rintro ⟨k, inside, rfl⟩
    exact ⟨k, rfl, inside⟩
  · rintro ⟨k, rfl, inside⟩
    exact ⟨k, inside, rfl⟩

theorem stepBy_nodup (pos : 0 < step) : (stepBy start stop step).Nodup := by
  apply List.Nodup.map _ List.nodup_range
  intro k l same
  exact Nat.eq_of_mul_eq_mul_right pos (Nat.add_left_cancel same)

end StepBy

section MapNth

variable {f : α → Except ε β}

theorem mapNth_cons_succ {x : α} {y : β} (xs : List α) (n : Nat) (ok : f x = .ok y) :
    mapNth f (x :: xs) (n + 1) = mapNth f xs n := by
  simp [mapNth, ok, bind, Except.bind]

theorem mapNth_eq_ok (g : α → β) {xs : List α} (total : ∀ x ∈ xs, f x = .ok (g x)) (n : Nat) :
    mapNth f xs n = .ok ((xs[n]?).map g) := by
  induction xs generalizing n with
  | nil => rfl
  | cons x xs ih =>
      have here := total x List.mem_cons_self
      cases n with
      | zero => simp [mapNth, here]
      | succ n =>
          rw [mapNth_cons_succ xs n here, List.getElem?_cons_succ]
          exact ih (fun y member => total y (List.mem_cons_of_mem x member)) n

theorem mapNth_some {xs : List α} {n : Nat} {y : β} (found : mapNth f xs n = .ok (some y)) :
    ∃ x, xs[n]? = some x ∧ f x = .ok y := by
  induction xs generalizing n with
  | nil => simp [mapNth] at found
  | cons x xs ih =>
      cases pulled : f x with
      | error e =>
          cases n <;> simp [mapNth, pulled, bind, Except.bind, Functor.map, Except.map] at found
      | ok z =>
          cases n with
          | zero =>
              simp only [mapNth, pulled, Functor.map, Except.map, Except.ok.injEq, Option.some.injEq] at found
              exact ⟨x, rfl, found ▸ pulled⟩
          | succ n =>
              rw [mapNth_cons_succ xs n pulled] at found
              exact ih found

theorem mapNth_none {xs : List α} {n : Nat} (exhausted : mapNth f xs n = .ok none) : xs.length ≤ n := by
  induction xs generalizing n with
  | nil => simp
  | cons x xs ih =>
      cases pulled : f x with
      | error e =>
          cases n <;> simp [mapNth, pulled, bind, Except.bind, Functor.map, Except.map] at exhausted
      | ok z =>
          cases n with
          | zero => simp [mapNth, pulled, Functor.map, Except.map] at exhausted
          | succ n =>
              rw [mapNth_cons_succ xs n pulled] at exhausted
              simpa using ih exhausted

theorem mapNth_none_of_le {xs : List α} {n m : Nat} (exhausted : mapNth f xs n = .ok none) (le : n ≤ m) :
    mapNth f xs m = .ok none := by
  induction xs generalizing n m with
  | nil => simp [mapNth]
  | cons x xs ih =>
      cases pulled : f x with
      | error e =>
          cases n <;> simp [mapNth, pulled, bind, Except.bind, Functor.map, Except.map] at exhausted
      | ok z =>
          obtain ⟨n, rfl⟩ : ∃ n', n = n' + 1 := by
            cases n with
            | zero => simp [mapNth, pulled, Functor.map, Except.map] at exhausted
            | succ n => exact ⟨n, rfl⟩
          obtain ⟨m, rfl⟩ : ∃ m', m = m' + 1 := ⟨m - 1, by omega⟩
          rw [mapNth_cons_succ xs n pulled] at exhausted
          rw [mapNth_cons_succ xs m pulled]
          exact ih exhausted (by omega)

theorem reduceOption_map_getElem? (xs : List α) (n : Nat) :
    ((List.range n).map (fun i => xs[i]?)).reduceOption = xs.take n := by
  induction n with
  | zero => simp
  | succ n ih =>
      rw [List.range_succ, List.map_append, List.reduceOption_append, ih, List.take_add_one]
      cases item : xs[n]? <;> simp [item]

end MapNth

end Iter
