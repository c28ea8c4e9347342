import Mathlib

set_option autoImplicit false

/- A bounded first-in-first-out queue: at most `capacity` elements, oldest first. A push into a
   full queue hands the element back and leaves the queue as it was, as a lock-free array queue
   does. -/
@[ext]
structure BoundedQueue (α : Type) (capacity : Nat) where
  items : List α
  bounded : items.length ≤ capacity

namespace BoundedQueue

variable {α : Type} {capacity : Nat}

def empty : BoundedQueue α capacity := ⟨[], Nat.zero_le capacity⟩

def push (queue : BoundedQueue α capacity) (value : α) : Except α (BoundedQueue α capacity) :=
  if room : queue.items.length < capacity then
    .ok ⟨queue.items ++ [value], by rw [List.length_append, List.length_singleton]; omega⟩
  else .error value

def pop (queue : BoundedQueue α capacity) : Option α × BoundedQueue α capacity :=
  match queue with
  | ⟨[], bounded⟩ => (none, ⟨[], bounded⟩)
  | ⟨value :: rest, bounded⟩ => (some value, ⟨rest, Nat.le_of_succ_le bounded⟩)

@[simp] theorem items_empty : (empty : BoundedQueue α capacity).items = [] := rfl

theorem push_eq_ok {queue queue' : BoundedQueue α capacity} {value : α} :
    queue.push value = .ok queue' ↔ queue.items.length < capacity ∧ queue'.items = queue.items ++ [value] := by
  unfold push
  split
  · rename_i room
    constructor
    · rintro ⟨⟩
      exact ⟨room, rfl⟩
    · rintro ⟨-, items⟩
      exact congrArg Except.ok (BoundedQueue.ext items.symm)
  · rename_i full
    simp only [reduceCtorEq, false_iff, not_and]
    intro room
    exact absurd room full

theorem push_eq_error {queue : BoundedQueue α capacity} {value value' : α} :
    queue.push value = .error value' ↔ capacity ≤ queue.items.length ∧ value' = value := by
  unfold push
  split
  · rename_i room
    simp only [reduceCtorEq, false_iff, not_and]
    intro full
    omega
  · rename_i full
    simp only [Except.error.injEq]
    constructor
    · rintro rfl
      exact ⟨by omega, rfl⟩
    · rintro ⟨-, rfl⟩
      rfl

theorem pop_items (queue : BoundedQueue α capacity) : queue.pop.1.toList ++ queue.pop.2.items = queue.items := by
  obtain ⟨_ | ⟨value, rest⟩, bounded⟩ := queue <;> rfl

theorem pop_eq_none_iff (queue : BoundedQueue α capacity) : queue.pop.1 = none ↔ queue.items = [] := by
  obtain ⟨_ | ⟨value, rest⟩, bounded⟩ := queue <;> simp [pop]

-- What a consumer has taken, followed by what is still queued, is everything the queue accepted:
-- nothing is lost, duplicated or reordered on the way through.
def Conserves (queue : BoundedQueue α capacity) (taken accepted : List α) : Prop :=
  taken ++ queue.items = accepted

theorem conserves_empty : (empty : BoundedQueue α capacity).Conserves [] [] := rfl

theorem Conserves.push {queue queue' : BoundedQueue α capacity} {taken accepted : List α} {value : α}
    (conserves : queue.Conserves taken accepted) (pushed : queue.push value = .ok queue') :
    queue'.Conserves taken (accepted ++ [value]) := by
  rw [Conserves, (push_eq_ok.mp pushed).2, ← List.append_assoc, conserves]

theorem Conserves.pop {queue : BoundedQueue α capacity} {taken accepted : List α}
    (conserves : queue.Conserves taken accepted) : queue.pop.2.Conserves (taken ++ queue.pop.1.toList) accepted := by
  rw [Conserves, List.append_assoc, pop_items, conserves]

end BoundedQueue
