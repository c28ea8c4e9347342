import Mathlib

set_option autoImplicit false

/- Methods on `&mut self` that return a `Result`, as `EStateM` programs: an early return of an
   error keeps every change the method made before it. A method is atomic when each error
   leaves the state as the call found it. That follows once the method is shown to agree with a
   function that returns either an error or its result together with the new state. -/
namespace Method

variable {ε σ α : Type}

@[simp] theorem run_throw (e : ε) (s : σ) : (throw e : EStateM ε σ α).run s = .error e s := rfl

theorem run_bind {β : Type} (x : EStateM ε σ α) (f : α → EStateM ε σ β) (s : σ) :
    (x >>= f).run s = match x.run s with
      | .ok value s' => (f value).run s'
      | .error e s' => .error e s' := rfl

-- The run of the program of `f`: the result and the new state, or the error in the state the call
-- started from.
def outcome (s : σ) : Except ε (α × σ) → EStateM.Result ε σ α
  | .ok (value, s') => .ok value s'
  | .error e => .error e s

@[simp] theorem outcome_ok (s s' : σ) (value : α) :
    (outcome s (.ok (value, s')) : EStateM.Result ε σ α) = .ok value s' := rfl

@[simp] theorem outcome_error (s : σ) (e : ε) : (outcome s (.error e) : EStateM.Result ε σ α) = .error e s := rfl

def Atomic (method : EStateM ε σ α) : Prop :=
  ∀ s e s', method.run s = .error e s' → s' = s

theorem atomic_of_outcome {method : EStateM ε σ α} (f : σ → Except ε (α × σ))
    (agrees : ∀ s, method.run s = outcome s (f s)) : Atomic method := by
  intro s e s' failed
  rw [agrees] at failed
  cases result : f s with
  | ok done =>
      obtain ⟨value, after⟩ := done
      rw [result, outcome_ok] at failed
      cases failed
  | error e' =>
      rw [result, outcome_error] at failed
      cases failed
      rfl

end Method
