import Mathlib

set_option autoImplicit false

/- Runs of a labelled transition relation, with the labels in the order they happened. The
   labels are what an observer sees of each step: its inputs and what it returned. -/
namespace Trace

variable {State Label : Type}

inductive Run (step : State → Label → State → Prop) : State → List Label → State → Prop
  | nil (s : State) : Run step s [] s
  | snoc {s t u : State} {labels : List Label} {label : Label} :
      Run step s labels t → step t label u → Run step s (labels ++ [label]) u

variable {step : State → Label → State → Prop}

theorem Run.single {s t : State} {label : Label} (taken : step s label t) : Run step s [label] t :=
  .snoc (.nil s) taken

theorem Run.invariant {P : List Label → State → Prop} {s u : State} {labels : List Label}
    (start : P [] s) (preserve : ∀ labels t label u, P labels t → step t label u → P (labels ++ [label]) u)
    (run : Run step s labels u) : P labels u := by
  induction run with
  | nil => exact start
  | snoc _ taken ih => exact preserve _ _ _ _ ih taken

end Trace
