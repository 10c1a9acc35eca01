import Mathlib.Logic.Basic

/-!
Runs of labelled steps. A run lists its labels, each with the state after it. A property of steps that holds exactly
when a condition on the state before does, holds along a run exactly when the condition does.
-/

namespace LabelledRun

variable {L S : Type} {step : S → L → S → Prop}

/-- The steps of a run, one after the other. -/
inductive Run (step : S → L → S → Prop) : S → List (L × S) → Prop
  | nil (s : S) : Run step s []
  | cons {s s' : S} {label : L} {steps : List (L × S)} (h : step s label s') (hrest : Run step s' steps) :
      Run step s ((label, s') :: steps)

/-- Every step of the run has the property. -/
def Along (P : S → L → S → Prop) : S → List (L × S) → Prop
  | _, [] => True
  | s, (label, s') :: steps => P s label s' ∧ Along P s' steps

/-- **Step by step.** Properties that are the same for every step are the same along every run. -/
theorem Run.along_congr {P Q : S → L → S → Prop} {s : S} {steps : List (L × S)} (h : Run step s steps)
    (hstep : ∀ s label s', step s label s' → (P s label s' ↔ Q s label s')) :
    Along P s steps ↔ Along Q s steps := by
  induction h with
  | nil s => exact Iff.rfl
  | cons h hrest ih => exact and_congr (hstep _ _ _ h) ih

end LabelledRun
