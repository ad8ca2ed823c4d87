import Mathlib.Tactic

/-!
# Runs

A system takes steps `step : A → S → Except ε S`, which may fault. A *run*
(`Run`) is a sequence of steps that return, each taken in a state that meets a
condition of the step.

What holds at first and is kept by every step that meets its condition holds in every
state reached (`Run.invariant`).
-/

namespace Machine

variable {A S ε : Type*}

/-- The runs of a system from a state to another, whose steps all meet the condition
    `ok`. -/
inductive Run (step : A → S → Except ε S) (ok : A → S → Prop) (s : S) : S → Prop
  | start : Run step ok s s
  | step {s' s'' : S} (a : A) : Run step ok s s' → ok a s' → step a s' = .ok s'' →
      Run step ok s s''

/-- The invariant rule. -/
theorem Run.invariant {step : A → S → Except ε S} {ok : A → S → Prop} {I : S → Prop} {s s' : S}
    (hrun : Run step ok s s') (hI : I s)
    (hstep : ∀ a s s', I s → ok a s → step a s = .ok s' → I s') : I s' := by
  induction hrun with
  | start => exact hI
  | step a _ hok h ih => exact hstep a _ _ ih hok h

/-- A weaker condition. -/
theorem Run.mono {step : A → S → Except ε S} {ok ok' : A → S → Prop} {s s' : S}
    (h : Run step ok s s') (hok : ∀ a s, ok a s → ok' a s) : Run step ok' s s' := by
  induction h with
  | start => exact .start
  | step a _ ha hstep ih => exact ih.step a (hok a _ ha) hstep

/-- A run that goes on after another one. -/
theorem Run.trans {step : A → S → Except ε S} {ok : A → S → Prop} {s s' s'' : S}
    (h : Run step ok s s') (h' : Run step ok s' s'') : Run step ok s s'' := by
  induction h' with
  | start => exact h
  | step a _ hok hstep ih => exact ih.step a hok hstep

/-- The run of a list of steps that meet the condition in any state. -/
theorem Run.of_foldlM {step : A → S → Except ε S} {ok : A → S → Prop} {l : List A} {s s' : S}
    (hok : ∀ a ∈ l, ∀ s, ok a s) (h : l.foldlM (fun s a => step a s) s = .ok s') :
    Run step ok s s' := by
  induction l generalizing s with
  | nil =>
    cases h
    exact .start
  | cons a l ih =>
    rw [List.foldlM_cons] at h
    cases hstep : step a s with
    | error e =>
      rw [hstep] at h
      cases h
    | ok s₁ =>
      rw [hstep] at h
      have hfirst : Run step ok s s₁ := .step a .start (hok a List.mem_cons_self s) hstep
      exact hfirst.trans (ih (fun b hb => hok b (List.mem_cons_of_mem _ hb)) h)

/-- A step that is only taken if its condition is met. -/
def checked (step : A → S → Except ε S) (ok : A → S → Prop) [∀ a s, Decidable (ok a s)] (e : ε)
    (s : S) (a : A) : Except ε S :=
  if ok a s then step a s else .error e

/-- The run of a list of steps that have been checked. -/
theorem Run.of_checked {step : A → S → Except ε S} {ok : A → S → Prop} [∀ a s, Decidable (ok a s)]
    {e : ε} {l : List A} {s s' : S} (h : l.foldlM (checked step ok e) s = .ok s') :
    Run step ok s s' := by
  induction l generalizing s with
  | nil =>
    cases h
    exact .start
  | cons a l ih =>
    rw [List.foldlM_cons, checked] at h
    split at h
    · rename_i hok
      cases hstep : step a s with
      | error e =>
        rw [hstep] at h
        cases h
      | ok s₁ =>
        rw [hstep] at h
        have hfirst : Run step ok s s₁ := .step a .start hok hstep
        exact hfirst.trans (ih h)
    · cases h

end Machine
