import Mathlib.Data.List.Basic

/-!
# What one observer gets from a run

A machine answers each input with a list of outputs. An observer sees a part of the
state, some of the inputs and some of the outputs.

* `Lib.outputs`, `Lib.final`: the outputs of a run and the state it ends in.
* `Lib.Blind`: the other inputs neither move what the observer sees nor answer it.
* `Lib.Blind.filter_outputs`: the observer gets the same without the other inputs.
-/

namespace Lib

variable {σ α β τ : Type*}

/-! ## Runs with outputs -/

/-- The state in which a run ends. -/
def final (step : σ → α → σ × List β) (s : σ) : List α → σ
  | [] => s
  | a :: as => final step (step s a).1 as

/-- The outputs of a run. -/
def outputs (step : σ → α → σ × List β) (s : σ) : List α → List β
  | [] => []
  | a :: as => (step s a).2 ++ outputs step (step s a).1 as

section

variable {step : σ → α → σ × List β}

theorem final_append (s : σ) (as bs : List α) :
    final step s (as ++ bs) = final step (final step s as) bs := by
  induction as generalizing s with
  | nil => rfl
  | cons a as ih => exact ih (step s a).1

/-- What every step keeps holds at the end of a run. -/
theorem final_inv {P : σ → Prop} (hstep : ∀ s a, P s → P (step s a).1) {s : σ} (h : P s)
    (as : List α) : P (final step s as) := by
  induction as generalizing s with
  | nil => exact h
  | cons a as ih => exact ih (hstep s a h)

/-! ## Observers -/

/-- An observer of `view` that sees the inputs with `sees` and the outputs with `shows`. -/
structure Blind (step : σ → α → σ × List β) (view : σ → τ) (sees : α → Bool)
    (shows : β → Bool) : Prop where
  view_step : ∀ s t a, view s = view t → view (step s a).1 = view (step t a).1
  shows_step : ∀ s t a, view s = view t → (step s a).2.filter shows = (step t a).2.filter shows
  view_idle : ∀ s a, sees a = false → view (step s a).1 = view s
  shows_idle : ∀ s a, sees a = false → (step s a).2.filter shows = []

variable {view : σ → τ} {sees : α → Bool} {shows : β → Bool}

/-- Where the observer cannot tell two states apart, the inputs that it does not see can be
left out. -/
theorem Blind.filter_outputs (h : Blind step view sees shows) {s t : σ} (hst : view s = view t)
    (as : List α) :
    (outputs step s as).filter shows = (outputs step t (as.filter sees)).filter shows := by
  induction as generalizing s t with
  | nil => rfl
  | cons a as ih =>
    rw [outputs, List.filter_append]
    by_cases ha : sees a = true
    · rw [List.filter_cons_of_pos ha, outputs, List.filter_append, h.shows_step s t a hst,
        ih (h.view_step s t a hst)]
    · rw [Bool.not_eq_true] at ha
      rw [List.filter_cons_of_neg (by simp [ha]), h.shows_idle s a ha, List.nil_append]
      exact ih ((h.view_idle s a ha).trans hst)

/-- And the observer cannot tell the states apart in which the runs end. -/
theorem Blind.view_final (h : Blind step view sees shows) {s t : σ} (hst : view s = view t)
    (as : List α) : view (final step s as) = view (final step t (as.filter sees)) := by
  induction as generalizing s t with
  | nil => exact hst
  | cons a as ih =>
    by_cases ha : sees a = true
    · rw [List.filter_cons_of_pos ha]
      exact ih (h.view_step s t a hst)
    · rw [Bool.not_eq_true] at ha
      rw [List.filter_cons_of_neg (by simp [ha])]
      exact ih ((h.view_idle s a ha).trans hst)

end

end Lib
