import Mathlib

/-!
# Runs of a system that takes one action after another

A run is a fold of the step function over the list of the actions.  What holds at the start and is kept by every step
that meets a condition holds at the end of every run whose steps all meet it.
-/

namespace Chariox

variable {S A : Type}

/-- Every step of the run meets the condition, in the state in which it is taken. -/
def everyStep (step : S → A → S) (ok : S → A → Bool) (s : S) : List A → Bool
  | [] => true
  | action :: rest => ok s action && everyStep step ok (step s action) rest

theorem everyStep_append (step : S → A → S) (ok : S → A → Bool) (s : S) (b rest : List A) :
    everyStep step ok s (b ++ rest) = (everyStep step ok s b && everyStep step ok (b.foldl step s) rest) := by
  induction b generalizing s with
  | nil => rfl
  | cons a b ih => simp only [List.cons_append, everyStep, ih, List.foldl_cons, Bool.and_assoc]

theorem foldl_induction {step : S → A → S} {ok : S → A → Bool} {P : S → Prop}
    (hs : ∀ s a, P s → ok s a = true → P (step s a)) {s : S} (hst : P s) {acts : List A}
    (h : everyStep step ok s acts = true) : P (acts.foldl step s) := by
  induction acts generalizing s with
  | nil => exact hst
  | cons a rest ih =>
    rw [everyStep, Bool.and_eq_true] at h
    exact ih (hs s a hst h.1) h.2

theorem foldl_invariant {step : S → A → S} {P : S → Prop} (hs : ∀ s a, P s → P (step s a)) {s : S}
    (hst : P s) (acts : List A) : P (acts.foldl step s) := by
  induction acts generalizing s with
  | nil => exact hst
  | cons a rest ih => exact ih (hs s a hst)

end Chariox
