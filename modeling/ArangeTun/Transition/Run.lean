import Mathlib

/-!
# Runs of a partial step function

A component is a function `step : σ → α → Option σ`, which gives `none` when the action is not enabled. The
interleavings of several goroutines are sequences of actions. `Reach` is about the states reached by steps that all
meet a condition on the state before the step and the action.
-/

namespace Transition

variable {σ : Type*} {α : Type*} {step : σ → α → Option σ} {C : σ → α → Prop} {s₀ s s' : σ}

theorem enabled {c : Prop} [Decidable c] {x y : σ} (h : (if c then some x else none) = some y) : c ∧ x = y := by
  simpa using h

def run (step : σ → α → Option σ) : σ → List α → Option σ
  | s, [] => some s
  | s, a :: as => (step s a).bind (run step · as)

theorem run_append (s : σ) (as bs : List α) :
    run step s (as ++ bs) = (run step s as).bind (run step · bs) := by
  induction as generalizing s with
  | nil => rfl
  | cons a as ih => cases h : step s a <;> simp [run, h, ih]

/-- The states reached from `s₀` by steps that all meet `C`. -/
inductive Reach (step : σ → α → Option σ) (C : σ → α → Prop) (s₀ : σ) : σ → Prop
  | init : Reach step C s₀ s₀
  | next {s s' a} : Reach step C s₀ s → C s a → step s a = some s' → Reach step C s₀ s'

def Any : σ → α → Prop := fun _ _ => True

instance (s : σ) (a : α) : Decidable (Any s a) := isTrue trivial

theorem Reach.invariant {I : σ → Prop} (h : Reach step C s₀ s) (h₀ : I s₀)
    (hstep : ∀ s a s', I s → C s a → step s a = some s' → I s') : I s := by
  induction h with
  | init => exact h₀
  | next _ hc hs ih => exact hstep _ _ _ ih hc hs

theorem Reach.invariant_with {I J : σ → Prop} (h : Reach step C s₀ s)
    (hJ : ∀ s, Reach step C s₀ s → J s) (h₀ : I s₀)
    (hstep : ∀ s a s', J s → I s → C s a → step s a = some s' → I s') : I s := by
  induction h with
  | init => exact h₀
  | next hr hc hs ih => exact hstep _ _ _ (hJ _ hr) ih hc hs

theorem Reach.trans {s₁ s₂ : σ} (h₁ : Reach step C s₀ s₁) (h₂ : Reach step C s₁ s₂) :
    Reach step C s₀ s₂ := by
  induction h₂ with
  | init => exact h₁
  | next _ hc hs ih => exact .next ih hc hs

theorem Reach.mono {D : σ → α → Prop} (h : Reach step C s₀ s) (hCD : ∀ s a, C s a → D s a) : Reach step D s₀ s := by
  induction h with
  | init => exact .init
  | next _ hc hs ih => exact .next ih (hCD _ _ hc) hs

/-- The step function that refuses the actions which do not meet `C`. -/
def only (C : σ → α → Prop) [∀ s a, Decidable (C s a)] (step : σ → α → Option σ) (s : σ) (a : α) : Option σ :=
  if C s a then step s a else none

theorem reach_of_run [∀ s a, Decidable (C s a)] {as : List α} (h : run (only C step) s as = some s') :
    Reach step C s s' := by
  induction as generalizing s with
  | nil =>
    simp only [run, Option.some.injEq] at h
    subst h
    exact .init
  | cons a as ih =>
    simp only [run, Option.bind_eq_some_iff, only, Option.ite_none_right_eq_some] at h
    obtain ⟨s₁, ⟨hc, hs⟩, hrest⟩ := h
    exact (Reach.next .init hc hs).trans (ih hrest)

theorem exists_run {P : σ → Prop} [DecidablePred P] {as : List α} (h : (run step s as).any (P ·) = true) :
    ∃ s', run step s as = some s' ∧ P s' := by
  obtain ⟨s', hs, hP⟩ := (Option.any_eq_true _ _).mp h
  exact ⟨s', hs, of_decide_eq_true hP⟩

theorem exists_reach {P : σ → Prop} [DecidablePred P] [∀ s a, Decidable (C s a)] (as : List α)
    (h : (run (only C step) s as).any (P ·) = true) : ∃ s', Reach step C s s' ∧ P s' := by
  obtain ⟨s', hs, hP⟩ := (Option.any_eq_true _ _).mp h
  exact ⟨s', reach_of_run hs, of_decide_eq_true hP⟩

end Transition
