import Mathlib

/-!
# Checks

A function that ends at the first requirement which is not met, with an error that names it.
-/

namespace Go

variable {ε α : Type*} {β : Type} {c : Prop} [Decidable c] {err : ε}

def require (c : Prop) [Decidable c] (err : ε) : Except ε Unit := if c then .ok () else .error err

@[simp] theorem require_eq_ok : require c err = .ok () ↔ c := by
  unfold require
  split <;> simp_all

@[simp] theorem check_bind_eq_ok {x : Except ε Unit} {f : Unit → Except ε β} {b : β} :
    (x >>= f) = .ok b ↔ x = .ok () ∧ f () = .ok b := by
  cases x with
  | error e => simp [bind, Except.bind]
  | ok u => simp [bind, Except.bind]

theorem bind_eq_ok {δ : Type} {x : Except ε δ} {f : δ → Except ε β} {b : β} :
    (x >>= f) = .ok b ↔ ∃ a, x = .ok a ∧ f a = .ok b := by
  cases x with
  | error e => simp [bind, Except.bind]
  | ok a => simp [bind, Except.bind]

@[simp] theorem check_forM_eq_ok {xs : List α} {f : α → Except ε Unit} :
    forM xs f = .ok () ↔ ∀ x ∈ xs, f x = .ok () := by
  induction xs with
  | nil => simp [pure, Except.pure]
  | cons x xs ih =>
    rw [List.forM_cons, check_bind_eq_ok, ih]
    simp

theorem check_if_eq_ok {x : Except ε Unit} : (if c then x else .ok ()) = .ok () ↔ (c → x = .ok ()) := by
  split <;> simp_all

def Passes (r : Except ε α) : Prop := ∃ a, r = .ok a

@[simp] theorem passes_ok {a : α} : Passes (.ok a : Except ε α) := ⟨a, rfl⟩

@[simp] theorem passes_pure {a : α} : Passes (pure a : Except ε α) := ⟨a, rfl⟩

@[simp] theorem not_passes_error : ¬ Passes (.error err : Except ε α) := fun ⟨_, h⟩ => nomatch h

theorem passes_check_bind {x : Except ε Unit} {f : Unit → Except ε β} : Passes (x >>= f) ↔ x = .ok () ∧ Passes (f ()) := by
  simp only [Passes, check_bind_eq_ok, exists_and_left]

theorem passes_bind {δ : Type} {x : Except ε δ} {f : δ → Except ε β} :
    Passes (x >>= f) ↔ ∃ a, x = .ok a ∧ Passes (f a) := by
  simp only [Passes, bind_eq_ok]
  constructor
  · rintro ⟨b, a, hx, hf⟩
    exact ⟨a, hx, b, hf⟩
  · rintro ⟨a, hx, b, hf⟩
    exact ⟨b, a, hx, hf⟩

theorem passes_bind_pure {δ : Type} {x : Except ε δ} {f : δ → β} : Passes (x >>= fun a => pure (f a)) ↔ Passes x := by
  simp only [passes_bind, passes_pure, and_true]
  rfl

end Go
