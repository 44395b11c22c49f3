import ArangeTun.Transition.Run
import ArangeTun.Transition.Table

/-!
# Threads over a shared state

A request makes a new thread, a thread moves on by one step over the shared state, and the surroundings change the
shared state by themselves. What is not decided by the program comes with the action. An invariant has a part for the
shared state and a part for each thread.
-/

namespace Transition

structure Threads (σ π : Type*) where
  shared : σ
  threads : List π

/-- Actions: a request `ρ`, a step of a thread with what comes from outside `ι`, a change of the surroundings `ε`. -/
inductive Act (ρ ι ε : Type*)
  | enter (r : ρ)
  | move (i : Nat) (x : ι)
  | env (e : ε)

structure Program (σ π ρ ι ε : Type*) where
  enter : σ → Nat → ρ → Option (σ × π)
  move : σ → Nat → π → ι → Option (σ × π)
  env : σ → ε → Option σ

namespace Program

variable {σ π ρ ι ε : Type*} (P : Program σ π ρ ι ε)

def step (s : Threads σ π) : Act ρ ι ε → Option (Threads σ π)
  | .enter r => (P.enter s.shared s.threads.length r).map fun x => ⟨x.1, s.threads ++ [x.2]⟩
  | .move i x => s.threads[i]?.bind fun p =>
    (P.move s.shared i p x).map fun y => ⟨y.1, s.threads.set i y.2⟩
  | .env e => (P.env s.shared e).map fun sh => ⟨sh, s.threads⟩

variable {P} {C : Threads σ π → Act ρ ι ε → Prop} {s₀ s : Threads σ π} {J : σ → Prop} {I : σ → Nat → π → Prop}

structure Holds (J : σ → Prop) (I : σ → Nat → π → Prop) (s : Threads σ π) : Prop where
  shared : J s.shared
  thread : ∀ i p, s.threads[i]? = some p → I s.shared i p

theorem invariant (h : Reach P.step C s₀ s) (h₀ : Holds J I s₀)
    (henter : ∀ s r sh p, Holds J I s → C s (.enter r) → P.enter s.shared s.threads.length r = some (sh, p) →
      J sh ∧ I sh s.threads.length p ∧ ∀ j q, s.threads[j]? = some q → I s.shared j q → I sh j q)
    (hmove : ∀ s i p x sh p', Holds J I s → C s (.move i x) → s.threads[i]? = some p → I s.shared i p →
      P.move s.shared i p x = some (sh, p') →
      J sh ∧ I sh i p' ∧ ∀ j q, j ≠ i → s.threads[j]? = some q → I s.shared j q → I sh j q)
    (henv : ∀ s e sh, Holds J I s → C s (.env e) → P.env s.shared e = some sh →
      J sh ∧ ∀ j q, s.threads[j]? = some q → I s.shared j q → I sh j q) : Holds J I s := by
  refine h.invariant h₀ fun s a s' hs hc hstep => ?_
  cases a with
  | enter r =>
    obtain ⟨⟨sh, p⟩, hp, rfl⟩ := Option.map_eq_some_iff.mp hstep
    obtain ⟨hJ, hI, hothers⟩ := henter s r sh p hs hc hp
    exact ⟨hJ, forall_concat (fun j q hq => hothers j q hq (hs.thread j q hq)) hI⟩
  | move i x =>
    obtain ⟨p, hp, hstep⟩ := Option.bind_eq_some_iff.mp hstep
    obtain ⟨⟨sh, p'⟩, hp', rfl⟩ := Option.map_eq_some_iff.mp hstep
    obtain ⟨hJ, hI, hothers⟩ := hmove s i p x sh p' hs hc hp (hs.thread i p hp) hp'
    refine ⟨hJ, fun j q hq => ?_⟩
    rcases getElem?_set_cases hq with ⟨rfl, rfl⟩ | ⟨hne, hq⟩
    · exact hI
    · exact hothers j q (Ne.symm hne) hq (hs.thread j q hq)
  | env e =>
    obtain ⟨sh, hsh, rfl⟩ := Option.map_eq_some_iff.mp hstep
    obtain ⟨hJ, hothers⟩ := henv s e sh hs hc hsh
    exact ⟨hJ, fun j q hq => hothers j q hq (hs.thread j q hq)⟩

end Program

end Transition
