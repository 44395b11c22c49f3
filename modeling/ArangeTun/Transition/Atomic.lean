import ArangeTun.Transition.Threads

/-!
# Calls made of atomic operations

A call is a tree of operations on the shared memory. Beside the memory stands what the calls returned, in the order of
their last operations.
-/

namespace Transition

variable {ω σ κ α : Type} {ρ : ω → Type}

inductive Code (ω : Type) (ρ : ω → Type) (α : Type)
  | ret (a : α)
  | op (o : ω) (k : ρ o → Code ω ρ α)

namespace Code

def returned : Code ω ρ α → Bool
  | ret _ => true
  | op _ _ => false

def run (exec : σ → (o : ω) → σ × ρ o) : Code ω ρ α → σ → σ × α
  | ret a, m => (m, a)
  | op o k, m => (k (exec m o).2).run exec (exec m o).1

/-- What holds of every operation that the code can come to. -/
def Only (P : ω → Prop) : Code ω ρ α → Prop
  | ret _ => True
  | op o k => P o ∧ ∀ r, (k r).Only P

theorem Only.mono {P Q : ω → Prop} {p : Code ω ρ α} (h : p.Only P) (hPQ : ∀ o, P o → Q o) : p.Only Q := by
  induction p with
  | ret a => trivial
  | op o k ih => exact ⟨hPQ o h.1, fun r => ih r (h.2 r)⟩

theorem only_true (p : Code ω ρ α) : p.Only fun _ => True := by
  induction p with
  | ret a => trivial
  | op o k ih => exact ⟨trivial, ih⟩

end Code

structure Shared (σ κ α : Type) where
  memory : σ
  returns : List (κ × α)

def Shared.note (sh : Shared σ κ α) (c : κ) : Code ω ρ α → Shared σ κ α
  | .ret a => { sh with returns := sh.returns ++ [(c, a)] }
  | .op _ _ => sh

theorem Shared.note_memory (sh : Shared σ κ α) (c : κ) (p : Code ω ρ α) : (sh.note c p).memory = sh.memory := by
  cases p <;> rfl

theorem Shared.note_of_running {p : Code ω ρ α} (h : p.returned = false) (sh : Shared σ κ α) (c : κ) :
    sh.note c p = sh := by
  cases p with
  | ret a => cases h
  | op o k => rfl

/-- A call `c` runs `code c`, operation by operation. -/
def interleaved (exec : σ → (o : ω) → σ × ρ o) (code : κ → Code ω ρ α) :
    Program (Shared σ κ α) (κ × Code ω ρ α) κ Unit Empty where
  enter sh _ c := some (sh.note c (code c), (c, code c))
  move sh _ p _ :=
    match p.2 with
    | .ret _ => none
    | .op o k =>
      let r := exec sh.memory o
      some (Shared.note { sh with memory := r.1 } p.1 (k r.2), (p.1, k r.2))
  env _ e := nomatch e

namespace interleaved

variable {exec : σ → (o : ω) → σ × ρ o} {code : κ → Code ω ρ α}
variable {C : Threads (Shared σ κ α) (κ × Code ω ρ α) → Act κ Unit Empty → Prop}
variable {s₀ s s' : Threads (Shared σ κ α) (κ × Code ω ρ α)}

theorem move_cases {i : Nat} (h : (interleaved exec code).step s (.move i ()) = some s') :
    ∃ c o k, s.threads[i]? = some (c, .op o k) ∧
      s' = ⟨Shared.note { s.shared with memory := (exec s.shared.memory o).1 } c (k (exec s.shared.memory o).2),
        s.threads.set i (c, k (exec s.shared.memory o).2)⟩ := by
  obtain ⟨⟨c, p⟩, hp, hstep⟩ := Option.bind_eq_some_iff.mp h
  cases p with
  | ret a => cases hstep
  | op o k =>
    cases hstep
    exact ⟨c, o, k, hp, rfl⟩

/-- A call under way that goes on by itself returns. -/
theorem returns_alone {i : Nat} {c : κ} {p : Code ω ρ α} (hi : s.threads[i]? = some (c, p)) (hp : p.returned = false) :
    ∃ n s', run (interleaved exec code).step s (List.replicate n (.move i ())) = some s' ∧
      s'.shared.returns = s.shared.returns ++ [(c, (p.run exec s.shared.memory).2)] := by
  induction p generalizing s with
  | ret a => cases hp
  | op o k ih =>
    obtain ⟨s₁, hstep, hs₁⟩ : ∃ s₁, (interleaved exec code).step s (.move i ()) = some s₁ ∧
        s₁ = ⟨Shared.note { s.shared with memory := (exec s.shared.memory o).1 } c (k (exec s.shared.memory o).2),
          s.threads.set i (c, k (exec s.shared.memory o).2)⟩ := by
      simp [Program.step, interleaved, hi]
    cases hk : k (exec s.shared.memory o).2 with
    | ret a =>
      refine ⟨1, s₁, by simp [run, hstep], ?_⟩
      simp [hs₁, hk, Shared.note, Code.run]
    | op o' k' =>
      have hnext : s₁.threads[i]? = some (c, k (exec s.shared.memory o).2) := by
        obtain ⟨hlt, -⟩ := List.getElem?_eq_some_iff.mp hi
        simp [hs₁, hlt]
      obtain ⟨n, s', hrun, hret⟩ := ih _ hnext (by rw [hk]; rfl)
      refine ⟨n + 1, s', ?_, ?_⟩
      · rw [List.replicate_succ, run, hstep]
        exact hrun
      · rw [hret, hs₁, Shared.note_memory, Shared.note_of_running (by rw [hk]; rfl)]
        rfl

/-! ## Invariants of the memory -/

/-- Whenever the code comes to an operation and the invariant holds, the operation keeps it. -/
def Safe (exec : σ → (o : ω) → σ × ρ o) (J : Shared σ κ α → Prop) (c : κ) : Code ω ρ α → Prop
  | .ret _ => True
  | .op o k => ∀ sh, J sh →
      J (Shared.note { sh with memory := (exec sh.memory o).1 } c (k (exec sh.memory o).2)) ∧
        Safe exec J c (k (exec sh.memory o).2)

theorem invariant {J : Shared σ κ α → Prop} (h : Reach (interleaved exec code).step C s₀ s) (h₀ : J s₀.shared)
    (hnone : s₀.threads = []) (hcode : ∀ c, Safe exec J c (code c)) (henter : ∀ c sh, J sh → J (sh.note c (code c))) :
    J s.shared := by
  refine (Program.invariant (J := J) (I := fun _ _ p => Safe exec J p.1 p.2) h ⟨h₀, ?_⟩ ?_ ?_ ?_).shared
  · intro i p hp
    rw [hnone] at hp
    cases hp
  · intro s c sh p hs _ hent
    cases hent
    exact ⟨henter c _ hs.shared, hcode c, fun _ _ _ hq => hq⟩
  · rintro s i ⟨c, p⟩ x sh p' hs - - hsafe hmove
    cases p with
    | ret a => cases hmove
    | op o k =>
      cases hmove
      obtain ⟨hJ, hnext⟩ := hsafe s.shared hs.shared
      exact ⟨hJ, hnext, fun _ _ _ _ hq => hq⟩
  · intro s e
    cases e

theorem thread_only {P : κ → ω → Prop} (h : Reach (interleaved exec code).step C s₀ s) (hnone : s₀.threads = [])
    (hcode : ∀ c, (code c).Only (P c)) {i : Nat} {c : κ} {p : Code ω ρ α} (hi : s.threads[i]? = some (c, p)) :
    p.Only (P c) := by
  refine (Program.invariant (J := fun _ => True) (I := fun _ _ p => p.2.Only (P p.1)) h ⟨trivial, ?_⟩ ?_ ?_ ?_).thread
    i _ hi
  · intro i p hp
    rw [hnone] at hp
    cases hp
  · intro s c sh p _ _ hent
    cases hent
    exact ⟨trivial, hcode c, fun _ _ _ hq => hq⟩
  · rintro s i ⟨c, p⟩ x sh p' - - - honly hmove
    cases p with
    | ret a => cases hmove
    | op o k =>
      cases hmove
      exact ⟨trivial, honly.2 _, fun _ _ _ _ hq => hq⟩
  · intro s e
    cases e

theorem note_length (sh : Shared σ κ α) (c : κ) (p : Code ω ρ α) :
    (sh.note c p).returns.length = sh.returns.length + if p.returned = true then 1 else 0 := by
  cases p with
  | ret a => exact List.length_append
  | op o k => rfl

theorem returns_length_le (h : Reach (interleaved exec code).step C s₀ s) (h₀ : s₀.shared.returns = [])
    (hnone : s₀.threads = []) : s.shared.returns.length ≤ s.threads.length := by
  suffices hcount : s.shared.returns.length = s.threads.countP fun p => p.2.returned from
    hcount ▸ List.countP_le_length
  refine h.invariant (I := fun s => s.shared.returns.length = s.threads.countP fun p => p.2.returned) ?_ ?_
  · rw [h₀, hnone]
    rfl
  · intro s a s' hs _ hstep
    cases a with
    | enter c =>
      cases hstep
      rw [note_length, hs, List.countP_append, List.countP_singleton]
    | move i x =>
      obtain ⟨c, o, k, hi, rfl⟩ := move_cases hstep
      obtain ⟨hlt, hget⟩ := List.getElem?_eq_some_iff.mp hi
      rw [note_length, hs, List.countP_set hlt, hget]
      rfl
    | env e => cases e

end interleaved

end Transition
