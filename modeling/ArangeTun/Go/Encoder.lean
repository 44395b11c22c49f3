import ArangeTun.Go.Reader

/-!
# Writers on top of writers

An `Encoder` says what an encoding writer hands on for each value and, when it is closed, for what it held back. A
`Layer` is such a writer over another one; after the first error it refuses everything, as `bufio`, `compress/gzip`
and `archive/tar` do.
-/

namespace Go

variable {ι ο τ : Type}

def writeAll (write : τ → ο → τ × Option Error) : τ → List ο → τ × Option Error
  | t, [] => (t, none)
  | t, o :: os =>
    match write t o with
    | (t', none) => writeAll write t' os
    | (t', some err) => (t', some err)

section

variable {write : τ → ο → τ × Option Error} {t t' : τ} {os os' : List ο} {err : Error}

theorem writeAll_append_ok (h : writeAll write t os = (t', none)) :
    writeAll write t (os ++ os') = writeAll write t' os' := by
  induction os generalizing t with
  | nil =>
    cases h
    rfl
  | cons o os ih =>
    simp only [writeAll, List.cons_append] at h ⊢
    split at h
    · exact ih h
    · cases h

theorem writeAll_append_error (h : writeAll write t os = (t', some err)) :
    writeAll write t (os ++ os') = (t', some err) := by
  induction os generalizing t with
  | nil => cases h
  | cons o os ih =>
    simp only [writeAll, List.cons_append] at h ⊢
    split at h
    · exact ih h
    · exact h

end

structure Encoder (ι ο : Type) where
  State : Type
  start : State
  push : State → ι → Except Error (State × List ο)
  finish : State → Except Error (List ο)

namespace Encoder

variable (enc : Encoder ι ο)

def pushAll : enc.State → List ι → Except Error (enc.State × List ο)
  | st, [] => .ok (st, [])
  | st, i :: is =>
    match enc.push st i with
    | .error err => .error err
    | .ok (st₁, os₁) =>
      match pushAll st₁ is with
      | .error err => .error err
      | .ok (st₂, os₂) => .ok (st₂, os₁ ++ os₂)

def encode (is : List ι) : Except Error (List ο) :=
  match enc.pushAll enc.start is with
  | .error err => .error err
  | .ok (st, os) => (enc.finish st).map (os ++ ·)

theorem pushAll_append {enc : Encoder ι ο} {st st₁ : enc.State} {is is' : List ι} {os : List ο}
    (h : enc.pushAll st is = .ok (st₁, os)) :
    enc.pushAll st (is ++ is') = (enc.pushAll st₁ is').map fun r => (r.1, os ++ r.2) := by
  induction is generalizing st os with
  | nil =>
    simp only [pushAll, Except.ok.injEq, Prod.mk.injEq] at h
    obtain ⟨rfl, rfl⟩ := h
    cases h' : enc.pushAll st is' <;> simp [Except.map, h']
  | cons i is ih =>
    simp only [pushAll, List.cons_append] at h ⊢
    split at h
    · cases h
    split at h
    · cases h
    rename_i st₂ os₂ h₂
    simp only [Except.ok.injEq, Prod.mk.injEq] at h
    obtain ⟨rfl, rfl⟩ := h
    rw [ih h₂]
    cases enc.pushAll st₂ is' <;> simp [Except.map]

end Encoder

structure Layer (enc : Encoder ι ο) (τ : Type) where
  st : enc.State
  err : Option Error
  below : τ

namespace Layer

variable {enc : Encoder ι ο} (write : τ → ο → τ × Option Error)

def hand (l : Layer enc τ) (out : Except Error (enc.State × List ο)) : Layer enc τ × Option Error :=
  match l.err, out with
  | some err, _ => (l, some err)
  | none, .error err => ({ l with err := some err }, some err)
  | none, .ok (st, os) =>
    let r := writeAll write l.below os
    (⟨st, r.2, r.1⟩, r.2)

def push (l : Layer enc τ) (i : ι) : Layer enc τ × Option Error := l.hand write (enc.push l.st i)

def close (l : Layer enc τ) : Layer enc τ × Option Error :=
  l.hand write ((enc.finish l.st).map (l.st, ·))

variable {write} {l : Layer enc τ} {is : List ι} {st : enc.State} {os : List ο}

theorem push_ok {i : ι} (hl : l.err = none) (h : enc.push l.st i = .ok (st, os)) :
    l.push write i = (⟨st, (writeAll write l.below os).2, (writeAll write l.below os).1⟩,
      (writeAll write l.below os).2) := by
  simp [push, hand, hl, h]

variable (write l) in
/-- Values that the encoder takes have the effect of writing its output below. -/
theorem writeAll_push (hl : l.err = none) (h : enc.pushAll l.st is = .ok (st, os)) :
    ∃ st', writeAll (push write) l is = (⟨st', (writeAll write l.below os).2, (writeAll write l.below os).1⟩,
      (writeAll write l.below os).2) ∧ ((writeAll write l.below os).2 = none → st' = st) := by
  induction is generalizing l os with
  | nil =>
    simp only [Encoder.pushAll, Except.ok.injEq, Prod.mk.injEq] at h
    obtain ⟨rfl, rfl⟩ := h
    refine ⟨l.st, ?_, fun _ => rfl⟩
    simp [writeAll, ← hl]
  | cons i is ih =>
    simp only [Encoder.pushAll] at h
    split at h
    · cases h
    rename_i st₁ os₁ h₁
    split at h
    · cases h
    rename_i st₂ os₂ h₂
    simp only [Except.ok.injEq, Prod.mk.injEq] at h
    obtain ⟨rfl, rfl⟩ := h
    rcases hw : writeAll write l.below os₁ with ⟨t, _ | err⟩
    · obtain ⟨st', hall, hst⟩ := ih (l := ⟨st₁, none, t⟩) rfl h₂
      rw [writeAll_append_ok hw]
      refine ⟨st', ?_, hst⟩
      rw [writeAll, push_ok hl h₁, hw]
      exact hall
    · rw [writeAll_append_error hw]
      refine ⟨st₁, ?_, nofun⟩
      rw [writeAll, push_ok hl h₁, hw]

theorem writeAll_push_error {err : Error} (hl : l.err = none) (h : enc.pushAll l.st is = .error err) :
    (writeAll (push write) l is).2 ≠ none := by
  induction is generalizing l err with
  | nil => cases h
  | cons i is ih =>
    simp only [Encoder.pushAll] at h
    split at h
    · rename_i err' h₁
      simp [writeAll, push, hand, hl, h₁]
    rename_i st₁ os₁ h₁
    split at h
    · rename_i err' h₂
      rcases hw : writeAll write l.below os₁ with ⟨t, _ | err''⟩
      · rw [writeAll, push_ok hl h₁, hw]
        exact ih (l := ⟨st₁, none, t⟩) rfl h₂
      · rw [writeAll, push_ok hl h₁, hw]
        simp
    · cases h

end Layer

/-! ## The writer at the bottom -/

/-- An `io.Writer` whose `Write` calls may fail: `fault i` is the error of the call `i` and how much it accepted. -/
structure Dest where
  fault : Nat → Option (Nat × Error)
  calls : Nat
  accepted : Str
  failed : Bool

namespace Dest

def new (fault : Nat → Option (Nat × Error)) : Dest := ⟨fault, 0, [], false⟩

def write (d : Dest) (b : Str) : Dest × Option Error :=
  match d.fault d.calls with
  | none => ({ d with calls := d.calls + 1, accepted := d.accepted ++ b }, none)
  | some (n, err) =>
    ({ d with calls := d.calls + 1, accepted := d.accepted ++ b.take n, failed := true }, some err)

variable {d : Dest} {bs : List Str}

theorem writeAll_ok (h : ∀ k < bs.length, d.fault (d.calls + k) = none) :
    writeAll write d bs =
      ({ d with calls := d.calls + bs.length, accepted := d.accepted ++ bs.flatten }, none) := by
  induction bs generalizing d with
  | nil => simp [writeAll]
  | cons b bs ih =>
    have h₀ : d.fault d.calls = none := h 0 (by simp)
    have hrest := ih (d := { d with calls := d.calls + 1, accepted := d.accepted ++ b }) fun k hk => by
      simpa [Nat.add_assoc, Nat.add_comm 1] using h (k + 1) (by simpa using hk)
    simp only [writeAll, write, h₀, hrest]
    simp [Nat.add_assoc, Nat.add_comm 1]

theorem writeAll_failed (h : ∃ k < bs.length, d.fault (d.calls + k) ≠ none) :
    (writeAll write d bs).2 ≠ none ∧ (writeAll write d bs).1.failed = true := by
  induction bs generalizing d with
  | nil => simp at h
  | cons b bs ih =>
    obtain ⟨k, hk, hfault⟩ := h
    rcases h₀ : d.fault d.calls with _ | ⟨n, err⟩
    · rw [writeAll, write, h₀]
      cases k with
      | zero => exact absurd h₀ hfault
      | succ k =>
        exact ih ⟨k, by simpa using hk, by simpa [Nat.add_assoc, Nat.add_comm 1] using hfault⟩
    · simp [writeAll, write, h₀]

theorem writeAll_new_iff (fault : Nat → Option (Nat × Error)) (bs : List Str) :
    ((writeAll write (new fault) bs).1.failed = false ∧ (writeAll write (new fault) bs).1.accepted = bs.flatten) ↔
      ∀ k < bs.length, fault k = none := by
  constructor
  · intro h k hk
    by_contra hfault
    have hfailed := (writeAll_failed (d := new fault) ⟨k, hk, by simpa [new] using hfault⟩).2
    simp [hfailed] at h
  · intro h
    rw [writeAll_ok (d := new fault) (by simpa [new] using h)]
    simp [new]

end Dest
end Go
