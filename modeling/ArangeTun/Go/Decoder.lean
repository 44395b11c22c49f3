import ArangeTun.Go.Check
import ArangeTun.Go.Reader

/-!
# Decoders

A decoder reads fixed numbers of bytes with `io.ReadFull` and returns the error of the first that fails. Over a
connection that delivers its bytes in chunks it does what it does over the bytes put together.
-/

namespace Go

open List

inductive Decoder (α : Type)
  | ret (a : α)
  | fail (err : Error)
  | readFull (n : Nat) (k : Str → Decoder α)

namespace Decoder

variable {α β σ τ : Type}

def bind : Decoder α → (α → Decoder β) → Decoder β
  | ret a, f => f a
  | fail err, _ => fail err
  | readFull n k, f => readFull n fun b => (k b).bind f

instance : Monad Decoder where
  pure := ret
  bind := bind

def take (n : Nat) : Decoder Str := .readFull n .ret

def run (full : σ → Nat → Except Error (Str × σ)) : Decoder α → σ → Except Error (α × σ)
  | ret a, s => .ok (a, s)
  | fail err, _ => .error err
  | readFull n k, s =>
    match full s n with
    | .error err => .error err
    | .ok (b, s) => (k b).run full s

def all : List (Decoder α) → Decoder (List α)
  | [] => ret []
  | d :: ds => d.bind fun a => (all ds).bind fun as => ret (a :: as)

variable {full : σ → Nat → Except Error (Str × σ)} {full' : τ → Nat → Except Error (Str × τ)}

theorem run_bind (d : Decoder α) (f : α → Decoder β) (s : σ) :
    (d.bind f).run full s = (d.run full s).bind fun r => (f r.1).run full r.2 := by
  induction d generalizing s with
  | ret a => rfl
  | fail err => rfl
  | readFull n k ih =>
    simp only [bind, run]
    cases full s n with
    | error err => rfl
    | ok r => exact ih r.1 r.2

theorem run_map {f : σ → τ} (h : ∀ s n, full' (f s) n = (full s n).map fun r => (r.1, f r.2)) (d : Decoder α) (s : σ) :
    d.run full' (f s) = (d.run full s).map fun r => (r.1, f r.2) := by
  induction d generalizing s with
  | ret a => rfl
  | fail err => rfl
  | readFull n k ih =>
    simp only [run, h]
    cases full s n with
    | error err => rfl
    | ok r => exact ih r.1 r.2

end Decoder

/-! ## What a decoder makes of bytes -/

section

variable {α β : Type}

/-- The decoder takes the bytes for the value, with anything after them. -/
def Decodes (d : Decoder α) (bytes : Str) (a : α) : Prop :=
  ∀ rest ending, d.run readFull ⟨bytes ++ rest, ending⟩ = .ok (a, ⟨rest, ending⟩)

theorem Decodes.ret (a : α) : Decodes (.ret a) [] a := fun _ _ => rfl

theorem Decodes.take (b : Str) : Decodes (.take b.length) b b := by
  intro rest ending
  simp only [Decoder.take, Decoder.run]
  rw [readFull_of_le (by simp), take_left, drop_left]

theorem Decodes.bind {d : Decoder α} {f : α → Decoder β} {u v : Str} {a : α} {b : β} (hd : Decodes d u a)
    (hf : Decodes (f a) v b) : Decodes (d.bind f) (u ++ v) b := by
  intro rest ending
  rw [Decoder.run_bind, append_assoc, hd]
  exact hf rest ending

theorem Decodes.map {d : Decoder α} {u : Str} {a : α} {b : β} {f : α → β} (hd : Decodes d u a) (hf : f a = b) :
    Decodes (d.bind fun a => .ret (f a)) u b := by
  subst hf
  rw [← append_nil u]
  exact hd.bind (.ret (f a))

theorem Decodes.cons {d : Decoder α} {ds : List (Decoder α)} {u v : Str} {a : α} {as : List α} (hd : Decodes d u a)
    (hds : Decodes (.all ds) v as) : Decodes (.all (d :: ds)) (u ++ v) (a :: as) := by
  rw [← append_nil v]
  exact hd.bind (hds.bind (.ret (a :: as)))

theorem Decodes.all {reader : α → Decoder α} {bytes : α → Str} {as : List α}
    (h : ∀ a ∈ as, Decodes (reader a) (bytes a) a) : Decodes (.all (as.map reader)) (as.flatMap bytes) as := by
  induction as with
  | nil => exact .ret []
  | cons a as ih =>
    rw [forall_mem_cons] at h
    exact h.1.cons (ih h.2)

/-- What is written of the value, when no error is returned, is what the decoder takes for it. -/
def Writes (write : Sink → Except Error Sink) (d : Decoder α) (a : α) : Prop :=
  ∀ w w', write w = .ok w' → ∃ bytes, w'.bytes = w.bytes ++ bytes ∧ Decodes d bytes a

theorem Writes.all {write : Sink → α → Except Error Sink} {reader : α → Decoder α}
    (h : ∀ a, Writes (write · a) (reader a) a) (as : List α) :
    Writes (as.foldlM write) (.all (as.map reader)) as := by
  induction as with
  | nil =>
    intro w w' hw
    cases hw
    exact ⟨[], by simp, .ret []⟩
  | cons a as ih =>
    intro w w' hw
    simp only [foldlM_cons] at hw
    obtain ⟨w₁, hw₁, hrest⟩ := bind_eq_ok.mp hw
    obtain ⟨u, hu, hda⟩ := h a w w₁ hw₁
    obtain ⟨v, hv, hdas⟩ := ih w₁ w' hrest
    exact ⟨u ++ v, by rw [hv, hu, append_assoc], hda.cons hdas⟩

end

/-! ## Chunks -/

/-- A connection that delivers its bytes in chunks: a `Read` returns at most the next one. -/
structure Chunked where
  chunks : List Str
  ending : Error

/-- The `Read`s of an `io.ReadFull`, until `n` bytes are there or the connection has no more. -/
def gather : Nat → List Str → Str × List Str
  | _, [] => ([], [])
  | n, c :: cs =>
    if n ≤ c.length then (c.take n, c.drop n :: cs)
    else
      let r := gather (n - c.length) cs
      (c ++ r.1, r.2)

namespace Chunked

def readFull (s : Chunked) (n : Nat) : Except Error (Str × Chunked) :=
  let r := gather n s.chunks
  if r.1.length = n then .ok (r.1, ⟨r.2, s.ending⟩)
  else .error (if r.1 ≠ [] ∧ s.ending = .eof then .unexpectedEOF else s.ending)

def joined (s : Chunked) : Stream := ⟨s.chunks.flatten, s.ending⟩

theorem gather_eq (n : Nat) (cs : List Str) :
    (gather n cs).1 = cs.flatten.take n ∧ (gather n cs).2.flatten = cs.flatten.drop n := by
  induction cs generalizing n with
  | nil => simp [gather]
  | cons c cs ih =>
    rw [gather]
    split
    next hle => simp [take_append_of_le_length hle, drop_append_of_le_length hle]
    next hlt =>
      have hle : c.length ≤ n := by omega
      obtain ⟨htake, hdrop⟩ := ih (n - c.length)
      simp only [htake, hdrop, flatten_cons, take_append, drop_append,
        take_of_length_le hle, drop_eq_nil_of_le hle, nil_append, and_self]

theorem readFull_joined (s : Chunked) (n : Nat) :
    Go.readFull s.joined n = (s.readFull n).map fun r => (r.1, r.2.joined) := by
  obtain ⟨chunks, ending⟩ := s
  obtain ⟨htake, hdrop⟩ := gather_eq n chunks
  change Go.readFull ⟨chunks.flatten, ending⟩ n = _
  unfold readFull
  simp only [htake, length_take]
  by_cases hle : n ≤ chunks.flatten.length
  · rw [readFull_of_le hle, if_pos (Nat.min_eq_left hle)]
    simp only [Except.map, joined, hdrop]
  · have hall : chunks.flatten.take n = chunks.flatten := take_of_length_le (by omega)
    rw [if_neg (by omega), hall]
    exact if_neg hle

theorem run_of_decodes {α : Type} {d : Decoder α} {bytes rest : Str} {a : α} {s : Chunked} (h : Decodes d bytes a)
    (hs : s.chunks.flatten = bytes ++ rest) :
    ∃ s', d.run readFull s = .ok (a, s') ∧ s'.chunks.flatten = rest ∧ s'.ending = s.ending := by
  have hrun := @Decoder.run_map α Chunked Stream readFull Go.readFull joined readFull_joined d s
  rw [joined, hs, h] at hrun
  cases hd : d.run readFull s with
  | error err =>
    rw [hd] at hrun
    cases hrun
  | ok r =>
    rw [hd] at hrun
    simp only [Except.map, Except.ok.injEq, Prod.mk.injEq, joined, Stream.mk.injEq] at hrun
    obtain ⟨ha, hrest, hending⟩ := hrun
    exact ⟨r.2, by rw [ha], hrest.symm, hending.symm⟩

end Chunked

end Go
