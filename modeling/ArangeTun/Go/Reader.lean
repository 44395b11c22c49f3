import ArangeTun.Go.Str

/-!
# Errors, reading and writing

A connection that is read from is the bytes it will still deliver and the error after them. One that is written to is
the bytes it took so far, and the error of a `Write` once it fails.
-/

namespace Go

open List

inductive Error
  | eof
  | unexpectedEOF
  | net (timeout : Bool)
  | other (text : Str)
  | wrapped (text : Str) (err : Error)
  deriving DecidableEq

/-- The type assertion `err.(net.Error)`, and what `Timeout()` says. -/
def Error.asNetError : Error → Option Bool
  | .net timeout => some timeout
  | _ => none

/-- The end of the chain of `errors.Unwrap`. -/
def Error.cause : Error → Error
  | .wrapped _ err => err.cause
  | err => err

structure Stream where
  bytes : Str
  ending : Error
  deriving DecidableEq

def readFull (s : Stream) (n : Nat) : Except Error (Str × Stream) :=
  if n ≤ s.bytes.length then .ok (s.bytes.take n, { s with bytes := s.bytes.drop n })
  else .error (if s.bytes ≠ [] ∧ s.ending = .eof then .unexpectedEOF else s.ending)

theorem readFull_of_le {s : Stream} {n : Nat} (h : n ≤ s.bytes.length) :
    readFull s n = .ok (s.bytes.take n, { s with bytes := s.bytes.drop n }) := if_pos h

theorem readFull_of_lt {s : Stream} {n : Nat} (h : s.bytes.length < n) :
    ∃ e, readFull s n = .error e ∧ (e.cause = .net true ↔ s.ending.cause = .net true) := by
  refine ⟨_, if_neg (by omega), ?_⟩
  split
  · rename_i he
    simp [he.2, Error.cause]
  · exact Iff.rfl

structure Sink where
  bytes : Str
  failing : Option Error
  deriving DecidableEq

def Sink.write (s : Sink) (buf : Str) : Except Error Sink :=
  match s.failing with
  | some err => .error err
  | none => .ok { s with bytes := s.bytes ++ buf }

def readMany {α : Type} (read : Stream → Except Error (α × Stream)) : Nat → Stream → Except Error (List α × Stream)
  | 0, s => .ok ([], s)
  | n + 1, s =>
    match read s with
    | .error err => .error err
    | .ok (a, s) => (readMany read n s).map fun r => (a :: r.1, r.2)

section

variable {α : Type} {read : Stream → Except Error (α × Stream)} {frame : α → Str}

theorem readMany_flatMap {ending : Error} (as : List α)
    (h : ∀ a ∈ as, ∀ rest, read ⟨frame a ++ rest, ending⟩ = .ok (a, ⟨rest, ending⟩)) :
    readMany read as.length ⟨as.flatMap frame, ending⟩ = .ok (as, ⟨[], ending⟩) := by
  induction as with
  | nil => rfl
  | cons a as ih =>
    rw [flatMap_cons, length_cons, readMany, h a (mem_cons_self ..)]
    simp only [ih fun b hb => h b (mem_cons_of_mem _ hb), Except.map]

theorem readMany_head {a : α} {as : List α} {s t : Stream} (h : readMany read (a :: as).length s = .ok (a :: as, t)) :
    ∃ s', read s = .ok (a, s') ∧ readMany read as.length s' = .ok (as, t) := by
  rw [length_cons, readMany] at h
  cases hr : read s with
  | error err =>
    rw [hr] at h
    cases h
  | ok r =>
    obtain ⟨b, s'⟩ := r
    rw [hr] at h
    cases hm : readMany read as.length s' with
    | error err =>
      simp only [hm, Except.map] at h
      cases h
    | ok q =>
      obtain ⟨bs, t'⟩ := q
      simp only [hm, Except.map, Except.ok.injEq, Prod.mk.injEq, List.cons.injEq] at h
      obtain ⟨⟨rfl, rfl⟩, rfl⟩ := h
      exact ⟨s', rfl, hm⟩

theorem readMany_flatMap_iff {ending : Error} {Fits : α → Prop} (as : List α)
    (hread : ∀ a rest, Fits a → read ⟨frame a ++ rest, ending⟩ = .ok (a, ⟨rest, ending⟩))
    (hfits : ∀ a rest s', read ⟨frame a ++ rest, ending⟩ = .ok (a, s') → Fits a) :
    readMany read as.length ⟨as.flatMap frame, ending⟩ = .ok (as, ⟨[], ending⟩) ↔ ∀ a ∈ as, Fits a := by
  constructor
  · intro h
    induction as with
    | nil => simp
    | cons a as ih =>
      obtain ⟨s', hr, hrest⟩ := readMany_head h
      rw [flatMap_cons] at hr
      have ha : Fits a := hfits a _ s' hr
      rw [hread a _ ha] at hr
      cases hr
      exact forall_mem_cons.mpr ⟨ha, ih hrest⟩
  · intro h
    exact readMany_flatMap as fun a ha rest => hread a rest (h a ha)

end

theorem foldlM_write {α : Type} {send : Sink → α → Except Error Sink} {frame : α → Str}
    (h : ∀ (bytes : Str) (a : α), send ⟨bytes, none⟩ a = .ok ⟨bytes ++ frame a, none⟩) (bytes : Str) (as : List α) :
    as.foldlM send ⟨bytes, none⟩ = .ok ⟨bytes ++ as.flatMap frame, none⟩ := by
  induction as generalizing bytes with
  | nil => simp [pure, Except.pure]
  | cons a as ih =>
    rw [foldlM_cons, h]
    show as.foldlM send ⟨bytes ++ frame a, none⟩ = _
    rw [ih, flatMap_cons, append_assoc]

end Go
