import Mathlib

/-!
# Buffered channels

A channel is the list of the values waiting in it, the oldest first. A send and a receive give `none` where the
goroutine would block, or where a `select` takes its `default`.
-/

namespace Go

structure Chan (α : Type*) (cap : Nat) where
  buf : List α
  length_le : buf.length ≤ cap
  deriving DecidableEq

namespace Chan

variable {α : Type*} {cap : Nat} {c c' : Chan α cap} {a b : α}

def make : Chan α cap := ⟨[], Nat.zero_le _⟩

def trySend (c : Chan α cap) (a : α) : Option (Chan α cap) :=
  if h : c.buf.length < cap then some ⟨c.buf ++ [a], by simp; omega⟩ else none

def tryRecv (c : Chan α cap) : Option (α × Chan α cap) :=
  match hb : c.buf with
  | [] => none
  | a :: as => some (a, ⟨as, by have := c.length_le; simp [hb] at this; omega⟩)

@[simp] theorem make_buf : (make : Chan α cap).buf = [] := rfl

theorem trySend_eq_some (h : c.trySend a = some c') :
    c.buf.length < cap ∧ c'.buf = c.buf ++ [a] := by
  unfold trySend at h
  split at h
  · rename_i hlt
    cases h
    exact ⟨hlt, rfl⟩
  · cases h

theorem trySend_eq_none (h : c.trySend a = none) : cap ≤ c.buf.length := by
  unfold trySend at h
  split at h
  · cases h
  · omega

theorem exists_trySend (h : c.buf.length < cap) : ∃ c', c.trySend a = some c' ∧ c'.buf = c.buf ++ [a] :=
  ⟨_, dif_pos h, rfl⟩

theorem tryRecv_eq_some (h : c.tryRecv = some (a, c')) : c.buf = a :: c'.buf := by
  unfold tryRecv at h
  split at h
  · cases h
  · rename_i hb
    cases h
    exact hb

theorem tryRecv_eq_none (h : c.tryRecv = none) : c.buf = [] := by
  unfold tryRecv at h
  split at h
  · assumption
  · cases h

theorem tryRecv_one {c c' : Chan α 1} (h : c.tryRecv = some (a, c')) : c'.buf = [] := by
  have hle := c.length_le
  rw [tryRecv_eq_some h, List.length_cons] at hle
  exact List.length_eq_zero_iff.mp (by omega)

end Chan

end Go
