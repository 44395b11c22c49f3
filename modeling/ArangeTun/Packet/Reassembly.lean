import Mathlib

/-! # Reassembly -/

namespace ArangeTun.Packet

open List Option

structure Piece (α : Type) where
  off : Nat
  data : List α
  more : Bool

section

variable {α : Type}

def elementAt (ps : List (Piece α)) (i : Nat) : Option α :=
  ps.findSome? fun p => if p.off ≤ i then p.data[i - p.off]? else none

def reassemble (ps : List (Piece α)) : Option (List α) := do
  let last ← ps.find? fun p => !p.more
  (List.range (last.off + last.data.length)).mapM (elementAt ps)

theorem exists_last_of_reassemble {ps : List (Piece α)} {whole : List α} (h : reassemble ps = some whole) :
    ∃ p ∈ ps, p.more = false := by
  obtain ⟨last, hlast, -⟩ := bind_eq_some_iff.mp h
  exact ⟨last, mem_of_find?_eq_some hlast, by simpa using find?_some hlast⟩

structure Tiles (ps : List (Piece α)) (whole : List α) : Prop where
  part : ∀ p ∈ ps, ∀ i, i < p.data.length → p.data[i]? = whole[p.off + i]?
  last : ∀ p ∈ ps, p.more = false → p.off + p.data.length = whole.length
  ends : ∃ p ∈ ps, p.more = false
  covers : ∀ i, i < whole.length → ∃ p ∈ ps, p.off ≤ i ∧ i < p.off + p.data.length

variable {ps qs : List (Piece α)} {whole : List α}

theorem Tiles.of_mem_iff (h : Tiles ps whole) (hmem : ∀ p, p ∈ qs ↔ p ∈ ps) : Tiles qs whole := by
  refine ⟨fun p hp => h.part p ((hmem p).mp hp), fun p hp => h.last p ((hmem p).mp hp), ?_, fun i hi => ?_⟩
  · obtain ⟨p, hp, hmore⟩ := h.ends
    exact ⟨p, (hmem p).mpr hp, hmore⟩
  · obtain ⟨p, hp, hin⟩ := h.covers i hi
    exact ⟨p, (hmem p).mpr hp, hin⟩

theorem Tiles.elementAt_eq (h : Tiles ps whole) {i : Nat} (hi : i < whole.length) :
    elementAt ps i = whole[i]? := by
  cases hfound : elementAt ps i with
  | none =>
    exfalso
    obtain ⟨p, hp, hle, hlt⟩ := h.covers i hi
    have hnone := findSome?_eq_none_iff.mp hfound p hp
    rw [if_pos hle, List.getElem?_eq_none_iff] at hnone
    omega
  | some a =>
    obtain ⟨p, hp, hpa⟩ := exists_of_findSome?_eq_some hfound
    split at hpa
    · rename_i hle
      have hlt : i - p.off < p.data.length := (List.getElem?_eq_some_iff.mp hpa).1
      rw [h.part p hp _ hlt, Nat.add_sub_cancel' hle] at hpa
      exact hpa.symm
    · cases hpa

theorem mapM_range_length (f : Nat → Option α) (h : ∀ i, i < whole.length → f i = whole[i]?) :
    (List.range whole.length).mapM f = some whole := by
  induction whole generalizing f with
  | nil => rfl
  | cons a as ih =>
    have htail : (List.range as.length).mapM (f ∘ Nat.succ) = some as := by
      apply ih
      intro i hi
      rw [Function.comp, h (i + 1) (Nat.succ_lt_succ hi), getElem?_cons_succ]
    rw [length_cons, range_succ_eq_map, mapM_cons, h 0 (Nat.succ_pos _), mapM_map, htail]
    rfl

theorem Tiles.reassemble_eq (h : Tiles ps whole) : reassemble ps = some whole := by
  obtain ⟨p, hp, hmore⟩ := h.ends
  obtain ⟨last, hlast⟩ : ∃ last, ps.find? (fun p => !p.more) = some last := by
    rw [← isSome_iff_exists, find?_isSome]
    exact ⟨p, hp, by simp [hmore]⟩
  have hlen : last.off + last.data.length = whole.length := by
    apply h.last last (mem_of_find?_eq_some hlast)
    simpa using find?_some hlast
  have hall : (List.range whole.length).mapM (elementAt ps) = some whole :=
    mapM_range_length _ fun _ hi => h.elementAt_eq hi
  simp only [reassemble, hlast, hlen, bind_eq_bind, bind_some, hall]

end

end ArangeTun.Packet
