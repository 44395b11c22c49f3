import Mathlib

/-!
# Cursors

A counter that only goes up names the places of a ring of `n` by its remainder. A search starts at the counter, passes
over the places that do not qualify, and leaves the counter behind the place it takes.
-/

namespace Transition.Cursor

open List

/-! ## A search -/

section

variable {q : Nat → Bool} {m l c j : Nat}

/-- Where a search that may pass over `m` places stops. -/
def seek (q : Nat → Bool) : Nat → Nat → Nat
  | 0, c => c
  | m + 1, c => if q c = true then c else seek q m (c + 1)

def places (q : Nat → Bool) (m : Nat) : Nat → Nat → List Nat
  | 0, _ => []
  | k + 1, c => seek q m c :: places q m k (seek q m c + 1)

theorem seek_le : seek q m c ≤ c + m := by
  induction m generalizing c with
  | zero => exact Nat.le_refl c
  | succ m ih =>
    unfold seek
    split
    · exact Nat.le_add_right c _
    · exact Nat.le_trans ih (by omega)

theorem seek_of_filter {js : List Nat} (h : (List.range' c l).filter q = j :: js) (hl : l ≤ m) :
    seek q m c = j ∧ q j = true := by
  induction l generalizing c m with
  | zero => cases h
  | succ l ih =>
    obtain ⟨m, rfl⟩ : ∃ m', m = m' + 1 := ⟨m - 1, by omega⟩
    rw [range'_succ, filter_cons] at h
    by_cases hc : q c = true
    · rw [if_pos hc] at h
      cases h
      exact ⟨by rw [seek, if_pos hc], hc⟩
    · rw [if_neg hc] at h
      rw [seek, if_neg hc]
      exact ih h (by omega)

theorem places_filter (hl : l ≤ m) :
    places q m ((List.range' c l).filter q).length c = (List.range' c l).filter q := by
  induction l generalizing c with
  | zero => rfl
  | succ l ih =>
    cases hjs : (List.range' c (l + 1)).filter q with
    | nil => rfl
    | cons j js =>
      obtain ⟨hseek, -⟩ := seek_of_filter hjs hl
      rw [length_cons, places, hseek]
      rw [range'_succ, filter_cons] at hjs
      by_cases hc : q c = true
      · rw [if_pos hc] at hjs
        cases hjs
        rw [ih (by omega)]
      · -- the place passed over does not matter to the searches from the next one
        rw [if_neg hc] at hjs
        have hrest := @ih (c + 1) (by omega)
        rwa [hjs, length_cons, places, (seek_of_filter hjs (by omega)).1] at hrest

end

section

variable {n : Nat} [NeZero n]

theorem window_perm (c : Nat) : ((List.range' c n).map (Fin.ofNat n)).Perm (List.finRange n) := by
  have hnodup : ((List.range' c n).map (Fin.ofNat n)).Nodup := by
    refine List.Nodup.map_on (fun j hj k hk hjk => ?_) nodup_range'
    rw [mem_range'_1] at hj hk
    refine Nat.mod_injOn_Ico c n ?_ ?_ (congrArg Fin.val hjk)
    · rwa [Finset.coe_Ico, Set.mem_Ico]
    · rwa [Finset.coe_Ico, Set.mem_Ico]
  refine (perm_ext_iff_of_nodup hnodup (nodup_finRange n)).mpr fun i => ?_
  refine iff_of_true ?_ (mem_finRange i)
  obtain ⟨j, hj, hji⟩ := Finset.mem_image.mp ((Nat.image_Ico_mod c n).symm ▸ Finset.mem_range.mpr i.isLt)
  exact List.mem_map.mpr ⟨j, mem_range'_1.mpr (Finset.mem_Ico.mp hj), Fin.ext hji⟩

theorem seek_ring {p : Fin n → Bool} {i : Fin n} (hi : p i = true) (c : Nat) :
    p (Fin.ofNat n (seek (fun j => p (Fin.ofNat n j)) n c)) = true := by
  obtain ⟨j, hj, rfl⟩ := List.mem_map.mp ((window_perm c).mem_iff.mpr (mem_finRange i))
  have hmem : j ∈ (List.range' c n).filter fun j => p (Fin.ofNat n j) := mem_filter.mpr ⟨hj, hi⟩
  obtain ⟨k, js, hjs⟩ := exists_cons_of_ne_nil (ne_nil_of_mem hmem)
  obtain ⟨hseek, hk⟩ := seek_of_filter hjs (Nat.le_refl n)
  rw [hseek]
  exact hk

theorem places_perm (p : Fin n → Bool) (c : Nat) :
    ((places (fun j => p (Fin.ofNat n j)) n ((List.finRange n).filter p).length c).map (Fin.ofNat n)).Perm
      ((List.finRange n).filter p) := by
  have hperm : (((List.range' c n).filter fun j => p (Fin.ofNat n j)).map (Fin.ofNat n)).Perm
      ((List.finRange n).filter p) := by
    have hfilter := (window_perm (n := n) c).filter p
    rwa [List.filter_map] at hfilter
  have hlen := hperm.length_eq
  rw [length_map] at hlen
  rwa [← hlen, places_filter (Nat.le_refl n)]

theorem turns_perm {α : Type*} {l : List α} {k m : Nat} (hl : l ≠ []) (h : k + l.length ≤ m) :
    ((((List.range m).map fun j => l[j % l.length]?).drop k).take l.length).Perm (l.map some) := by
  have : NeZero l.length := ⟨fun h0 => hl (length_eq_zero_iff.mp h0)⟩
  obtain ⟨r, rfl⟩ : ∃ r, m = k + (l.length + r) := ⟨m - k - l.length, by omega⟩
  have hwindow : ((List.range (k + (l.length + r))).drop k).take l.length = List.range' k l.length := by
    rw [range_eq_range', drop_range', Nat.add_sub_cancel_left, ← range'_append_1,
      take_left' length_range']
    simp
  have hturn : (fun j => l[j % l.length]?) = (fun i : Fin l.length => some (l.get i)) ∘ Fin.ofNat l.length := by
    funext j
    exact getElem?_eq_getElem _
  rw [← map_drop, ← map_take, hwindow, hturn, ← List.map_map]
  refine ((window_perm k).map _).trans ?_
  rw [← Function.comp_def some, ← List.map_map, map_get_finRange]

end

end Transition.Cursor
