import ArangeTun.Go.Lemmas.Trim

/-!
# Cutting and splitting at a separator
-/

namespace Go

open List

variable {s u v : Str} {sep x : UInt8}

theorem cut_of_not_mem (h : sep ∉ s) : cut s sep = (s, [], false) := by simp [cut, h]

theorem cut_append (h : sep ∉ u) : cut (u ++ sep :: v) sep = (u, v, true) := by
  have hall : ∀ y ∈ u, decide (y ≠ sep) = true := by
    intro y hy
    simp only [ne_eq, decide_not, Bool.not_eq_eq_eq_not, Bool.not_true, decide_eq_false_iff_not]
    exact fun he => h (he ▸ hy)
  have ht : (u ++ sep :: v).takeWhile (fun y => decide (y ≠ sep)) = u := by
    rw [takeWhile_append_of_pos hall]; simp
  have hd : (u ++ sep :: v).dropWhile (fun y => decide (y ≠ sep)) = sep :: v := by
    rw [dropWhile_append_of_pos hall]; simp
  unfold cut
  rw [if_pos (by simp), ht, hd]
  rfl

theorem splitN2_of_not_mem (h : sep ∉ s) : splitN2 s sep = [s] := by
  rw [splitN2, cut_of_not_mem h]

theorem splitN2_append (h : sep ∉ u) : splitN2 (u ++ sep :: v) sep = [u, v] := by
  rw [splitN2, cut_append h]

theorem split_of_not_mem (h : sep ∉ s) : split s sep = [s] := splitOn_eq_singleton h

theorem split_append_cons (u v : Str) : split (u ++ sep :: v) sep = split u sep ++ split v sep :=
  splitOn_append_cons_self u v

theorem split_append (h : sep ∉ u) : split (u ++ sep :: v) sep = u :: split v sep := by
  rw [split_append_cons, split_of_not_mem h]; rfl

theorem split_ne_nil (s : Str) (sep : UInt8) : split s sep ≠ [] := splitOn_ne_nil sep s

theorem split_cases (s : Str) (sep : UInt8) :
    sep ∉ s ∨ ∃ u v, s = u ++ sep :: v ∧ sep ∉ u := by
  by_cases h : sep ∈ s
  · obtain ⟨u, v, he, hu⟩ := eq_append_cons_of_mem h
    exact Or.inr ⟨u, v, he, hu⟩
  · exact Or.inl h

theorem mem_split {p : Str} (hp : p ∈ split s sep) : sep ∉ p ∧ ∀ y ∈ p, y ∈ s := by
  induction hn : s.length using Nat.strong_induction_on generalizing s with
  | _ n ih =>
    rcases split_cases s sep with h | ⟨u, v, rfl, hu⟩
    · rw [split_of_not_mem h, mem_singleton] at hp
      subst hp; exact ⟨h, fun _ hy => hy⟩
    · rw [split_append hu, mem_cons] at hp
      rcases hp with rfl | hp
      · exact ⟨hu, fun y hy => by simp [hy]⟩
      · obtain ⟨h1, h2⟩ := ih v.length (by simp at hn; omega) hp rfl
        exact ⟨h1, fun y hy => by simp [h2 y hy]⟩

theorem exists_mem_split (sep : UInt8) (hx : x ∈ s) (hne : x ≠ sep) : ∃ p ∈ split s sep, x ∈ p := by
  induction hn : s.length using Nat.strong_induction_on generalizing s with
  | _ n ih =>
    rcases split_cases s sep with h | ⟨u, v, rfl, hu⟩
    · exact ⟨s, by rw [split_of_not_mem h]; simp, hx⟩
    · rw [split_append hu]
      simp only [mem_append, mem_cons, hne, false_or] at hx
      rcases hx with hx | hx
      · exact ⟨u, by simp, hx⟩
      · obtain ⟨p, hp, hxp⟩ := ih v.length (by simp at hn; omega) hx rfl
        exact ⟨p, by simp [hp], hxp⟩

theorem join_split (s : Str) (sep : UInt8) : join (split s sep) sep = s := intercalate_splitOn sep

theorem split_join {ps : List Str} (hsep : ∀ p ∈ ps, sep ∉ p) (hne : ps ≠ []) :
    split (join ps sep) sep = ps := splitOn_intercalate sep hsep hne

theorem split_eq_singleton (h : (split s sep).length = 1) : sep ∉ s := by
  rcases split_cases s sep with h' | ⟨u, v, rfl, hu⟩
  · exact h'
  · rw [split_append hu] at h
    have := length_pos_iff.mpr (split_ne_nil v sep)
    simp only [length_cons] at h; omega

theorem cut_of_split_pair {a b : Str} (h : split s sep = [a, b]) : cut s sep = (a, b, true) := by
  rcases split_cases s sep with hs | ⟨u, v, rfl, hu⟩
  · rw [split_of_not_mem hs] at h
    cases h
  · rw [split_append hu, List.cons.injEq] at h
    obtain ⟨rfl, hv⟩ := h
    have hb : v = b := by
      rw [← join_split v sep, hv]
      simp [join]
    rw [cut_append hu, hb]

theorem not_mem_trimRightSpace (hx : x ∉ s) : x ∉ trimRightSpace s := by
  obtain ⟨r, _, he⟩ := trimRightCodes_split spaceCodes_prefixFree.nonempty s
  exact fun hm => hx (he ▸ mem_append_left r hm)

theorem not_mem_trimLeftSpace (hx : x ∉ s) : x ∉ trimLeftSpace s := by
  obtain ⟨l, _, he⟩ := trimLeftCodes_split spaceCodes_prefixFree.nonempty s
  exact fun hm => hx (he ▸ mem_append_right l hm)

theorem split_trimLeftSpace (hsep : Solid sep) (s : Str) :
    (split (trimLeftSpace s) sep).map trimSpace = (split s sep).map trimSpace := by
  rcases split_cases s sep with h | ⟨u, v, rfl, hu⟩
  · rw [split_of_not_mem h, split_of_not_mem (not_mem_trimLeftSpace h)]
    simp
  · rw [trimLeftSpace_barrier hsep, split_append (not_mem_trimLeftSpace hu), split_append hu]
    simp

theorem split_trimRightSpace (hsep : Solid sep) (s : Str) :
    (split (trimRightSpace s) sep).map trimSpace = (split s sep).map trimSpace := by
  induction hn : s.length using Nat.strong_induction_on generalizing s with
  | _ n ih =>
    rcases split_cases s sep with h | ⟨u, v, rfl, hu⟩
    · rw [split_of_not_mem h, split_of_not_mem (not_mem_trimRightSpace h)]
      simp
    · rw [trimRightSpace_barrier hsep, split_append hu, split_append hu, map_cons, map_cons,
        ih v.length (by simp at hn; omega) v rfl]

theorem split_trimSpace (hsep : Solid sep) (s : Str) :
    (split (trimSpace s) sep).map trimSpace = (split s sep).map trimSpace := by
  rw [trimSpace, split_trimRightSpace hsep, split_trimLeftSpace hsep]

end Go
