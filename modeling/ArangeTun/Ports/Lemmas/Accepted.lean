import ArangeTun.Ports.Model
import ArangeTun.Go.Lemmas.HostPort
import ArangeTun.Go.Lemmas.Split

/-! # What the panel accepts -/

namespace ArangeTun.Ports

open Go List Option

inductive LeftShape (l : Str) : Prop
  | host {h p n} : splitHostPort l = some (h, p) → h ≠ [] → atoi p = some n → 1 ≤ n → n ≤ 65535 →
      LeftShape l
  | range {a b lo hi} : split l (byte '-') = [a, b] → atoi (trimSpace a) = some lo →
      atoi (trimSpace b) = some hi → 1 ≤ lo → lo ≤ hi → hi ≤ 65535 → LeftShape l
  | single {n} : byte '-' ∉ l → atoi l = some n → 1 ≤ n → n ≤ 65535 → LeftShape l

theorem validPort_iff {s : Str} : validPort s = true ↔ ∃ n, atoi s = some n ∧ 1 ≤ n ∧ n ≤ 65535 := by
  unfold validPort
  cases atoi s <;> simp

theorem solid_eq : Solid (byte '=') := by decide
theorem solid_dash : Solid (byte '-') := by decide
theorem solid_colon : Solid (byte ':') := by decide
theorem solid_pipe : Solid (byte '|') := by decide

theorem portOrRange_shape {l : Str} (h : validPortSpec.portOrRange l = true) : LeftShape l := by
  unfold validPortSpec.portOrRange at h
  split at h
  · split at h
    · rename_i a b hab
      simp only at h
      split at h
      · cases h
      · rename_i hv
        simp only [not_or, Bool.not_eq_false] at hv
        obtain ⟨lo, hlo, h1, _⟩ := validPort_iff.mp hv.1
        obtain ⟨hi, hhi, _, h2⟩ := validPort_iff.mp hv.2
        simp only [hlo, hhi, getD_some, decide_eq_true_eq] at h
        exact .range hab hlo hhi h1 h h2
    · cases h
  · rename_i hd
    obtain ⟨n, hn, h1, h2⟩ := validPort_iff.mp h
    exact .single hd hn h1 h2

theorem colon_not_mem_of_range {l a b : Str} {lo hi : Int} (hs : split l (byte '-') = [a, b])
    (hlo : atoi (trimSpace a) = some lo) (hhi : atoi (trimSpace b) = some hi) : byte ':' ∉ l := by
  intro hc
  obtain ⟨p, hp, hcp⟩ := exists_mem_split (byte '-') hc (by decide)
  have hnum : ¬ Numeral (byte ':') := by decide
  rw [hs] at hp
  simp only [mem_cons, not_mem_nil, or_false] at hp
  rcases hp with rfl | rfl
  · exact hnum (atoi_mem hlo ((mem_trimSpace solid_colon).mpr hcp))
  · exact hnum (atoi_mem hhi ((mem_trimSpace solid_colon).mpr hcp))

theorem colon_not_mem_of_atoi {l : Str} {n : Int} (h : atoi l = some n) : byte ':' ∉ l :=
  fun hc => absurd (atoi_mem h hc) (by decide)

theorem validPortSpec_cases {s : Str} (h : validPortSpec s = true) :
    (byte '=' ∉ s ∧ LeftShape (trimSpace s) ∧ byte ':' ∉ trimSpace s) ∨
    ∃ u v, s = u ++ byte '=' :: v ∧ byte '=' ∉ u ∧ validBackendList (trimRightSpace v) = true ∧
      LeftShape (trimSpace u) := by
  rcases split_cases s (byte '=') with hno | ⟨u, v, rfl, hu⟩
  · left
    have hno' : byte '=' ∉ trimSpace s := fun hm => hno (mem_of_mem_trimSpace hm)
    simp only [validPortSpec, splitN2_of_not_mem hno', headD_cons, trimSpace_trimSpace,
      length_singleton, OfNat.one_ne_ofNat, false_and, ↓reduceIte, decide_false,
      Bool.false_and] at h
    have hp : validPortSpec.portOrRange (trimSpace s) = true := by
      split at h
      · cases h
      · split at h
        · split at h
          · cases h
          · exact h
        · exact h
    have hsh := portOrRange_shape hp
    refine ⟨hno, hsh, ?_⟩
    cases hsh with
    | range hs hlo hhi _ _ _ => exact colon_not_mem_of_range hs hlo hhi
    | single _ hn _ _ => exact colon_not_mem_of_atoi hn
    | host hh hne _ _ _ =>
      -- an address needs a right side
      simp only [hh, ne_eq, hne, not_false_eq_true, ↓reduceIte, ite_self] at h
      cases h
  · right
    refine ⟨u, v, rfl, hu, ?_⟩
    have hu' : byte '=' ∉ trimLeftSpace u := not_mem_trimLeftSpace hu
    simp only [validPortSpec, trimSpace_barrier solid_eq, splitN2_append hu', headD_cons,
      trimSpace_trimLeftSpace, length_cons, length_nil, Nat.zero_add, Nat.reduceAdd,
      true_and, getD_cons_succ, getD_cons_zero, decide_true, Bool.true_and] at h
    split at h
    · cases h
    · split at h
      · cases h
      · rename_i hv
        refine ⟨by simpa using hv, ?_⟩
        split at h
        · rename_i hh hsp
          split at h
          · rename_i hne
            obtain ⟨n, hn, h1, h2⟩ := validPort_iff.mp h
            exact .host hsp hne hn h1 h2
          · exact portOrRange_shape h
        · exact portOrRange_shape h

end ArangeTun.Ports
