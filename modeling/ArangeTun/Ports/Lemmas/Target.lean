import ArangeTun.Ports.Lemmas.Engine

/-! # Targets -/

namespace ArangeTun.Ports

open Go List Option

/-- A number in the spelling of `Itoa`: no sign `+`, no zeros in front. -/
def Canonical (s : Str) : Prop := ∃ n, atoi s = some n ∧ itoa n = s

def FullBackend (b : Str) : Prop :=
  trimSpace b = b ∧ ∃ h p rest, split b (byte ':') = h :: p :: rest ∧ (atoi p).isSome = true

def PlainTarget (dest : Str) : Prop :=
  Canonical dest ∨ ∀ b ∈ split dest (byte '|'), FullBackend b

def dialed (remoteAddr : Str) : Option Str := (resolveRemoteAddr remoteAddr).map Prod.snd

theorem spaceCodes_bounds : ∀ w ∈ spaceCodes, ∀ c ∈ w, c.toNat ≤ 0x20 ∨ 0x80 ≤ c.toNat := by
  decide +kernel

theorem numeral_solid {c : UInt8} (h : Numeral c) : Solid c := by
  intro w hw hc
  have hlo : 0x2b ≤ c.toNat := by
    rcases h with h | rfl | rfl
    · exact Nat.le_trans (by decide) (UInt8.le_iff_toNat_le.mp h.1)
    · decide
    · decide
  have hhi : c.toNat ≤ 0x39 := by
    rcases h with h | rfl | rfl
    · exact UInt8.le_iff_toNat_le.mp h.2
    · decide
    · decide
  have := spaceCodes_bounds w hw c hc
  omega

theorem Coded.eq_nil {l : Str} (h : Coded spaceCodes l) (hs : ∀ c ∈ l, Solid c) : l = [] := by
  cases h with
  | nil => rfl
  | @cons w _ hw _ =>
    cases w with
    | nil => exact absurd hw spaceCodes_prefixFree.nonempty
    | cons _ w => exact absurd mem_cons_self (hs _ (by simp) _ hw)

theorem trimSpace_of_solid {s : Str} (hs : ∀ c ∈ s, Solid c) : trimSpace s = s := by
  obtain ⟨l, r, hl, hr, he⟩ := trimSpace_split s
  have hl0 : l = [] := Coded.eq_nil hl fun c hc => hs c (by rw [he]; simp [hc])
  have hr0 : r = [] := Coded.eq_nil hr fun c hc => hs c (by rw [he]; simp [hc])
  rw [hl0, hr0, nil_append, append_nil] at he
  exact he.symm

theorem atoi_trimSpace {s : Str} {n : Int} (h : atoi s = some n) : trimSpace s = s :=
  trimSpace_of_solid fun _ hc => numeral_solid (atoi_mem h hc)

theorem not_mem_of_atoi {s : Str} {n : Int} {c : UInt8} (h : atoi s = some n) (hc : ¬ Numeral c) :
    c ∉ s := fun hm => hc (atoi_mem h hm)

/-! ## One backend -/

theorem resolveSingle_of_atoi {s : Str} {n : Int} (h : atoi s = some n) :
    resolveSingle s = some (n, lit "127.0.0.1:" ++ itoa n) := by
  simp only [resolveSingle, split_of_not_mem (colon_not_mem_of_atoi h), h, map_some]

theorem resolveSingle_eq_self {b : Str} :
    (∃ port, resolveSingle (trimSpace b) = some (port, b)) ↔ FullBackend b := by
  constructor
  · rintro ⟨port, h⟩
    unfold resolveSingle at h
    split at h
    · rename_i p hp
      obtain ⟨n, _, he⟩ := map_eq_some_iff.mp h
      -- the address would have a colon, which the backend has not
      have hno : byte ':' ∉ trimSpace b := split_eq_singleton (by rw [hp]; rfl)
      rw [mem_trimSpace solid_colon, ← (Prod.mk.inj he).2] at hno
      exact absurd (mem_append_left _ (by decide)) hno
    · rename_i q p rest hs
      obtain ⟨n, hn, he⟩ := map_eq_some_iff.mp h
      have hb : trimSpace b = b := (Prod.mk.inj he).2
      rw [hb] at hs
      exact ⟨hb, q, p, rest, hs, by rw [hn]; rfl⟩
    · cases h
  · rintro ⟨hb, q, p, rest, hs, hp⟩
    obtain ⟨n, hn⟩ := isSome_iff_exists.mp hp
    exact ⟨n, by simp only [resolveSingle, hb, hs, hn, map_some]⟩

theorem FullBackend.colon_mem {b : Str} (h : FullBackend b) : byte ':' ∈ b := by
  obtain ⟨_, q, p, rest, hs, _⟩ := h
  by_contra hc
  rw [split_of_not_mem hc] at hs
  cases hs

/-! ## A list of backends -/

theorem resolveParts_eq_some {parts : List Str} {res : List (Int × Str)} :
    resolveParts parts = some res ↔
      List.Forall₂ (fun b r => resolveSingle b = some r) ((parts.map trimSpace).filter (· ≠ [])) res := by
  induction parts generalizing res with
  | nil => simp [resolveParts, eq_comm]
  | cons part parts ih =>
    by_cases hblank : trimSpace part = []
    · simp only [resolveParts, hblank, ↓reduceIte, map_cons, ne_eq, not_true_eq_false, decide_false,
        Bool.false_eq_true, not_false_eq_true, filter_cons_of_neg]
      exact ih
    · simp only [resolveParts, hblank, ↓reduceIte, map_cons, ne_eq, not_false_eq_true, decide_true,
        filter_cons_of_pos, forall₂_cons_left_iff]
      constructor
      · intro h
        split at h
        · cases h
        · rename_i r hr
          obtain ⟨res', hres', rfl⟩ := map_eq_some_iff.mp h
          exact ⟨r, res', hr, ih.mp hres', rfl⟩
      · rintro ⟨r, res', hr, hrest, rfl⟩
        simp only [hr, ih.mpr hrest, map_some]

theorem resolveParts_of_full {parts : List Str} (h : ∀ b ∈ parts, FullBackend b) :
    ∃ res, resolveParts parts = some res ∧ res.map Prod.snd = parts := by
  induction parts with
  | nil => exact ⟨[], rfl, rfl⟩
  | cons b parts ih =>
    obtain ⟨res, hres, hsnd⟩ := ih fun c hc => h c (by simp [hc])
    have hb := h b (by simp)
    obtain ⟨port, hport⟩ := resolveSingle_eq_self.mpr hb
    have hne : trimSpace b ≠ [] := by
      rw [hb.1]; rintro rfl; exact absurd hb.colon_mem (by simp)
    exact ⟨(port, b) :: res, by simp only [resolveParts, hne, ↓reduceIte, hport, hres, map_some],
      by simp [hsnd]⟩

theorem resolveParts_length {parts : List Str} {res : List (Int × Str)}
    (h : resolveParts parts = some res) : res.length ≤ parts.length := by
  induction parts generalizing res with
  | nil => cases h; rfl
  | cons b parts ih =>
    simp only [resolveParts] at h
    split at h
    · have := ih h; simp only [length_cons]; omega
    · split at h
      · cases h
      · obtain ⟨res', hres', rfl⟩ := map_eq_some_iff.mp h
        have := ih hres'
        simp only [length_cons]; omega

theorem resolveParts_length_eq {parts : List Str} {res : List (Int × Str)}
    (h : resolveParts parts = some res) (hne : ∀ b ∈ parts, trimSpace b ≠ []) :
    res.length = parts.length := by
  induction parts generalizing res with
  | nil => cases h; rfl
  | cons b parts ih =>
    simp only [resolveParts, hne b (by simp), ↓reduceIte] at h
    split at h
    · cases h
    · obtain ⟨res', hres', rfl⟩ := map_eq_some_iff.mp h
      simp [ih hres' fun c hc => hne c (by simp [hc])]

theorem full_of_resolveParts {parts : List Str} {res : List (Int × Str)}
    (h : resolveParts parts = some res) (hsnd : res.map Prod.snd = parts) :
    ∀ b ∈ parts, FullBackend b := by
  induction parts generalizing res with
  | nil => simp
  | cons b parts ih =>
    have hlen := congrArg List.length hsnd
    simp only [length_map, length_cons] at hlen
    simp only [resolveParts] at h
    split at h
    · have := resolveParts_length h; omega
    · split at h
      · cases h
      · rename_i r hr
        obtain ⟨res', hres', rfl⟩ := map_eq_some_iff.mp h
        simp only [map_cons, List.cons.injEq] at hsnd
        intro c hc
        rcases mem_cons.mp hc with rfl | hc
        · exact resolveSingle_eq_self.mp ⟨r.1, by rw [hr, ← hsnd.1]⟩
        · exact ih hres' hsnd.2 c hc

theorem pipe_not_mem_resolved {parts : List Str} {res : List (Int × Str)}
    (h : resolveParts parts = some res) (hp : ∀ b ∈ parts, byte '|' ∉ b) :
    ∀ a ∈ res.map Prod.snd, byte '|' ∉ a := by
  induction parts generalizing res with
  | nil => cases h; simp
  | cons b parts ih =>
    have hb : byte '|' ∉ trimSpace b := fun hm => hp b (by simp) (mem_of_mem_trimSpace hm)
    have hrest : ∀ c ∈ parts, byte '|' ∉ c := fun c hc => hp c (by simp [hc])
    simp only [resolveParts] at h
    split at h
    · exact ih h hrest
    · split at h
      · cases h
      · rename_i r hr
        obtain ⟨res', hres', rfl⟩ := map_eq_some_iff.mp h
        simp only [map_cons, forall_mem_cons]
        refine ⟨?_, ih hres' hrest⟩
        unfold resolveSingle at hr
        split at hr
        · obtain ⟨n, _, rfl⟩ := map_eq_some_iff.mp hr
          rw [mem_append, not_or]
          exact ⟨by decide, fun hm => absurd (itoa_mem hm) (by decide)⟩
        · obtain ⟨n, _, rfl⟩ := map_eq_some_iff.mp hr
          exact hb
        · cases hr

theorem dialed_of_pipe {r : Str} (hp : byte '|' ∈ r) :
    dialed r = (resolveParts (split r (byte '|'))).map fun res => join (res.map Prod.snd) (byte '|') := by
  simp only [dialed, resolveRemoteAddr, hp, ↓reduceIte]
  cases resolveParts (split r (byte '|')) <;> rfl

theorem dialed_of_single {r : Str} (hp : byte '|' ∉ r) : dialed r = (resolveSingle r).map Prod.snd := by
  simp only [dialed, resolveRemoteAddr, hp, ↓reduceIte]

theorem dialed_eq_self_of_pipe {r : Str} (hp : byte '|' ∈ r) :
    dialed r = some r ↔ ∀ b ∈ split r (byte '|'), FullBackend b := by
  rw [dialed_of_pipe hp]
  constructor
  · intro h
    obtain ⟨res, hres, hjoin⟩ := map_eq_some_iff.mp h
    have hno := pipe_not_mem_resolved hres fun b hb => (mem_split hb).1
    have hne : res.map Prod.snd ≠ [] := by
      intro h0
      rw [h0] at hjoin
      rw [← hjoin] at hp
      exact absurd hp (by decide)
    have hsplit := split_join hno hne
    rw [hjoin] at hsplit
    exact full_of_resolveParts hres hsplit.symm
  · intro h
    obtain ⟨res, hres, hsnd⟩ := resolveParts_of_full h
    rw [hres, map_some, hsnd, join_split]

theorem normalizeTarget_of_atoi {r : Str} {n : Int} (h : atoi r = some n) :
    normalizeTarget r = lit "127.0.0.1:" ++ r := by
  simp only [normalizeTarget, atoi_trimSpace h, h, isSome_some, ↓reduceIte]

theorem normalizeTarget_of_none {r : Str} (ht : trimSpace r = r) (h : atoi r = none) :
    normalizeTarget r = r := by
  simp [normalizeTarget, ht, h]

theorem dialed_eq_normalizeTarget {r : Str} (ht : trimSpace r = r) :
    dialed r = some (normalizeTarget r) ↔ PlainTarget r := by
  have hcanon : atoi r = none → ¬ Canonical r := by
    rintro h ⟨n, hn, _⟩; rw [h] at hn; cases hn
  by_cases hp : byte '|' ∈ r
  · have hatoi : atoi r = none := atoi_eq_none_of_mem hp (by decide)
    rw [normalizeTarget_of_none ht hatoi, dialed_eq_self_of_pipe hp]
    exact (or_iff_right (hcanon hatoi)).symm
  · rw [dialed_of_single hp, PlainTarget, split_of_not_mem hp]
    simp only [mem_singleton, forall_eq]
    by_cases hc : byte ':' ∈ r
    · have hatoi : atoi r = none := atoi_eq_none_of_mem hc (by decide)
      rw [normalizeTarget_of_none ht hatoi, or_iff_right (hcanon hatoi), ← resolveSingle_eq_self, ht,
        map_eq_some_iff]
      constructor
      · rintro ⟨⟨port, a⟩, h, rfl⟩; exact ⟨port, h⟩
      · rintro ⟨port, h⟩; exact ⟨(port, r), h, rfl⟩
    · have hfull : ¬ FullBackend r := fun h => hc h.colon_mem
      rw [or_iff_left hfull]
      cases ha : atoi r with
      | none => simp [resolveSingle, split_of_not_mem hc, ha, Canonical]
      | some n =>
        rw [resolveSingle_of_atoi ha, normalizeTarget_of_atoi ha]
        simp [Canonical, ha]

end ArangeTun.Ports
