import ArangeTun.Ports.Lemmas.Accepted

/-! # What the engine does with an entry -/

namespace ArangeTun.Ports

open Go

theorem mem_portsUpTo {lo hi p : Int} : p ∈ portsUpTo lo hi ↔ lo ≤ p ∧ p ≤ hi := by
  simp only [portsUpTo, List.mem_map, List.mem_range]
  constructor
  · rintro ⟨i, hi', rfl⟩; omega
  · rintro ⟨h1, h2⟩
    exact ⟨(p - lo).toNat, by omega, by omega⟩

theorem rangeBounds_eq_ok {l : Str} {lo hi : Int} :
    rangeBounds l = .ok (lo, hi) ↔ ∃ a b, split l (byte '-') = [a, b] ∧
      atoi (trimSpace a) = some lo ∧ atoi (trimSpace b) = some hi ∧ 1 ≤ lo ∧ lo ≤ hi ∧ hi ≤ 65535 := by
  constructor
  · intro h
    unfold rangeBounds at h
    split at h
    · rename_i a b hab
      split at h
      · cases h
      · rename_i startPort hs
        split at h
        · cases h
        · split at h
          · cases h
          · rename_i endPort he
            split at h
            · cases h
            · cases h
              exact ⟨a, b, hab, hs, he, by omega, by omega, by omega⟩
    · cases h
  · rintro ⟨a, b, hab, hlo, hhi, h1, h2, h3⟩
    have hs : ¬ (lo < 1 ∨ lo > 65535) := by omega
    have he : ¬ (hi < 1 ∨ hi > 65535 ∨ hi < lo) := by omega
    simp only [rangeBounds, hab, hlo, hhi, hs, he, ↓reduceIte]

theorem dash_mem_of_split {l a b : Str} (h : split l (byte '-') = [a, b]) : byte '-' ∈ l := by
  by_contra hd
  rw [split_of_not_mem hd] at h
  cases h

theorem rangeBounds_of_colon {l : Str} (hc : byte ':' ∈ l) : ∃ e, rangeBounds l = .error e := by
  cases h : rangeBounds l with
  | error e => exact ⟨e, rfl⟩
  | ok r =>
    obtain ⟨a, b, hab, hlo, hhi, _⟩ := rangeBounds_eq_ok.mp h
    exact absurd hc (colon_not_mem_of_range hab hlo hhi)

theorem atoi_of_dash {l : Str} {n : Int} (hd : byte '-' ∈ l) (h : atoi l = some n) : n ≤ 0 := by
  have hp := (atoi_eq_some.mp h).1
  have hnd : ∀ {m k : Nat} {t : Str}, digits m t = some k → byte '-' ∉ t := fun hk hm =>
    absurd (digits_mem hk hm).1 (by decide)
  cases l with
  | nil => cases hp
  | cons c cs =>
    simp only [parseInt] at hp
    split at hp
    · split at hp
      · cases hp
      · obtain ⟨m, _, rfl⟩ := Option.map_eq_some_iff.mp hp
        omega
    · rename_i hc
      have hcs : byte '-' ∈ cs := (List.mem_cons.mp hd).resolve_left fun he => hc he.symm
      split at hp
      · split at hp
        · cases hp
        · obtain ⟨m, hm, _⟩ := Option.map_eq_some_iff.mp hp
          exact absurd hcs (hnd hm)
      · obtain ⟨m, hm, _⟩ := Option.map_eq_some_iff.mp hp
        exact absurd hd (hnd hm)

section

variable {s u v l : Str} {lo hi n : Int}

theorem parse_bare_range (hs : byte '=' ∉ s) (hr : rangeBounds (trimSpace s) = .ok (lo, hi)) :
    parsePortMapping s =
      .ok ((portsUpTo lo hi).map fun port => ⟨byte ':' :: itoa port, itoa port⟩) := by
  obtain ⟨a, b, hab, _⟩ := rangeBounds_eq_ok.mp hr
  simp only [parsePortMapping, split_of_not_mem hs, dash_mem_of_split hab, ↓reduceIte, hr]

theorem parse_bare_port (hs : byte '=' ∉ s) (hd : byte '-' ∉ trimSpace s)
    (hn : atoi (trimSpace s) = some n) (h1 : 1 ≤ n) (h2 : n ≤ 65535) :
    parsePortMapping s = .ok [⟨byte ':' :: itoa n, trimSpace s⟩] := by
  have hb : ¬ (n < 1 ∨ n > 65535) := by omega
  simp only [parsePortMapping, split_of_not_mem hs, hd, ↓reduceIte, hn, hb]

theorem split_pair (hu : byte '=' ∉ u) (hv : byte '=' ∉ v) :
    split (u ++ byte '=' :: v) (byte '=') = [u, v] := by
  rw [split_append hu, split_of_not_mem hv]

theorem parse_range (hu : byte '=' ∉ u) (hv : byte '=' ∉ v)
    (hr : rangeBounds (trimSpace u) = .ok (lo, hi)) :
    parsePortMapping (u ++ byte '=' :: v) =
      .ok ((portsUpTo lo hi).map fun port => ⟨byte ':' :: itoa port, trimSpace v⟩) := by
  obtain ⟨a, b, hab, _⟩ := rangeBounds_eq_ok.mp hr
  simp only [parsePortMapping, split_pair hu hv, dash_mem_of_split hab, ↓reduceIte, hr]

theorem parse_range_error {e : Str} (hu : byte '=' ∉ u) (hv : byte '=' ∉ v)
    (hd : byte '-' ∈ trimSpace u) (hr : rangeBounds (trimSpace u) = .error e) :
    parsePortMapping (u ++ byte '=' :: v) = .error e := by
  simp only [parsePortMapping, split_pair hu hv, hd, ↓reduceIte, hr]

theorem parse_port (hu : byte '=' ∉ u) (hv : byte '=' ∉ v) (hd : byte '-' ∉ trimSpace u)
    (hn : atoi (trimSpace u) = some n) (h1 : 1 < n) (h2 : n < 65535) :
    parsePortMapping (u ++ byte '=' :: v) = .ok [⟨byte ':' :: itoa n, trimSpace v⟩] := by
  simp only [parsePortMapping, split_pair hu hv, hd, ↓reduceIte, hn, h1, h2, and_self]

/-- The left side is passed on as it is. -/
theorem parse_verbatim (hu : byte '=' ∉ u) (hv : byte '=' ∉ v) (hd : byte '-' ∉ trimSpace u)
    (hn : ∀ n, atoi (trimSpace u) = some n → ¬ (1 < n ∧ n < 65535)) :
    parsePortMapping (u ++ byte '=' :: v) = .ok [⟨trimSpace u, trimSpace v⟩] := by
  simp only [parsePortMapping, split_pair hu hv, hd, ↓reduceIte]
  cases ha : atoi (trimSpace u) with
  | none => rfl
  | some n => simp only [hn n ha, ↓reduceIte]

theorem parse_two_equals (hu : byte '=' ∉ u) (hv : byte '=' ∈ v) :
    (∃ a b c rest, split (u ++ byte '=' :: v) (byte '=') = a :: b :: c :: rest) ∧
      ∃ e, parsePortMapping (u ++ byte '=' :: v) = .error e := by
  obtain ⟨v₁, v₂, rfl, hv₁⟩ := List.eq_append_cons_of_mem hv
  obtain ⟨c, rest, hc⟩ := List.exists_cons_of_ne_nil (split_ne_nil v₂ (byte '='))
  have hsplit : split (u ++ byte '=' :: (v₁ ++ byte '=' :: v₂)) (byte '=') = u :: v₁ :: c :: rest := by
    rw [split_append hu, split_append hv₁, hc]
  refine ⟨⟨u, v₁, c, rest, hsplit⟩, ?_⟩
  simp only [parsePortMapping, hsplit, Except.error.injEq, exists_eq']

end

theorem parsePortMappings_singleton {s : Str} :
    parsePortMappings [s] = match parsePortMapping s with
      | .error e => ⟨[], some e⟩
      | .ok ls => ⟨ls, none⟩ := by
  cases h : parsePortMapping s <;> simp [parsePortMappings, h]

end ArangeTun.Ports
