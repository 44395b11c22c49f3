import ArangeTun.Ports.Lemmas.Target

/-! # The expanders side by side -/

namespace ArangeTun.Ports

open Go

variable {s u v l r : Str} {lo hi n : Int}

/-! ## What `mappings` does with an entry -/

theorem portRange_of_split {a b : Str} (hab : split l (byte '-') = [a, b])
    (hlo : atoi (trimSpace a) = some lo) (hhi : atoi (trimSpace b) = some hi)
    (h1 : 1 ≤ lo) (h2 : lo ≤ hi) (h3 : hi ≤ 65535) : portRange l = some (lo, hi) := by
  have hb : ¬ (lo < 1 ∨ hi > 65535 ∨ lo > hi) := by omega
  simp only [portRange, cut_of_split_pair hab, hlo, hhi, hb, ↓reduceIte]

theorem portRange_of_not_mem (hd : byte '-' ∉ l) : portRange l = none := by
  simp only [portRange, cut_of_not_mem hd]

theorem expand_bare_range (hs : byte '=' ∉ s) (hr : portRange (trimSpace s) = some (lo, hi)) :
    expandEntry s =
      (portsUpTo lo hi).map fun port => ⟨byte ':' :: itoa port, normalizeTarget (itoa port)⟩ := by
  have hs' : byte '=' ∉ trimSpace s := fun hm => hs (mem_of_mem_trimSpace hm)
  have hne : trimSpace s ≠ [] := by
    intro h0
    rw [h0, portRange_of_not_mem (by simp)] at hr
    cases hr
  simp only [expandEntry, hne, ↓reduceIte, cut_of_not_mem hs', trimSpace_trimSpace, hr]

theorem expand_bare_port (hs : byte '=' ∉ s) (hd : byte '-' ∉ trimSpace s)
    (hn : atoi (trimSpace s) = some n) :
    expandEntry s = [⟨byte ':' :: trimSpace s, normalizeTarget (trimSpace s)⟩] := by
  have hs' : byte '=' ∉ trimSpace s := fun hm => hs (mem_of_mem_trimSpace hm)
  have hne : trimSpace s ≠ [] := by
    intro h0
    rw [h0] at hn
    cases hn
  simp only [expandEntry, hne, ↓reduceIte, cut_of_not_mem hs', trimSpace_trimSpace,
    portRange_of_not_mem hd, hn, Option.isSome_some, Bool.false_eq_true, false_and]

theorem expand_range (hu : byte '=' ∉ u) (hr : portRange (trimSpace u) = some (lo, hi)) :
    expandEntry (u ++ byte '=' :: v) =
      (portsUpTo lo hi).map fun port => ⟨byte ':' :: itoa port, normalizeTarget (itoa port)⟩ := by
  have hne : trimLeftSpace u ++ byte '=' :: trimRightSpace v ≠ [] := by simp
  simp only [expandEntry, trimSpace_barrier solid_eq, hne, ↓reduceIte,
    cut_append (not_mem_trimLeftSpace hu), trimSpace_trimLeftSpace, hr]

theorem expand_single (hu : byte '=' ∉ u) (hd : byte '-' ∉ trimSpace u) (hv : trimSpace v ≠ []) :
    expandEntry (u ++ byte '=' :: v) =
      [⟨if (atoi (trimSpace u)).isSome then byte ':' :: trimSpace u else trimSpace u,
        normalizeTarget (trimSpace v)⟩] := by
  have hne : trimLeftSpace u ++ byte '=' :: trimRightSpace v ≠ [] := by simp
  simp only [expandEntry, trimSpace_barrier solid_eq, hne, ↓reduceIte,
    cut_append (not_mem_trimLeftSpace hu), trimSpace_trimLeftSpace, trimSpace_trimRightSpace,
    portRange_of_not_mem hd, hv, ne_eq, not_false_eq_true, and_self]

theorem expandEntry_ne_nil (h : trimSpace s ≠ []) : expandEntry s ≠ [] := by
  simp only [expandEntry, h, ↓reduceIte]
  split
  · rename_i lo hi hr
    have hle : lo ≤ hi := by
      unfold portRange at hr
      split at hr
      · split at hr
        · split at hr
          · cases hr
          · cases hr
            omega
        · cases hr
      · cases hr
    have hmem : lo ∈ portsUpTo lo hi := mem_portsUpTo.mpr ⟨Int.le_refl lo, hle⟩
    intro h0
    rw [List.map_eq_nil_iff] at h0
    rw [h0] at hmem
    cases hmem
  · simp

/-! ## Pairs -/

def listenPort (addr : Str) : Option Int := (splitHostPort addr).bind fun hostPort => atoi hostPort.2

def Listener.pair (l : Listener) : Option Int × Option Str := (listenPort l.localAddr, dialed l.remoteAddr)

def Mapping.pair (m : Mapping) : Option Int × Option Str := (listenPort m.listen, some m.target)

def SameEntry (s : Str) : Prop :=
  ∃ ls, parsePortMapping s = .ok ls ∧
    ∀ x, x ∈ ls.map Listener.pair ↔ x ∈ (expandEntry s).map Mapping.pair

theorem listenPort_of_atoi (h : atoi l = some n) : listenPort (byte ':' :: l) = some n := by
  rw [listenPort, splitHostPort_colon fun _ hc => atoi_mem h hc]
  exact h

theorem listenPort_itoa (h1 : 1 ≤ n) (h2 : n ≤ 65535) : listenPort (byte ':' :: itoa n) = some n :=
  listenPort_of_atoi (atoi_itoa (by omega) (by omega))

theorem listenPort_of_not_mem (h : byte ':' ∉ l) : listenPort l = none := by
  rw [listenPort, splitHostPort_eq_none h]
  rfl

theorem normalizeTarget_itoa (h1 : 1 ≤ n) (h2 : n ≤ 65535) :
    normalizeTarget (itoa n) = lit "127.0.0.1:" ++ itoa n :=
  normalizeTarget_of_atoi (atoi_itoa (by omega) (by omega))

theorem not_sameEntry_of_error {e : Str} (h : parsePortMapping s = .error e) : ¬ SameEntry s := by
  rintro ⟨ls, hls, _⟩
  rw [h] at hls
  cases hls

theorem sameEntry_single {la ra li ta : Str} (hp : parsePortMapping s = .ok [⟨la, ra⟩])
    (he : expandEntry s = [⟨li, ta⟩]) :
    SameEntry s ↔ listenPort la = listenPort li ∧ dialed ra = some ta := by
  simp only [SameEntry, hp, he, Except.ok.injEq, exists_eq_left', List.map_cons, List.map_nil,
    List.mem_singleton, Listener.pair, Mapping.pair]
  constructor
  · intro h
    exact Prod.mk.inj ((h _).mp rfl)
  · rintro ⟨h1, h2⟩ x
    rw [h1, h2]

theorem sameEntry_range (f : Int → Str) (h1 : 1 ≤ lo) (h3 : hi ≤ 65535)
    (hp : parsePortMapping s =
      .ok ((portsUpTo lo hi).map fun port => ⟨byte ':' :: itoa port, f port⟩))
    (he : expandEntry s =
      (portsUpTo lo hi).map fun port => ⟨byte ':' :: itoa port, normalizeTarget (itoa port)⟩) :
    SameEntry s ↔ ∀ p, lo ≤ p → p ≤ hi → dialed (f p) = some (lit "127.0.0.1:" ++ itoa p) := by
  have hl : ((portsUpTo lo hi).map fun port => (⟨byte ':' :: itoa port, f port⟩ : Listener)).map
      Listener.pair = (portsUpTo lo hi).map fun p => (some p, dialed (f p)) := by
    rw [List.map_map]
    refine List.map_congr_left fun p hm => ?_
    rw [mem_portsUpTo] at hm
    simp only [Function.comp_apply, Listener.pair, listenPort_itoa (n := p) (by omega) (by omega)]
  have hm : (expandEntry s).map Mapping.pair =
      (portsUpTo lo hi).map fun p => (some p, some (lit "127.0.0.1:" ++ itoa p)) := by
    rw [he, List.map_map]
    refine List.map_congr_left fun p hm => ?_
    rw [mem_portsUpTo] at hm
    simp only [Function.comp_apply, Mapping.pair, listenPort_itoa (n := p) (by omega) (by omega),
      normalizeTarget_itoa (n := p) (by omega) (by omega)]
  simp only [SameEntry, hp, Except.ok.injEq, exists_eq_left', hl, hm]
  constructor
  · intro h p hlo hhi
    have hin := (h (some p, dialed (f p))).mp (List.mem_map_of_mem (mem_portsUpTo.mpr ⟨hlo, hhi⟩))
    obtain ⟨q, _, hq⟩ := List.mem_map.mp hin
    simp only [Prod.mk.injEq, Option.some.injEq] at hq
    obtain ⟨rfl, hd⟩ := hq
    exact hd.symm
  · intro h x
    rw [List.map_congr_left fun p hm => ?_]
    rw [mem_portsUpTo] at hm
    rw [h p hm.1 hm.2]

/-! ## The right side of a range -/

theorem nonblank_of_validBackendList (h : validBackendList (trimRightSpace v) = true) :
    ∀ b ∈ split (trimSpace v) (byte '|'), trimSpace b ≠ [] := by
  simp only [validBackendList, Bool.and_eq_true, List.all_eq_true, decide_eq_true_eq] at h
  intro b hb hblank
  have hmap : trimSpace b ∈ (split (trimRightSpace v) (byte '|')).map trimSpace := by
    rw [split_trimRightSpace solid_pipe, ← split_trimSpace solid_pipe]
    exact List.mem_map_of_mem hb
  obtain ⟨c, hc, he⟩ := List.mem_map.mp hmap
  exact h.1 c hc (he.trans hblank)

theorem ne_nil_of_nonblank (h : ∀ b ∈ split r (byte '|'), trimSpace b ≠ []) : r ≠ [] := by
  rintro rfl
  exact h [] (by simp [split]) rfl

theorem split_local (n : Int) :
    split (lit "127.0.0.1:" ++ itoa n) (byte ':') = [lit "127.0.0.1", itoa n] := by
  have hlit : lit "127.0.0.1:" ++ itoa n = lit "127.0.0.1" ++ byte ':' :: itoa n := rfl
  rw [hlit, split_append (by decide), split_of_not_mem fun hm => absurd (itoa_mem hm) (by decide)]

theorem pipe_not_mem_local (n : Int) : byte '|' ∉ lit "127.0.0.1:" ++ itoa n := by
  rw [List.mem_append, not_or]
  exact ⟨by decide, fun hm => absurd (itoa_mem hm) (by decide)⟩

theorem dialed_local (h1 : 1 ≤ n) (h2 : n ≤ 65535) :
    dialed (lit "127.0.0.1:" ++ itoa n) = some (lit "127.0.0.1:" ++ itoa n) := by
  have hn : atoi (itoa n) = some n := atoi_itoa (by omega) (by omega)
  rw [dialed_of_single (pipe_not_mem_local n)]
  simp only [resolveSingle, split_local, hn, Option.map_some]

theorem dialed_ne_local_of_pipe (hp : byte '|' ∈ r)
    (hne : ∀ b ∈ split r (byte '|'), trimSpace b ≠ []) :
    dialed r ≠ some (lit "127.0.0.1:" ++ itoa n) := by
  intro h
  rw [dialed_of_pipe hp] at h
  obtain ⟨res, hres, hjoin⟩ := Option.map_eq_some_iff.mp h
  have hlen : (res.map Prod.snd).length = (split r (byte '|')).length := by
    rw [List.length_map, resolveParts_length_eq hres hne]
  have hnil : res.map Prod.snd ≠ [] := by
    intro h0
    rw [h0] at hlen
    exact split_ne_nil r (byte '|') (List.length_eq_zero_iff.mp hlen.symm)
  have hsplit := split_join (pipe_not_mem_resolved hres fun b hb => (mem_split hb).1) hnil
  rw [hjoin, split_of_not_mem (pipe_not_mem_local n)] at hsplit
  rw [← hsplit] at hlen
  exact split_eq_singleton hlen.symm hp

theorem dialed_eq_local (h1 : 1 ≤ n) (h2 : n ≤ 65535)
    (hne : ∀ b ∈ split r (byte '|'), trimSpace b ≠ []) :
    dialed r = some (lit "127.0.0.1:" ++ itoa n) ↔
      atoi r = some n ∨ r = lit "127.0.0.1:" ++ itoa n := by
  constructor
  · intro h
    by_cases hp : byte '|' ∈ r
    · exact absurd h (dialed_ne_local_of_pipe hp hne)
    rw [dialed_of_single hp] at h
    obtain ⟨⟨port, addr⟩, hr, rfl⟩ := Option.map_eq_some_iff.mp h
    unfold resolveSingle at hr
    split at hr
    · rename_i p hsplit
      obtain ⟨m, hm, he⟩ := Option.map_eq_some_iff.mp hr
      simp only [Prod.mk.injEq, List.append_cancel_left_eq] at he
      have hr : r = p := by
        rw [← join_split r (byte ':'), hsplit]
        simp [join]
      rw [hr, hm, itoa_inj he.2]
      exact Or.inl rfl
    · obtain ⟨m, _, he⟩ := Option.map_eq_some_iff.mp hr
      exact Or.inr (Prod.mk.inj he).2
    · cases hr
  · rintro (h | rfl)
    · rw [dialed_of_single (not_mem_of_atoi h (by decide)), resolveSingle_of_atoi h]
      rfl
    · exact dialed_local h1 h2

end ArangeTun.Ports
