import ArangeTun.Ports.Lemmas.Expand

/-! # What the panel accepts, and what the transports make of it -/

namespace ArangeTun.Ports

open Go List Option

/-! ## The engine -/

/-- An address the engine can listen on: `:p`, or a `host:port`, with a port in range. -/
def ListenAddr (addr : Str) : Prop :=
  (∃ p : Int, 1 ≤ p ∧ p ≤ 65535 ∧ addr = byte ':' :: itoa p) ∨
  ∃ h p n, splitHostPort addr = some (h, p) ∧ atoi p = some n ∧ 1 ≤ n ∧ n ≤ 65535

/-- The engine does not end the process on the entry, and listens on usable addresses. -/
def Runs (s : Str) : Prop :=
  (parsePortMappings [s]).fatal = none ∧
    ∀ l ∈ (parsePortMappings [s]).listeners, ListenAddr l.localAddr

/-- An entry has at most one `=`, and before it no dash with a colon and not the port 1 or 65535. -/
def Runnable (s : Str) : Prop :=
  match split s (byte '=') with
  | [_] => True
  | [u, _] => ¬ (byte '-' ∈ trimSpace u ∧ byte ':' ∈ trimSpace u) ∧
      atoi (trimSpace u) ≠ some 1 ∧ atoi (trimSpace u) ≠ some 65535
  | _ => False

theorem runs_of_ok {s : Str} {ls : List Listener} (h : parsePortMapping s = .ok ls) :
    Runs s ↔ ∀ l ∈ ls, ListenAddr l.localAddr := by
  simp [Runs, parsePortMappings_singleton, h]

theorem not_runs_of_error {s e : Str} (h : parsePortMapping s = .error e) : ¬ Runs s := by
  simp [Runs, parsePortMappings_singleton, h]

theorem listenAddr_port {p : Int} (h1 : 1 ≤ p) (h2 : p ≤ 65535) : ListenAddr (byte ':' :: itoa p) :=
  Or.inl ⟨p, h1, h2, rfl⟩

theorem not_listenAddr_of_atoi {l : Str} {n : Int} (h : atoi l = some n) : ¬ ListenAddr l := by
  have hc := colon_not_mem_of_atoi h
  rintro (⟨p, _, _, rfl⟩ | ⟨h', p, n', hsp, _⟩)
  · exact hc (by simp)
  · exact hc (mem_of_splitHostPort hsp)

theorem runs_range {s : Str} {lo hi : Int} (f : Int → Str) (h1 : 1 ≤ lo) (h2 : hi ≤ 65535)
    (h : parsePortMapping s =
      .ok ((portsUpTo lo hi).map fun port => ⟨byte ':' :: itoa port, f port⟩)) : Runs s := by
  rw [runs_of_ok h]
  intro l hl
  obtain ⟨p, hp, rfl⟩ := List.mem_map.mp hl
  rw [mem_portsUpTo] at hp
  exact listenAddr_port (by omega) (by omega)

/-- For an entry that the panel accepts, the engine runs it exactly when it is `Runnable`. -/
theorem runs_iff_runnable {s : Str} (h : validPortSpec s = true) : Runs s ↔ Runnable s := by
  rcases validPortSpec_cases h with ⟨hs, hshape, hcolon⟩ | ⟨u, v, rfl, hu, _, hshape⟩
  · have hrun : Runnable s := by simp only [Runnable, split_of_not_mem hs]
    refine iff_of_true ?_ hrun
    cases hshape with
    | host hsp _ _ _ _ => exact absurd (mem_of_splitHostPort hsp) hcolon
    | range hab hlo hhi h1 h2 h3 =>
      have hr := rangeBounds_eq_ok.mpr ⟨_, _, hab, hlo, hhi, h1, h2, h3⟩
      exact runs_range itoa h1 h3 (parse_bare_range hs hr)
    | single hd hn h1 h2 =>
      rw [runs_of_ok (parse_bare_port hs hd hn h1 h2)]
      simpa using listenAddr_port h1 h2
  by_cases hv : byte '=' ∈ v
  · obtain ⟨⟨a, b, c, rest, hsplit⟩, e, he⟩ := parse_two_equals hu hv
    refine iff_of_false (not_runs_of_error he) ?_
    simp only [Runnable, hsplit, not_false_eq_true]
  · simp only [Runnable, split_pair hu hv]
    cases hshape with
    | host hsp hne hn h1 h2 =>
      have hcolon := mem_of_splitHostPort hsp
      have hatoi : atoi (trimSpace u) = none := atoi_eq_none_of_mem hcolon (by decide)
      by_cases hd : byte '-' ∈ trimSpace u
      · obtain ⟨e, he⟩ := rangeBounds_of_colon hcolon
        refine iff_of_false (not_runs_of_error (parse_range_error hu hv hd he)) ?_
        simp [hd, hcolon]
      · refine iff_of_true ?_ (by simp [hd, hatoi])
        rw [runs_of_ok (parse_verbatim hu hv hd (by simp [hatoi]))]
        simp only [mem_singleton, forall_eq]
        exact Or.inr ⟨_, _, _, hsp, hn, h1, h2⟩
    | range hab hlo hhi h1 h2 h3 =>
      have hr := rangeBounds_eq_ok.mpr ⟨_, _, hab, hlo, hhi, h1, h2, h3⟩
      have hd := dash_mem_of_split hab
      refine iff_of_true (runs_range (fun _ => trimSpace v) h1 h3 (parse_range hu hv hr)) ?_
      refine ⟨fun hc => colon_not_mem_of_range hab hlo hhi hc.2, ?_, ?_⟩
      · intro ha; have := atoi_of_dash hd ha; omega
      · intro ha; have := atoi_of_dash hd ha; omega
    | @single n hd hn h1 h2 =>
      by_cases hin : 1 < n ∧ n < 65535
      · refine iff_of_true ?_ ?_
        · rw [runs_of_ok (parse_port hu hv hd hn hin.1 hin.2)]
          simpa using listenAddr_port h1 h2
        · simp only [hd, hn, false_and, not_false_eq_true, ne_eq, Option.some.injEq, true_and]
          omega
      · refine iff_of_false ?_ ?_
        · rw [runs_of_ok (parse_verbatim hu hv hd (by simpa [hn] using hin))]
          simpa using not_listenAddr_of_atoi hn
        · simp only [hd, hn, false_and, not_false_eq_true, ne_eq, Option.some.injEq, true_and]
          omega

theorem runs_iff_runnable_at_address :
    validPortSpec (lit "1.1.1.1:443=127.0.0.1:8443") = true ∧
      (Runs (lit "1.1.1.1:443=127.0.0.1:8443") ↔ Runnable (lit "1.1.1.1:443=127.0.0.1:8443")) :=
  ⟨by decide, runs_iff_runnable (by decide)⟩

/-- Three accepted entries that the engine cannot run, one for each way an entry is not `Runnable`. -/
theorem accepted_entries_not_run :
    (validPortSpec (lit "443=a=b") = true ∧ ¬ Runs (lit "443=a=b")) ∧
    (validPortSpec (lit "my-host:80=80") = true ∧ ¬ Runs (lit "my-host:80=80")) ∧
    (validPortSpec (lit "1=80") = true ∧ ¬ Runs (lit "1=80")) := by
  have hfatal : (parsePortMappings [lit "443=a=b"]).fatal ≠ none := by decide
  have hrange : (parsePortMappings [lit "my-host:80=80"]).fatal ≠ none := by decide
  have hport : (parsePortMappings [lit "1=80"]).listeners = [⟨lit "1", lit "80"⟩] := by decide
  refine ⟨⟨by decide, fun h => hfatal h.1⟩, ⟨by decide, fun h => hrange h.1⟩, by decide, ?_⟩
  intro h
  have hl := h.2 ⟨lit "1", lit "80"⟩ (by rw [hport]; simp)
  have hone : atoi (lit "1") = some 1 := by decide
  exact not_listenAddr_of_atoi hone hl

/-! ## The other transports -/

def enginePairs (ports : List Str) : List (Option Int × Option Str) :=
  (parsePortMappings ports).listeners.map Listener.pair

def frpPairs (ports : List Str) : List (Option Int × Option Str) := (Frp.mappings ports).map Mapping.pair

def ratholePairs (ports : List Str) : List (Option Int × Option Str) :=
  (Rathole.mappings ports).map Mapping.pair

def SamePairs (ports : List Str) : Prop :=
  (∀ x, x ∈ enginePairs ports ↔ x ∈ frpPairs ports) ∧
    ∀ x, x ∈ enginePairs ports ↔ x ∈ ratholePairs ports

/-- A bare port is in its plain spelling; a range with a right side has one port, which the right side
names; any other target is plain. -/
def Portable (s : Str) : Prop :=
  match split s (byte '=') with
  | [p] => byte '-' ∈ p ∨ Canonical (trimSpace p)
  | [p, d] =>
    if byte '-' ∈ trimSpace p then
      ∃ a b n, split (trimSpace p) (byte '-') = [a, b] ∧
        atoi (trimSpace a) = some n ∧ atoi (trimSpace b) = some n ∧
        (atoi (trimSpace d) = some n ∨ trimSpace d = lit "127.0.0.1:" ++ itoa n)
    else atoi (trimSpace p) ≠ some 1 ∧ atoi (trimSpace p) ≠ some 65535 ∧ PlainTarget (trimSpace d)
  | _ => False

theorem enginePairs_cons {s : Str} {ls : List Listener} (h : parsePortMapping s = .ok ls)
    (ports : List Str) : enginePairs (s :: ports) = ls.map Listener.pair ++ enginePairs ports := by
  simp only [enginePairs, parsePortMappings, h, map_append]

theorem frpPairs_cons (s : Str) (ports : List Str) :
    frpPairs (s :: ports) = (expandEntry s).map Mapping.pair ++ frpPairs ports := by
  simp only [frpPairs, Frp.mappings, flatMap_cons, map_append]

theorem samePairs_iff {ports : List Str} :
    SamePairs ports ↔ ∀ x, x ∈ enginePairs ports ↔ x ∈ frpPairs ports :=
  and_iff_left_of_imp fun h => h

theorem samePairs_of_entries {ports : List Str} (h : ∀ s ∈ ports, SameEntry s) : SamePairs ports := by
  rw [samePairs_iff]
  induction ports with
  | nil => exact fun _ => Iff.rfl
  | cons s ports ih =>
    obtain ⟨ls, hls, hx⟩ := h s (by simp)
    intro x
    rw [enginePairs_cons hls, frpPairs_cons, mem_append, mem_append, hx x,
      ih (fun t ht => h t (by simp [ht])) x]

theorem samePairs_singleton {s : Str} (hs : trimSpace s ≠ []) : SamePairs [s] ↔ SameEntry s := by
  refine ⟨fun h => ?_, fun h => samePairs_of_entries (by simpa using h)⟩
  rw [samePairs_iff] at h
  cases hp : parsePortMapping s with
  | ok ls =>
    refine ⟨ls, hp, fun x => ?_⟩
    have hx := h x
    rw [enginePairs_cons hp, frpPairs_cons] at hx
    simpa [enginePairs, frpPairs, parsePortMappings, Frp.mappings] using hx
  | error e =>
    -- the engine derives nothing, the others derive something
    obtain ⟨m, ms, hm⟩ := exists_cons_of_ne_nil (expandEntry_ne_nil hs)
    have hx := h m.pair
    rw [frpPairs_cons, hm] at hx
    simp [enginePairs, parsePortMappings, hp] at hx

theorem sameEntry_bare {s : Str} (hs : byte '=' ∉ s) (hshape : LeftShape (trimSpace s))
    (hcolon : byte ':' ∉ trimSpace s) : SameEntry s ↔ Portable s := by
  simp only [Portable, split_of_not_mem hs]
  rw [← mem_trimSpace solid_dash]
  cases hshape with
  | host hsp _ _ _ _ => exact absurd (mem_of_splitHostPort hsp) hcolon
  | range hab hlo hhi h1 h2 h3 =>
    have hr := rangeBounds_eq_ok.mpr ⟨_, _, hab, hlo, hhi, h1, h2, h3⟩
    refine iff_of_true ?_ (Or.inl (dash_mem_of_split hab))
    rw [sameEntry_range itoa h1 h3 (parse_bare_range hs hr)
      (expand_bare_range hs (portRange_of_split hab hlo hhi h1 h2 h3))]
    intro p hp1 hp2
    have hp : atoi (itoa p) = some p := atoi_itoa (by omega) (by omega)
    rw [dialed_of_single (not_mem_of_atoi hp (by decide)), resolveSingle_of_atoi hp]
    rfl
  | single hd hn h1 h2 =>
    rw [sameEntry_single (parse_bare_port hs hd hn h1 h2) (expand_bare_port hs hd hn),
      listenPort_itoa h1 h2, listenPort_of_atoi hn, dialed_of_single (not_mem_of_atoi hn (by decide)),
      resolveSingle_of_atoi hn, normalizeTarget_of_atoi hn]
    simp [hd, Canonical, hn]

theorem sameEntry_pair {u v : Str} (hu : byte '=' ∉ u) (hv : byte '=' ∉ v)
    (hback : validBackendList (trimRightSpace v) = true) (hshape : LeftShape (trimSpace u)) :
    SameEntry (u ++ byte '=' :: v) ↔ Portable (u ++ byte '=' :: v) := by
  have hblank := nonblank_of_validBackendList hback
  have hv0 : trimSpace v ≠ [] := ne_nil_of_nonblank hblank
  have hplain := dialed_eq_normalizeTarget (trimSpace_trimSpace v)
  simp only [Portable, split_pair hu hv]
  cases hshape with
  | host hsp hne hn h1 h2 =>
    have hcolon := mem_of_splitHostPort hsp
    have hatoi : atoi (trimSpace u) = none := atoi_eq_none_of_mem hcolon (by decide)
    by_cases hd : byte '-' ∈ trimSpace u
    · obtain ⟨e, he⟩ := rangeBounds_of_colon hcolon
      refine iff_of_false (not_sameEntry_of_error (parse_range_error hu hv hd he)) ?_
      rw [if_pos hd]
      rintro ⟨a, b, n, hab, ha, hb, _⟩
      exact colon_not_mem_of_range hab ha hb hcolon
    · rw [sameEntry_single (parse_verbatim hu hv hd (by simp [hatoi])) (expand_single hu hd hv0),
        hplain]
      simp [hd, hatoi]
  | @range a b lo hi hab hlo hhi h1 h2 h3 =>
    have hr := rangeBounds_eq_ok.mpr ⟨_, _, hab, hlo, hhi, h1, h2, h3⟩
    rw [if_pos (dash_mem_of_split hab),
      sameEntry_range (fun _ => trimSpace v) h1 h3 (parse_range hu hv hr)
        (expand_range hu (portRange_of_split hab hlo hhi h1 h2 h3))]
    constructor
    · intro h
      have hfirst := h lo (Int.le_refl lo) h2
      have hlast := h hi h2 (Int.le_refl hi)
      rw [hfirst, Option.some.injEq, append_cancel_left_eq] at hlast
      obtain rfl := itoa_inj hlast
      exact ⟨a, b, lo, hab, hlo, hhi, (dialed_eq_local h1 h3 hblank).mp hfirst⟩
    · rintro ⟨a', b', n, hab', ha', hb', hr'⟩ p hp1 hp2
      rw [hab, List.cons.injEq, List.cons.injEq] at hab'
      obtain ⟨rfl, rfl, _⟩ := hab'
      rw [hlo, Option.some.injEq] at ha'
      rw [hhi, Option.some.injEq] at hb'
      have hp : p = n := by omega
      subst hp
      exact (dialed_eq_local (by omega) (by omega) hblank).mpr hr'
  | @single n hd hn h1 h2 =>
    rw [if_neg hd]
    by_cases hin : 1 < n ∧ n < 65535
    · rw [sameEntry_single (parse_port hu hv hd hn hin.1 hin.2) (expand_single hu hd hv0), hplain,
        hn, isSome_some, if_pos rfl, listenPort_itoa h1 h2, listenPort_of_atoi hn]
      simp only [true_and, ne_eq, Option.some.injEq]
      constructor
      · intro h
        exact ⟨by omega, by omega, h⟩
      · exact fun h => h.2.2
    · rw [sameEntry_single (parse_verbatim hu hv hd (by simpa [hn] using hin))
        (expand_single hu hd hv0), hn, isSome_some, if_pos rfl,
        listenPort_of_not_mem (colon_not_mem_of_atoi hn), listenPort_of_atoi hn]
      refine iff_of_false (by simp) ?_
      simp only [ne_eq, Option.some.injEq]
      omega

theorem sameEntry_iff_portable {s : Str} (h : validPortSpec s = true) : SameEntry s ↔ Portable s := by
  rcases validPortSpec_cases h with ⟨hs, hshape, hcolon⟩ | ⟨u, v, rfl, hu, hback, hshape⟩
  · exact sameEntry_bare hs hshape hcolon
  · by_cases hv : byte '=' ∈ v
    · obtain ⟨⟨a, b, c, rest, hsplit⟩, e, he⟩ := parse_two_equals hu hv
      refine iff_of_false (not_sameEntry_of_error he) ?_
      simp only [Portable, hsplit, not_false_eq_true]
    · exact sameEntry_pair hu hv hback hshape

theorem trimSpace_ne_nil_of_valid {s : Str} (h : validPortSpec s = true) : trimSpace s ≠ [] := by
  intro h0
  simp [validPortSpec, h0, splitN2, cut, trimSpace_of_solid] at h

/-- Over accepted entries, the three transports agree on every list exactly when every entry is
`Portable`. -/
theorem samePairs_iff_portable {ports : List Str} (h : ∀ s ∈ ports, validPortSpec s = true) :
    (∀ chosen, chosen ⊆ ports → SamePairs chosen) ↔ ∀ s ∈ ports, Portable s := by
  constructor
  · intro hall s hs
    have hsingle : SamePairs [s] := hall [s] (by simpa using hs)
    rw [samePairs_singleton (trimSpace_ne_nil_of_valid (h s hs))] at hsingle
    exact (sameEntry_iff_portable (h s hs)).mp hsingle
  · intro hall chosen hsub
    refine samePairs_of_entries fun s hs => ?_
    exact (sameEntry_iff_portable (h s (hsub hs))).mpr (hall s (hsub hs))

theorem samePairs_iff_portable_at_ports :
    (∀ s ∈ [lit "443", lit "8000-8010", lit "80=127.0.0.1:2096"], validPortSpec s = true) ∧
      ((∀ chosen, chosen ⊆ [lit "443", lit "8000-8010", lit "80=127.0.0.1:2096"] → SamePairs chosen) ↔
        ∀ s ∈ [lit "443", lit "8000-8010", lit "80=127.0.0.1:2096"], Portable s) :=
  ⟨by decide, samePairs_iff_portable (by decide)⟩

/-- The right side of a range is dropped by frp and rathole. -/
theorem accepted_range_differs :
    validPortSpec (lit "8000-8001=9000") = true ∧ ¬ SamePairs [lit "8000-8001=9000"] := by
  have hengine : (some 8000, some (lit "127.0.0.1:9000")) ∈ enginePairs [lit "8000-8001=9000"] := by decide
  have hfrp : (some 8000, some (lit "127.0.0.1:9000")) ∉ frpPairs [lit "8000-8001=9000"] := by decide
  exact ⟨by decide, fun h => hfrp ((h.1 _).mp hengine)⟩

end ArangeTun.Ports
