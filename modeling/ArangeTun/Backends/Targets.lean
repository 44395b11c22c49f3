import ArangeTun.Backends.Model
import ArangeTun.UdpTransport.Target

/-! # Targets -/

namespace ArangeTun.Backends

open Go Ports UdpTransport List Option

/-! ## Hosts and ports -/

/-- A host and a port that `net.SplitHostPort` accepts, the port in its range. -/
def HostPort (a : Str) (n : Int) : Prop :=
  ∃ h p, splitHostPort a = some (h, p) ∧ atoi p = some n ∧ 1 ≤ n ∧ n ≤ 65535

def Names (b : Str) (n : Int) : Prop := (atoi b = some n ∧ 1 ≤ n ∧ n ≤ 65535) ∨ HostPort b n

theorem HostPort.colon_mem {a : Str} {n : Int} (h : HostPort a n) : byte ':' ∈ a := by
  obtain ⟨_, _, hsplit, _⟩ := h
  exact mem_of_splitHostPort hsplit

theorem hostPort_local {m n : Int} (hm : atoi (itoa m) = some m) :
    HostPort (lit "127.0.0.1:" ++ itoa m) n ↔ n = m ∧ 1 ≤ n ∧ n ≤ 65535 := by
  have hsplit : splitHostPort (lit "127.0.0.1:" ++ itoa m) = some (lit "127.0.0.1", itoa m) :=
    splitHostPort_plain (h := lit "127.0.0.1") (by decide) fun _ => itoa_mem
  simp only [HostPort, hsplit, Option.some.injEq, Prod.mk.injEq]
  constructor
  · rintro ⟨_, _, ⟨rfl, rfl⟩, hn, hrange⟩
    rw [hm, Option.some.injEq] at hn
    exact ⟨hn.symm, hrange⟩
  · rintro ⟨rfl, hrange⟩
    exact ⟨_, _, ⟨rfl, rfl⟩, hm, hrange⟩

/-! ## One backend -/

section

variable {b a : Str} {port n : Int}

theorem atoi_itoa_of_atoi (h : atoi b = some n) : atoi (itoa n) = some n := by
  obtain ⟨-, hlo, hhi⟩ := atoi_eq_some.mp h
  exact atoi_itoa hlo hhi

theorem hostPort_iff (h : resolveSingle b = some (port, a)) : HostPort a n ↔ Names b n := by
  obtain ⟨hport, rfl⟩ | ⟨hcolon, -, rfl⟩ := resolveSingle_eq_some.mp h
  · have hno : ¬ HostPort b n := fun hb => colon_not_mem_of_atoi hport hb.colon_mem
    rw [hostPort_local (atoi_itoa_of_atoi hport), Names, or_iff_left hno, hport, Option.some.injEq, eq_comm]
  · have hno : atoi a ≠ some n := fun hn => colon_not_mem_of_atoi hn hcolon
    rw [Names, or_iff_right fun hn => hno hn.1]

theorem atoi_portText (h : resolveSingle b = some (port, a)) : atoi (portText b) = some port := by
  obtain ⟨hport, -⟩ | ⟨-, hport, -⟩ := resolveSingle_eq_some.mp h
  · rwa [portText, split_of_not_mem (colon_not_mem_of_atoi hport)]
  · exact hport

theorem resolveSingle_address (h : resolveSingle b = some (port, a)) : resolveSingle a = some (port, a) := by
  obtain ⟨hport, rfl⟩ | ⟨-, -, rfl⟩ := resolveSingle_eq_some.mp h
  · refine resolveSingle_eq_some.mpr (.inr ⟨colon_mem_local port, ?_, rfl⟩)
    rw [portText_local]
    exact atoi_itoa_of_atoi hport
  · exact h

theorem trimSpace_local (n : Int) : trimSpace (lit "127.0.0.1:" ++ itoa n) = lit "127.0.0.1:" ++ itoa n := by
  have hhost : ∀ c ∈ lit "127.0.0.1:", Solid c := by decide +kernel
  refine trimSpace_of_solid fun c hc => ?_
  rcases mem_append.mp hc with hc | hc
  · exact hhost c hc
  · exact numeral_solid (itoa_mem hc)

theorem trimRightSpace_of_atoi (h : atoi b = some n) : trimRightSpace b = b := by
  obtain ⟨r, hr, he⟩ := trimRightCodes_split spaceCodes_prefixFree.nonempty b
  have hnil : r = [] := Coded.eq_nil hr fun c hc => numeral_solid (atoi_mem h (he ▸ mem_append_right _ hc))
  rw [hnil, append_nil] at he
  exact he.symm

theorem portText_append {u v : Str} (hu : byte ':' ∉ u) :
    portText (u ++ byte ':' :: v) = (split v (byte ':')).headD [] := by
  rw [portText, split_append hu]
  cases hv : split v (byte ':') with
  | nil => exact absurd hv (split_ne_nil v _)
  | cons p rest => rfl

theorem portText_trimSpace (hcolon : byte ':' ∈ b) (h : atoi (portText b) = some n) :
    portText (trimSpace b) = portText b := by
  obtain hno | ⟨u, v, rfl, hu⟩ := split_cases b (byte ':')
  · exact absurd hcolon hno
  · rw [trimSpace_barrier solid_colon, portText_append (not_mem_trimLeftSpace hu), portText_append hu] at *
    obtain hv | ⟨p, w, rfl, hp⟩ := split_cases v (byte ':')
    · rw [split_of_not_mem hv, headD_cons] at h
      rw [trimRightSpace_of_atoi h]
    · rw [trimRightSpace_barrier solid_colon, split_append hp, split_append hp]
      rfl

theorem resolveSingle_trimSpace (h : resolveSingle b = some (port, a)) :
    resolveSingle (trimSpace b) = some (port, trimSpace a) := by
  obtain ⟨hport, rfl⟩ | ⟨hcolon, hport, rfl⟩ := resolveSingle_eq_some.mp h
  · rw [atoi_trimSpace hport, trimSpace_local]
    exact h
  · refine resolveSingle_eq_some.mpr (.inr ⟨(mem_trimSpace solid_colon).mpr hcolon, ?_, rfl⟩)
    rwa [portText_trimSpace hcolon hport]

end

/-! ## Lists of backends -/

theorem mem_splitBackends {s b : Str} (h : b ∈ splitBackends s) : byte '|' ∉ b ∧ trimSpace b = b ∧ b ≠ [] := by
  obtain ⟨hmem, hne⟩ := mem_filter.mp h
  obtain ⟨part, hpart, rfl⟩ := List.mem_map.mp hmem
  exact ⟨fun hm => (mem_split hpart).1 (mem_of_mem_trimSpace hm), trimSpace_trimSpace part, of_decide_eq_true hne⟩

theorem filter_map_trimSpace {as : List Str} (h : ∀ a ∈ as, trimSpace a = a ∧ a ≠ []) :
    (as.map trimSpace).filter (· ≠ []) = as := by
  rw [map_congr_left fun a ha => (h a ha).1, List.map_id', filter_eq_self]
  exact fun a ha => decide_eq_true (h a ha).2

theorem splitBackends_of_single {s : Str} (hs : byte '|' ∉ s) (hne : trimSpace s ≠ []) :
    splitBackends s = [trimSpace s] := by
  rw [splitBackends, backendSep, split_of_not_mem hs, map_singleton, filter_singleton, decide_eq_true hne]
  rfl

theorem splitBackends_join {as : List Str} (h : ∀ a ∈ as, byte '|' ∉ a ∧ trimSpace a = a ∧ a ≠ []) :
    splitBackends (join as (byte '|')) = as := by
  by_cases has : as = []
  · rw [has]
    decide
  · rw [splitBackends, backendSep, split_join (fun a ha => (h a ha).1) has]
    exact filter_map_trimSpace fun a ha => (h a ha).2

/-- The backends of a target with what `ResolveRemoteAddr` makes of each. -/
def Resolved (bs : List Str) (res : List (Int × Str)) : Prop :=
  List.Forall₂ (fun b r => resolveSingle b = some r) bs res

namespace Resolved

variable {bs : List Str} {res : List (Int × Str)}

theorem addresses (h : Resolved bs res) (hbs : ∀ b ∈ bs, byte '|' ∉ b ∧ trimSpace b = b ∧ b ≠ []) :
    ∀ a ∈ res.map Prod.snd, byte '|' ∉ a ∧ trimSpace a = a ∧ a ≠ [] := by
  induction h with
  | nil => simp
  | @cons b r bs res hb _ ih =>
    rw [forall_mem_cons] at hbs
    rw [map_cons, forall_mem_cons]
    have haddr : Address b r.2 := ⟨r.1, hb⟩
    refine ⟨⟨pipe_not_mem_address haddr hbs.1.1, ?_, address_ne_nil haddr⟩, ih hbs.2⟩
    have htrim := resolveSingle_trimSpace (show resolveSingle b = some (r.1, r.2) from hb)
    rw [hbs.1.2.1, hb, Option.some.injEq] at htrim
    exact (congrArg Prod.snd htrim).symm

theorem self (h : Resolved bs res) : Resolved (res.map Prod.snd) res := by
  induction h with
  | nil => exact .nil
  | cons hb _ ih => exact .cons (resolveSingle_address hb) ih

theorem resolve_join (h : Resolved bs res) (hbs : ∀ b ∈ bs, byte '|' ∉ b ∧ trimSpace b = b ∧ b ≠ []) {r : Int × Str}
    (hr : res.head? = some r) :
    resolveRemoteAddr (join (res.map Prod.snd) (byte '|')) = some (r.1, join (res.map Prod.snd) (byte '|')) := by
  have haddr := h.addresses hbs
  have hself := h.self
  obtain _ | ⟨r, _ | ⟨r', res⟩⟩ := res
  · cases hr
  · cases hr
    rw [map_singleton, forall_mem_singleton] at haddr
    have hjoin : join ([r].map Prod.snd) (byte '|') = r.2 := by simp [Go.join]
    rw [hjoin, resolveRemoteAddr, if_neg haddr.1]
    exact (forall₂_cons.mp hself).1
  · cases hr
    have hpipe : byte '|' ∈ join ((r :: r' :: res).map Prod.snd) (byte '|') := by simp [Go.join, List.intercalate]
    have hsplit : split (join ((r :: r' :: res).map Prod.snd) (byte '|')) (byte '|') = (r :: r' :: res).map Prod.snd :=
      split_join (fun a ha => (haddr a ha).1) (cons_ne_nil _ _)
    have hparts : resolveParts ((r :: r' :: res).map Prod.snd) = some (r :: r' :: res) := by
      rw [resolveParts_eq_some, filter_map_trimSpace fun a ha => (haddr a ha).2]
      exact hself
    have hfirst : trimSpace r.2 ≠ [] := by
      obtain ⟨-, htrim, hne⟩ := haddr r.2 (by simp)
      rwa [htrim]
    simp only [resolveRemoteAddr, if_pos hpipe, hsplit, hparts]
    rw [map_cons, headD_cons, if_neg hfirst, headD_cons]

theorem parts (h : Resolved bs res) (hbs : ∀ b ∈ bs, byte '|' ∉ b) :
    List.Forall₂ (fun part a => ∃ p, resolveRemoteAddr part = some (p, a)) bs (res.map Prod.snd) := by
  induction h with
  | nil => exact .nil
  | @cons b r bs res hb _ ih =>
    rw [forall_mem_cons] at hbs
    refine .cons ⟨r.1, ?_⟩ (ih hbs.2)
    rw [resolveRemoteAddr, if_neg hbs.1]
    exact hb

theorem forall_iff {P : Str → Prop} {Q : Str → Prop} (h : Resolved bs res)
    (hPQ : ∀ b r, resolveSingle b = some r → (P b ↔ Q r.2)) : (∀ b ∈ bs, P b) ↔ ∀ a ∈ res.map Prod.snd, Q a := by
  induction h with
  | nil => simp
  | cons hb _ ih => rw [map_cons, forall_mem_cons, forall_mem_cons, hPQ _ _ hb, ih]

end Resolved

/-! ## Targets -/

def FirstBlank (s : Str) : Prop := trimSpace ((split s backendSep).headD []) = []

theorem splitBackends_ne_nil {s : Str} (h : ¬ FirstBlank s) : splitBackends s ≠ [] := by
  unfold FirstBlank at h
  cases hs : split s backendSep with
  | nil => exact absurd hs (split_ne_nil s _)
  | cons p rest =>
    rw [hs, headD_cons] at h
    exact ne_nil_of_mem (mem_filter.mpr ⟨by simp [hs], decide_eq_true h⟩)

structure Returns (s : Str) (port : Int) (addr : Str) (res : List (Int × Str)) : Prop where
  resolved : Resolved (splitBackends s) res
  split : splitBackends addr = res.map Prod.snd
  blank : FirstBlank s → port = 0
  first : ∀ r, res.head? = some r → ¬ FirstBlank s → port = r.1
  again : ∀ r, res.head? = some r → resolveRemoteAddr addr = some (r.1, addr)
  nothing : res = [] → resolveRemoteAddr addr = none

theorem exists_returns {s addr : Str} {port : Int} (h : resolveRemoteAddr s = some (port, addr)) :
    ∃ res, Returns s port addr res := by
  by_cases hpipe : byte '|' ∈ s
  · simp only [resolveRemoteAddr, if_pos hpipe] at h
    split at h
    · cases h
    rename_i res hparts
    have hres : Resolved (splitBackends s) res := resolveParts_eq_some.mp hparts
    simp only [Option.some.injEq, Prod.mk.injEq] at h
    obtain ⟨rfl, rfl⟩ := h
    refine ⟨res, hres, splitBackends_join (hres.addresses fun _ => mem_splitBackends), fun hb => if_pos hb,
      fun r hr hb => ?_, fun r hr => hres.resolve_join (fun _ => mem_splitBackends) hr, ?_⟩
    · have hne : ¬ trimSpace ((split s (byte '|')).headD []) = [] := hb
      rw [if_neg hne, headD_eq_head?_getD, hr, getD_some]
    · rintro rfl
      decide
  · rw [resolveRemoteAddr, if_neg hpipe] at h
    have htrim := resolveSingle_trimSpace h
    have hs : trimSpace s ≠ [] := fun hs => by rw [hs] at htrim; cases htrim
    have hblank : ¬ FirstBlank s := by
      rw [FirstBlank, backendSep, split_of_not_mem hpipe]
      exact hs
    have haddr : byte '|' ∉ addr := pipe_not_mem_address ⟨port, h⟩ hpipe
    refine ⟨[(port, trimSpace addr)], ?_, splitBackends_of_single haddr (address_ne_nil ⟨port, htrim⟩),
      fun hb => absurd hb hblank, ?_, ?_, fun hnil => absurd hnil (cons_ne_nil _ _)⟩
    · rw [splitBackends_of_single hpipe hs]
      exact .cons htrim .nil
    · rintro _ ⟨⟩ -
      rfl
    · rintro _ ⟨⟩
      rw [resolveRemoteAddr, if_neg haddr]
      exact resolveSingle_address h

/-- The addresses of a target that resolved, and the target again, are what they should be. -/
structure Agrees (s : Str) (port : Int) (addr : Str) : Prop where
  addresses : List.Forall₂ (fun part a => ∃ p, resolveRemoteAddr part = some (p, a)) (splitBackends s)
    (splitBackends addr)
  valid : ∀ a ∈ splitBackends addr, ∃ n, HostPort a n
  first : ∀ a ∈ (splitBackends addr).head?, HostPort a port
  again : resolveRemoteAddr addr = some (port, addr)

/-- A target is resolved consistently, and it is accepted when it is one host and a port. -/
def Consistent (s : Str) : Prop :=
  (∀ port addr, resolveRemoteAddr s = some (port, addr) → Agrees s port addr) ∧
    (∀ n, HostPort s n → byte '|' ∉ s → ∃ r, resolveRemoteAddr s = some r)

/-- The target starts with a backend, every backend names a port, and the number between the first two colons of the
first backend (or before the first) is its port. -/
structure Proper (s : Str) : Prop where
  starts : ¬ FirstBlank s
  names : ∀ b ∈ splitBackends s, ∃ n, Names b n
  port : ∀ b ∈ (splitBackends s).head?, ∃ n, Names b n ∧ atoi (portText b) = some n

theorem agrees_iff {s addr : Str} {port : Int} (h : resolveRemoteAddr s = some (port, addr)) :
    Agrees s port addr ↔ Proper s := by
  obtain ⟨res, hr⟩ := exists_returns h
  have hnames : (∀ b ∈ splitBackends s, ∃ n, Names b n) ↔ ∀ a ∈ splitBackends addr, ∃ n, HostPort a n := by
    rw [hr.split]
    exact hr.resolved.forall_iff fun b r hb => exists_congr fun n => (hostPort_iff hb).symm
  constructor
  · rintro ⟨-, hvalid, hfirst, hagain⟩
    cases res with
    | nil =>
      rw [hr.nothing rfl] at hagain
      cases hagain
    | cons r rest =>
      rw [hr.again r rfl, Option.some.injEq, Prod.mk.injEq] at hagain
      obtain ⟨rfl, -⟩ := hagain
      have hport : HostPort r.2 r.1 := hfirst r.2 (by rw [hr.split]; rfl)
      refine ⟨fun hb => ?_, hnames.mpr hvalid, ?_⟩
      · -- the port that is returned then is zero
        obtain ⟨_, _, _, _, hpos, _⟩ := hport
        rw [hr.blank hb] at hpos
        exact absurd hpos (by decide)
      · cases hbs : splitBackends s with
        | nil => simp
        | cons b bs =>
          have hb : resolveSingle b = some r := by
            have hres := hr.resolved
            rw [hbs] at hres
            exact (forall₂_cons.mp hres).1
          rintro _ ⟨⟩
          exact ⟨r.1, (hostPort_iff hb).mp hport, atoi_portText hb⟩
  · rintro ⟨hstarts, hall, hport⟩
    cases hbs : splitBackends s with
    | nil => exact absurd hbs (splitBackends_ne_nil hstarts)
    | cons b bs =>
      have hres := hr.resolved
      rw [hbs] at hres
      obtain ⟨r, rest, hb, -, rfl⟩ := forall₂_cons_left_iff.mp hres
      obtain rfl := hr.first r rfl hstarts
      obtain ⟨n, hn, hread⟩ := hport b (by rw [hbs]; rfl)
      rw [atoi_portText hb, Option.some.injEq] at hread
      refine ⟨?_, hnames.mp hall, ?_, hr.again r rfl⟩
      · rw [hr.split]
        exact hr.resolved.parts fun _ hb => (mem_splitBackends hb).1
      · rw [hr.split]
        rintro _ ⟨⟩
        rw [hread]
        exact (hostPort_iff hb).mpr hn

theorem resolves_iff {s : Str} :
    (∃ r, resolveRemoteAddr s = some r) ↔ ∀ b ∈ backends s, (atoi (portText b)).isSome = true := by
  rw [← dialed_isSome]
  simp only [dialed, map_eq_some_iff]
  constructor
  · rintro ⟨r, hr⟩
    exact ⟨r.2, r, hr, rfl⟩
  · rintro ⟨_, r, hr, -⟩
    exact ⟨r, hr⟩

/-- Every backend has a number between its first two colons, or before the first. -/
def Numeric (s : Str) : Prop := ∀ b ∈ backends s, (atoi (portText b)).isSome = true

theorem consistent_iff (s : Str) :
    Consistent s ↔ (Numeric s → Proper s) ∧ ((∃ n, HostPort s n) → byte '|' ∉ s → Numeric s) := by
  unfold Consistent Numeric
  rw [← resolves_iff]
  refine and_congr ⟨?_, ?_⟩ ⟨?_, ?_⟩
  · rintro h ⟨⟨port, addr⟩, hr⟩
    exact (agrees_iff hr).mp (h port addr hr)
  · intro h port addr hr
    exact (agrees_iff hr).mpr (h ⟨_, hr⟩)
  · rintro h ⟨n, hn⟩
    exact h n hn
  · exact fun h n hn => h ⟨n, hn⟩

/-- A separator before the backend, an IPv6 address, one whose second group is a number, a port that is none, and two
ports. -/
theorem targets_not_consistent :
    ¬ Consistent (lit "|8443") ∧ ¬ Consistent (lit "[::1]:8443") ∧ ¬ Consistent (lit "[2001:80::1]:8443") ∧
      ¬ Consistent (lit "10.0.0.5:84430") ∧ ¬ Consistent (lit "10.0.0.5:8443:8444") := by
  refine ⟨fun h => ?_, fun h => ?_, fun h => ?_, fun h => ?_, fun h => ?_⟩
  · have hagain := (h.1 0 (lit "127.0.0.1:8443") (by decide +kernel)).again
    exact absurd hagain (by decide +kernel)
  · have hvalid : HostPort (lit "[::1]:8443") 8443 := ⟨lit "::1", lit "8443", by decide +kernel⟩
    obtain ⟨r, hr⟩ := h.2 8443 hvalid (by decide +kernel)
    rw [show resolveRemoteAddr (lit "[::1]:8443") = none by decide +kernel] at hr
    cases hr
  · obtain ⟨_, _, hsplit, hport, _⟩ :=
      (h.1 80 (lit "[2001:80::1]:8443") (by decide +kernel)).first (lit "[2001:80::1]:8443") (by decide +kernel)
    rw [show splitHostPort (lit "[2001:80::1]:8443") = some (lit "2001:80::1", lit "8443") by decide +kernel] at hsplit
    cases hsplit
    exact absurd hport (by decide +kernel)
  · obtain ⟨n, _, _, hsplit, hport, _, hle⟩ :=
      (h.1 84430 (lit "10.0.0.5:84430") (by decide +kernel)).valid (lit "10.0.0.5:84430") (by decide +kernel)
    rw [show splitHostPort (lit "10.0.0.5:84430") = some (lit "10.0.0.5", lit "84430") by decide +kernel] at hsplit
    cases hsplit
    rw [show atoi (lit "84430") = some 84430 by decide +kernel] at hport
    cases hport
    exact absurd hle (by decide)
  · obtain ⟨_, _, _, hsplit, _⟩ :=
      (h.1 8443 (lit "10.0.0.5:8443:8444") (by decide +kernel)).valid (lit "10.0.0.5:8443:8444") (by decide +kernel)
    rw [show splitHostPort (lit "10.0.0.5:8443:8444") = none by decide +kernel] at hsplit
    cases hsplit

end ArangeTun.Backends
