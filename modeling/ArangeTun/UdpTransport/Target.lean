import ArangeTun.Ports.Lemmas.Target
import ArangeTun.Wire.Model

/-!
# The target of a pool connection

The server writes `remoteAddr` as one datagram (internal/server/transport/udp.go), and the client reads it into a buffer
of 47 bytes (internal/client/transport/udp.go).
-/

namespace ArangeTun.UdpTransport

open Go Ports List Option

def targetBuffer : Nat := 47

inductive Outcome
  -- no datagram but pings so far
  | waiting
  | failed
  | target (port : Int) (remoteAddr : Str)
  deriving DecidableEq

def handleTunnelConn : List Str → Outcome
  | [] => .waiting
  | datagram :: rest =>
    let buffer := datagram.take targetBuffer
    if buffer = [Wire.SG_Ping] then handleTunnelConn rest
    else
      match resolveRemoteAddr buffer with
      | none => .failed
      | some (port, remoteAddr) => .target port remoteAddr

/-- After any number of pings the client reads the target, and it has the address of the whole `remoteAddr` or reports
an error. -/
def ArrivesWhole (pings : Nat) (remoteAddr : Str) : Prop :=
  match handleTunnelConn (List.replicate pings [Wire.SG_Ping] ++ [remoteAddr]) with
  | .waiting => False
  | .failed => True
  | .target _ addr => dialed remoteAddr = some addr

/-! ## Backends -/

def backends (remoteAddr : Str) : List Str :=
  if byte '|' ∈ remoteAddr then ((split remoteAddr (byte '|')).map trimSpace).filter (· ≠ []) else [remoteAddr]

def portText (backend : Str) : Str :=
  match split backend (byte ':') with
  | [p] => p
  | _ :: p :: _ => p
  | [] => []

def NamesLocal (n : Int) (backend : Str) : Prop := atoi backend = some n ∨ backend = lit "127.0.0.1:" ++ itoa n

def Alike (b c : Str) : Prop := b = c ∨ ∃ n, NamesLocal n b ∧ NamesLocal n c

def Address (b a : Str) : Prop := ∃ port, resolveSingle b = some (port, a)

theorem resolveSingle_eq_some {b a : Str} {port : Int} : resolveSingle b = some (port, a) ↔
    (atoi b = some port ∧ a = lit "127.0.0.1:" ++ itoa port) ∨
      (byte ':' ∈ b ∧ atoi (portText b) = some port ∧ a = b) := by
  unfold resolveSingle
  split
  · rename_i p hp
    have hno : byte ':' ∉ b := split_eq_singleton (by rw [hp]; rfl)
    rw [split_of_not_mem hno, List.cons.injEq] at hp
    obtain ⟨rfl, -⟩ := hp
    simp only [hno, false_and, or_false, map_eq_some_iff, Prod.mk.injEq]
    constructor
    · rintro ⟨n, hn, rfl, rfl⟩
      exact ⟨hn, rfl⟩
    · rintro ⟨hn, rfl⟩
      exact ⟨port, hn, rfl, rfl⟩
  · rename_i h p rest hs
    have hmem : byte ':' ∈ b := by
      by_contra hno
      rw [split_of_not_mem hno] at hs
      cases hs
    have hbare (n : Int) : atoi b ≠ some n := fun hn => colon_not_mem_of_atoi hn hmem
    have htext : portText b = p := by simp only [portText, hs]
    simp only [hmem, hbare, htext, true_and, false_and, false_or, map_eq_some_iff, Prod.mk.injEq]
    constructor
    · rintro ⟨n, hn, rfl, rfl⟩
      exact ⟨hn, rfl⟩
    · rintro ⟨hn, rfl⟩
      exact ⟨port, hn, rfl, rfl⟩
  · rename_i hs
    exact absurd hs (split_ne_nil b _)

theorem address_cases {b a : Str} : Address b a ↔
    (∃ n, atoi b = some n ∧ a = lit "127.0.0.1:" ++ itoa n) ∨
      (byte ':' ∈ b ∧ (atoi (portText b)).isSome = true ∧ a = b) := by
  simp only [Address, resolveSingle_eq_some, exists_or, isSome_iff_exists]
  constructor
  · rintro (h | ⟨port, hmem, hport, rfl⟩)
    · exact .inl h
    · exact .inr ⟨hmem, ⟨port, hport⟩, rfl⟩
  · rintro (h | ⟨hmem, ⟨port, hport⟩, rfl⟩)
    · exact .inl h
    · exact .inr ⟨port, hmem, hport, rfl⟩

theorem exists_address_iff {b : Str} : (∃ a, Address b a) ↔ (atoi (portText b)).isSome = true := by
  by_cases hmem : byte ':' ∈ b
  · constructor
    · rintro ⟨a, ha⟩
      rcases address_cases.mp ha with ⟨n, hn, -⟩ | ⟨-, hport, -⟩
      · exact absurd hmem (colon_not_mem_of_atoi hn)
      · exact hport
    · exact fun hport => ⟨b, address_cases.mpr (.inr ⟨hmem, hport, rfl⟩)⟩
  · have htext : portText b = b := by simp only [portText, split_of_not_mem hmem]
    rw [htext, isSome_iff_exists]
    constructor
    · rintro ⟨a, ha⟩
      rcases address_cases.mp ha with ⟨n, hn, -⟩ | ⟨hcolon, -⟩
      · exact ⟨n, hn⟩
      · exact absurd hcolon hmem
    · rintro ⟨n, hn⟩
      exact ⟨_, address_cases.mpr (.inl ⟨n, hn, rfl⟩)⟩

theorem portText_local (n : Int) : portText (lit "127.0.0.1:" ++ itoa n) = itoa n := by
  have hitoa : byte ':' ∉ itoa n := fun hm => absurd (itoa_mem hm) (by decide)
  have hsplit : split (lit "127.0.0.1:" ++ itoa n) (byte ':') = [lit "127.0.0.1", itoa n] := by
    rw [show lit "127.0.0.1:" ++ itoa n = lit "127.0.0.1" ++ byte ':' :: itoa n by rfl,
      split_append (by decide), split_of_not_mem hitoa]
  simp only [portText, hsplit]

theorem colon_mem_local (n : Int) : byte ':' ∈ lit "127.0.0.1:" ++ itoa n := mem_append_left _ (by decide)

theorem NamesLocal.address_iff {n : Int} {b a : Str} (h : NamesLocal n b) (hn : (atoi (itoa n)).isSome = true) :
    Address b a ↔ a = lit "127.0.0.1:" ++ itoa n := by
  rcases h with h | rfl
  · constructor
    · intro ha
      rcases address_cases.mp ha with ⟨m, hm, rfl⟩ | ⟨hcolon, -⟩
      · rw [h, Option.some.injEq] at hm
        rw [hm]
      · exact absurd hcolon (colon_not_mem_of_atoi h)
    · rintro rfl
      exact address_cases.mpr (.inl ⟨n, h, rfl⟩)
  · constructor
    · intro ha
      rcases address_cases.mp ha with ⟨m, hm, -⟩ | ⟨-, -, rfl⟩
      · exact absurd (colon_mem_local n) (colon_not_mem_of_atoi hm)
      · rfl
    · rintro rfl
      refine address_cases.mpr (.inr ⟨colon_mem_local n, ?_, rfl⟩)
      rw [portText_local]
      exact hn

theorem isSome_of_namesLocal {n : Int} {b a : Str} (h : NamesLocal n b) (ha : Address b a) :
    (atoi (itoa n)).isSome = true := by
  rcases h with h | rfl
  · obtain ⟨-, hlo, hhi⟩ := atoi_eq_some.mp h
    rw [atoi_itoa hlo hhi]
    rfl
  · have := exists_address_iff.mp ⟨a, ha⟩
    rwa [portText_local] at this

theorem alike_iff {b c a : Str} (hb : Address b a) : Alike b c ↔ Address c a := by
  constructor
  · rintro (rfl | ⟨n, hnb, hnc⟩)
    · exact hb
    · have hn := isSome_of_namesLocal hnb hb
      rw [hnb.address_iff hn] at hb
      exact (hnc.address_iff hn).mpr hb
  · intro hc
    rcases address_cases.mp hb with ⟨n, hn, rfl⟩ | ⟨-, -, rfl⟩
    · rcases address_cases.mp hc with ⟨m, hm, hloc⟩ | ⟨-, -, hloc⟩
      · rw [itoa_inj (append_cancel_left hloc)] at hn
        exact .inr ⟨m, .inl hn, .inl hm⟩
      · exact .inr ⟨n, .inl hn, .inr hloc.symm⟩
    · rcases address_cases.mp hc with ⟨m, hm, hloc⟩ | ⟨-, -, hloc⟩
      · exact .inr ⟨m, .inr hloc, .inl hm⟩
      · exact .inl hloc

theorem address_ne_nil {b a : Str} (h : Address b a) : a ≠ [] := by
  rcases address_cases.mp h with ⟨n, -, rfl⟩ | ⟨hcolon, -, rfl⟩
  · exact ne_nil_of_mem (colon_mem_local n)
  · exact ne_nil_of_mem hcolon

theorem pipe_not_mem_address {b a : Str} (h : Address b a) (hb : byte '|' ∉ b) : byte '|' ∉ a := by
  rcases address_cases.mp h with ⟨n, -, rfl⟩ | ⟨-, -, rfl⟩
  · rw [mem_append, not_or]
    exact ⟨by decide, fun hm => absurd (itoa_mem hm) (by decide)⟩
  · exact hb

/-! ## Lists of backends -/

theorem resolveParts_iff {parts as : List Str} :
    (∃ res, resolveParts parts = some res ∧ res.map Prod.snd = as) ↔
      List.Forall₂ Address ((parts.map trimSpace).filter (· ≠ [])) as := by
  simp only [resolveParts_eq_some]
  generalize (parts.map trimSpace).filter (· ≠ []) = bs
  constructor
  · rintro ⟨res, hres, rfl⟩
    rw [forall₂_map_right_iff]
    exact hres.imp fun b r hr => ⟨r.1, hr⟩
  · intro h
    induction h with
    | nil => exact ⟨[], .nil, rfl⟩
    | @cons b a bs as hb _ ih =>
      obtain ⟨port, hport⟩ := hb
      obtain ⟨res, hres, rfl⟩ := ih
      exact ⟨(port, a) :: res, .cons hport hres, rfl⟩

theorem dialed_eq_some {r a : Str} :
    dialed r = some a ↔ ∃ as, List.Forall₂ Address (backends r) as ∧ join as (byte '|') = a := by
  by_cases hp : byte '|' ∈ r
  · simp only [dialed_of_pipe hp, backends, hp, ↓reduceIte, map_eq_some_iff, ← resolveParts_iff]
    constructor
    · rintro ⟨res, hres, rfl⟩
      exact ⟨_, ⟨res, hres, rfl⟩, rfl⟩
    · rintro ⟨as, ⟨res, hres, rfl⟩, rfl⟩
      exact ⟨res, hres, rfl⟩
  · simp only [dialed_of_single hp, backends, hp, ↓reduceIte, map_eq_some_iff, forall₂_cons_left_iff,
      forall₂_nil_left_iff]
    constructor
    · rintro ⟨⟨port, _⟩, hres, rfl⟩
      exact ⟨_, ⟨_, _, ⟨port, hres⟩, rfl, rfl⟩, by simp [Go.join]⟩
    · rintro ⟨as, ⟨b, _, ⟨port, hres⟩, rfl, rfl⟩, rfl⟩
      exact ⟨(port, b), hres, by simp [Go.join]⟩

theorem pipe_not_mem_backends {r b : Str} (h : b ∈ backends r) : byte '|' ∉ b := by
  by_cases hp : byte '|' ∈ r
  · simp only [backends, hp, ↓reduceIte, mem_filter, List.mem_map] at h
    obtain ⟨⟨part, hpart, rfl⟩, -⟩ := h
    exact fun hm => (mem_split hpart).1 (mem_of_mem_trimSpace hm)
  · simp only [backends, hp, ↓reduceIte, mem_singleton] at h
    rw [h]
    exact hp

theorem forall₂_address {bs as : List Str} (h : List.Forall₂ Address bs as) (hbs : ∀ b ∈ bs, byte '|' ∉ b) :
    ∀ a ∈ as, byte '|' ∉ a ∧ a ≠ [] := by
  induction h with
  | nil => simp
  | cons hb _ ih =>
    rw [forall_mem_cons] at hbs ⊢
    exact ⟨⟨pipe_not_mem_address hb hbs.1, address_ne_nil hb⟩, ih hbs.2⟩

theorem join_injective {as bs : List Str} {sep : UInt8} (has : ∀ a ∈ as, sep ∉ a ∧ a ≠ [])
    (hbs : ∀ b ∈ bs, sep ∉ b ∧ b ≠ []) (h : join as sep = join bs sep) : as = bs := by
  have hne {cs : List Str} (hcs : ∀ c ∈ cs, sep ∉ c ∧ c ≠ []) (hcs' : cs ≠ []) : split (join cs sep) sep = cs :=
    split_join (fun c hc => (hcs c hc).1) hcs'
  -- the empty string splits into one piece, which is empty
  have hnil {cs : List Str} (hcs : ∀ c ∈ cs, sep ∉ c ∧ c ≠ []) (hj : join cs sep = []) : cs = [] := by
    by_contra hcs'
    have hsplit := hne hcs hcs'
    rw [hj, split_of_not_mem not_mem_nil] at hsplit
    exact (hcs [] (by rw [← hsplit]; exact mem_cons_self)).2 rfl
  by_cases has' : as = []
  · subst has'
    exact (hnil hbs (by rw [← h]; rfl)).symm
  · by_cases hbs' : bs = []
    · subst hbs'
      exact hnil has (by rw [h]; rfl)
    · rw [← hne has has', h, hne hbs hbs']

theorem forall₂_alike {bs cs as : List Str} (h : List.Forall₂ Address bs as) :
    List.Forall₂ Alike bs cs ↔ List.Forall₂ Address cs as := by
  induction h generalizing cs with
  | nil => simp
  | cons hb _ ih =>
    simp only [forall₂_cons_left_iff, forall₂_cons_right_iff, alike_iff hb, ih]

theorem exists_forall₂_address {bs : List Str} :
    (∃ as, List.Forall₂ Address bs as) ↔ ∀ b ∈ bs, (atoi (portText b)).isSome = true := by
  induction bs with
  | nil => simp
  | cons b bs ih =>
    rw [forall_mem_cons, ← ih, ← exists_address_iff]
    constructor
    · rintro ⟨_, _ | ⟨hb, hrest⟩⟩
      exact ⟨⟨_, hb⟩, _, hrest⟩
    · rintro ⟨⟨a, ha⟩, as, has⟩
      exact ⟨a :: as, .cons ha has⟩

theorem dialed_isSome {r : Str} :
    (∃ a, dialed r = some a) ↔ ∀ b ∈ backends r, (atoi (portText b)).isSome = true := by
  rw [← exists_forall₂_address]
  simp only [dialed_eq_some]
  constructor
  · rintro ⟨_, as, has, -⟩
    exact ⟨as, has⟩
  · rintro ⟨as, has⟩
    exact ⟨_, as, has, rfl⟩

theorem dialed_same_iff {p r a : Str} (h : dialed p = some a) :
    dialed r = some a ↔ List.Forall₂ Alike (backends p) (backends r) := by
  obtain ⟨as, has, rfl⟩ := dialed_eq_some.mp h
  rw [dialed_eq_some, forall₂_alike has]
  constructor
  · rintro ⟨as', has', hjoin⟩
    rw [← join_injective (forall₂_address has' fun _ => pipe_not_mem_backends)
      (forall₂_address has fun _ => pipe_not_mem_backends) hjoin]
    exact has'
  · exact fun hr => ⟨as, hr, rfl⟩

theorem handleTunnelConn_pings (pings : Nat) (rest : List Str) :
    handleTunnelConn (List.replicate pings [Wire.SG_Ping] ++ rest) = handleTunnelConn rest := by
  induction pings with
  | zero => rfl
  | succ pings ih => simpa [replicate_succ, handleTunnelConn, targetBuffer] using ih

/-- The target is no ping, and it fits or its first 47 bytes lose nothing that matters. -/
def SurvivesCut (remoteAddr : Str) : Prop :=
  remoteAddr ≠ [Wire.SG_Ping] ∧
    (remoteAddr.length ≤ targetBuffer ∨
      (∃ b ∈ backends (remoteAddr.take targetBuffer), atoi (portText b) = none) ∨
      List.Forall₂ Alike (backends (remoteAddr.take targetBuffer)) (backends remoteAddr))

theorem arrivesWhole_iff (pings : Nat) (remoteAddr : Str) :
    ArrivesWhole pings remoteAddr ↔ SurvivesCut remoteAddr := by
  unfold ArrivesWhole SurvivesCut
  rw [handleTunnelConn_pings]
  have hping : remoteAddr.take targetBuffer = [Wire.SG_Ping] ↔ remoteAddr = [Wire.SG_Ping] := by
    constructor
    · intro h
      have hlen := congrArg List.length h
      simp only [length_take, targetBuffer, length_singleton] at hlen
      rwa [take_of_length_le (by simp only [targetBuffer]; omega)] at h
    · rintro rfl
      rfl
  by_cases hr : remoteAddr = [Wire.SG_Ping]
  · simp [handleTunnelConn, hr, targetBuffer]
  · simp only [handleTunnelConn, hping, hr, ↓reduceIte, ne_eq, not_false_eq_true, true_and]
    cases hres : resolveRemoteAddr (remoteAddr.take targetBuffer) with
    | none =>
      have hnone : ¬∀ b ∈ backends (remoteAddr.take targetBuffer), (atoi (portText b)).isSome = true := by
        rw [← dialed_isSome]
        rintro ⟨a, ha⟩
        rw [dialed, hres] at ha
        cases ha
      simp only [not_forall, not_isSome_iff_eq_none, exists_prop] at hnone
      simp only [hnone, true_or, or_true]
    | some res =>
      obtain ⟨port, addr⟩ := res
      have hcut : dialed (remoteAddr.take targetBuffer) = some addr := by rw [dialed, hres]; rfl
      have hnumeric : ¬∃ b ∈ backends (remoteAddr.take targetBuffer), atoi (portText b) = none := by
        rintro ⟨b, hb, hnone⟩
        have := dialed_isSome.mp ⟨addr, hcut⟩ b hb
        rw [hnone] at this
        cases this
      simp only [hnumeric, false_or, ← dialed_same_iff hcut]
      constructor
      · exact .inr
      · rintro (hfits | hsame)
        · rw [take_of_length_le hfits] at hcut
          exact hcut
        · exact hsame

/-- A host of 43 bytes with a port of four digits: the client resolves the port 844. -/
theorem port_cut_short : ¬ArrivesWhole 0 (lit "backend-1.eu-central-1.internal.example.net:8443") := by
  have hcut : handleTunnelConn ([] ++ [lit "backend-1.eu-central-1.internal.example.net:8443"]) =
      .target 844 (lit "backend-1.eu-central-1.internal.example.net:844") := by decide +kernel
  have hwhole : dialed (lit "backend-1.eu-central-1.internal.example.net:8443") =
      some (lit "backend-1.eu-central-1.internal.example.net:8443") := by decide +kernel
  simp only [ArrivesWhole, replicate_zero, hcut, hwhole]
  decide

end ArangeTun.UdpTransport
