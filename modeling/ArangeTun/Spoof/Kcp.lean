import ArangeTun.Pck.Frame
import ArangeTun.Spoof.Lemmas.Shim
import ArangeTun.Xdi.Model

/-!
# The MTU of KCP over the spoof carrier

`KCPSettings.effectiveMTU` of internal/utils/network/kcp.go.
-/

namespace ArangeTun.Spoof

open Go Packet
open Xdi (icmpMTUOverhead)

structure SpoofCarrier where
  uplink : SpoofProfile
  downlink : SpoofProfile
  replySplit : Bool
  mtu : Int
  dpi : SpoofDPI
  deriving DecidableEq

structure KCPSettings where
  mtu : Int
  useICMP : Bool
  spoof : Option SpoofCarrier
  pck : Bool
  deriving DecidableEq

def spoofOverhead (p : SpoofProfile) : Nat := ipv4HeaderLen + profileL4Len p

def pckOverhead : Nat := ipv4HeaderLen + Pck.pckTCPHeaderLen + Pck.pckTCPOptionsLen

def KCPSettings.effectiveMTU (s : KCPSettings) : Int :=
  if s.useICMP then s.mtu - icmpMTUOverhead
  else
    match s.spoof with
    | some c =>
      let overhead := spoofOverhead c.uplink
      let overhead := if spoofOverhead c.downlink > overhead then spoofOverhead c.downlink else overhead
      s.mtu - overhead
    | none => if s.pck then s.mtu - pckOverhead else s.mtu

/-- The carrier that `KCPListen` or `KCPDial` opens for the settings, `none` where it is not the spoof carrier. -/
def KCPSettings.openSpoof (s : KCPSettings) (server : Bool) (token : Str) (o : EndOpts) : Option SpoofConn :=
  if s.useICMP then none
  else s.spoof.map fun c =>
    newSpoofConn server ⟨token, c.uplink, c.downlink, c.replySplit, c.dpi⟩ { o with mtu := c.mtu }

/-- A datagram that KCP sends, of at most the effective MTU, leaves in one packet of at most the MTU. -/
def KCPSettings.LeavesWhole (s : KCPSettings) : Prop :=
  ∀ (server : Bool) (token : Str) (o : EndOpts) (conn : SpoofConn), s.openSpoof server token o = some conn →
    ∀ (k : Counters) (d : Draws) (p : Str), (p.length : Int) ≤ s.effectiveMTU →
      ∃ packet, (conn.writeTo k d p).1 = [packet] ∧ packet.header.more = false ∧ packet.header.fragOff = 0 ∧
        (packet.header.totalLen : Int) ≤ s.mtu

/-! ## One packet -/

section

variable (c : SpoofConn) (k : Counters) (d : Draws) (p : Str)

theorem writeTo_of_fits (h : ipv4HeaderLen + (c.shim k d p).length ≤ c.mtu) :
    ∃ packet, (c.writeTo k d p).1 = [packet] ∧ packet.header.more = false ∧ packet.header.fragOff = 0 ∧
      packet.header.totalLen = ipv4HeaderLen + (c.shim k d p).length := by
  have hone : spoofFragments (c.shim k d p).length c.mtu = [⟨0, (c.shim k d p).length, false⟩] := if_pos h
  simp only [SpoofConn.writeTo, SpoofConn.sendIP, hone, List.map_cons, List.map_nil]
  exact ⟨_, rfl, rfl, rfl, rfl⟩

theorem totalLen_of_single {packet : IPPacket} (h : (c.writeTo k d p).1 = [packet]) (hmore : packet.header.more = false)
    (hoff : packet.header.fragOff = 0) :
    packet.header.totalLen = ipv4HeaderLen + (c.shim k d p).length := by
  have hmem : packet ∈ c.sendIP (c.sourceFor k.rot) k.ipID d (c.shim k d p) := by
    have : packet ∈ (c.writeTo k d p).1 := by rw [h]; exact List.mem_singleton_self packet
    exact this
  obtain ⟨f, hf, rfl⟩ := List.mem_map.mp hmem
  have hsome : 0 < (c.shim k d p).length ∨ ipv4HeaderLen ≤ c.mtu := by
    by_contra hno
    obtain ⟨hzero, hmtu⟩ := not_or.mp hno
    have hnone : spoofFragments (c.shim k d p).length c.mtu = [] := by
      rw [Nat.eq_zero_of_not_pos hzero, spoofFragments, if_neg (by omega)]
      rfl
    rw [hnone] at hf
    cases hf
  obtain ⟨h8, _, hstop, hlast⟩ := (spoofFragments_ranges hsome).range f hf
  have hend := hlast hmore
  simp only at hoff ⊢
  omega

end

/-! ## The condition -/

theorem spoofOverhead_le_tcp (p : SpoofProfile) : spoofOverhead p ≤ spoofOverhead .tcp := by
  cases p <;> decide

section

variable {s : KCPSettings} {c : SpoofCarrier}

theorem openSpoof_of_spoof (hicmp : s.useICMP = false) (hspoof : s.spoof = some c) (server : Bool) (token : Str)
    (o : EndOpts) :
    s.openSpoof server token o =
      some (newSpoofConn server ⟨token, c.uplink, c.downlink, c.replySplit, c.dpi⟩ { o with mtu := c.mtu }) := by
  rw [KCPSettings.openSpoof, hicmp, hspoof]
  rfl

theorem effectiveMTU_of_spoof (hicmp : s.useICMP = false) (hspoof : s.spoof = some c) :
    s.effectiveMTU = s.mtu - (max (spoofOverhead c.uplink) (spoofOverhead c.downlink) : Nat) := by
  simp only [KCPSettings.effectiveMTU, hicmp, hspoof, Bool.false_eq_true, ↓reduceIte]
  split <;> omega

theorem packetLen_eq (conn : SpoofConn) (k : Counters) (d : Draws) (p : Str) :
    ipv4HeaderLen + (conn.shim k d p).length = spoofOverhead conn.sendProfile + p.length +
      (if conn.dpi.padding then paddingLength conn.dpi.paddingMax d.padLen else 0) +
      (if conn.dpi.fakeTLS && conn.sendProfile = .tcp then 5 else 0) := by
  have hshim := length_shim conn k d p
  have hbody := length_obfuscate conn d p
  rw [spoofOverhead]
  omega

theorem useICMP_of_openSpoof {server : Bool} {token : Str} {o : EndOpts} {conn : SpoofConn}
    (hopen : s.openSpoof server token o = some conn) : s.useICMP = false := by
  by_contra h
  simp [KCPSettings.openSpoof, h] at hopen

theorem leavesWhole_of_lt (hspoof : s.spoof = some c)
    (hsmall : s.mtu < (max (spoofOverhead c.uplink) (spoofOverhead c.downlink) : Nat)) : s.LeavesWhole := by
  intro server token o conn hopen k d p hp
  rw [effectiveMTU_of_spoof (useICMP_of_openSpoof hopen) hspoof] at hp
  omega

theorem leavesWhole_of_plain (hspoof : s.spoof = some c) (hmtu : c.mtu = 0) (hmax : s.mtu ≤ 1500)
    (hpad : c.dpi.padding = false) (htls : c.dpi.fakeTLS = true → c.uplink ≠ .tcp ∧ c.downlink ≠ .tcp) :
    s.LeavesWhole := by
  intro server token o conn hopen k d p hp
  have hicmp := useICMP_of_openSpoof hopen
  obtain rfl := Option.some.inj ((openSpoof_of_spoof hicmp hspoof server token o).symm.trans hopen)
  rw [effectiveMTU_of_spoof hicmp hspoof] at hp
  generalize hconn : newSpoofConn server _ _ = conn
  have hkept : conn.mtu = 1500 := by rw [← hconn]; simp [newSpoofConn, keptMTU, hmtu]; rfl
  have hdpi : conn.dpi = c.dpi := by rw [← hconn]; rfl
  have hsend : conn.sendProfile = c.uplink ∨ conn.sendProfile = c.downlink := by
    rw [← hconn]
    cases server
    · exact .inl rfl
    · exact .inr rfl
  have hno : (conn.dpi.fakeTLS && decide (conn.sendProfile = .tcp)) = false := by
    rw [hdpi, Bool.and_eq_false_imp]
    intro h
    obtain ⟨hup, hdown⟩ := htls h
    rcases hsend with h' | h' <;> simpa [h']
  have hover : spoofOverhead conn.sendProfile ≤ max (spoofOverhead c.uplink) (spoofOverhead c.downlink) := by
    rcases hsend with h | h <;> rw [h] <;> omega
  have hlen := packetLen_eq conn k d p
  rw [hdpi, hpad, ← hdpi, hno] at hlen
  simp only [Bool.false_eq_true, ↓reduceIte] at hlen
  obtain ⟨packet, hone, hmore, hoff, htotal⟩ := writeTo_of_fits conn k d p (by omega)
  exact ⟨packet, hone, hmore, hoff, by omega⟩

theorem not_leavesWhole_of_added (hicmp : s.useICMP = false) (hspoof : s.spoof = some c) (server : Bool)
    (hfull : spoofOverhead (if server then c.downlink else c.uplink) =
      max (spoofOverhead c.uplink) (spoofOverhead c.downlink))
    (hroom : (max (spoofOverhead c.uplink) (spoofOverhead c.downlink) : Nat) ≤ s.mtu)
    (hadd : c.dpi.padding = true ∨ (c.dpi.fakeTLS = true ∧ (if server then c.downlink else c.uplink) = .tcp)) :
    ¬ s.LeavesWhole := by
  intro hwhole
  let o : EndOpts := ⟨.replicate 4 0, [], .replicate 4 0, none, 0⟩
  let d : Draws := ⟨0, 0, 0, 0, fun _ => 0⟩
  let overhead := max (spoofOverhead c.uplink) (spoofOverhead c.downlink)
  obtain ⟨packet, hone, hmore, hoff, hle⟩ := hwhole server [] o _ (openSpoof_of_spoof hicmp hspoof server [] o)
    ⟨0, 0, 0, 0⟩ d (.replicate (s.mtu - overhead).toNat 0) (by
      rw [effectiveMTU_of_spoof hicmp hspoof, List.length_replicate]
      omega)
  rw [totalLen_of_single _ _ _ _ hone hmore hoff, packetLen_eq, List.length_replicate] at hle
  have hpos := (paddingLength_bounds c.dpi.paddingMax d.padLen).1
  have hsend : (newSpoofConn server ⟨[], c.uplink, c.downlink, c.replySplit, c.dpi⟩
      { o with mtu := c.mtu }).sendProfile = if server then c.downlink else c.uplink := rfl
  have hdpi : (newSpoofConn server ⟨[], c.uplink, c.downlink, c.replySplit, c.dpi⟩
      { o with mtu := c.mtu }).dpi = c.dpi := rfl
  rw [hsend, hdpi, hfull] at hle
  rcases hadd with h | ⟨h, htcp⟩
  · simp only [h, ↓reduceIte] at hle
    omega
  · simp only [h, htcp, decide_true, Bool.and_self, ↓reduceIte] at hle
    omega

end

/-- A full datagram leaves whole exactly where nothing is added to it: padding is off, and the fake TLS header is off or
no direction uses the TCP profile. -/
theorem leavesWhole_iff_nothing_added (s : KCPSettings) (c : SpoofCarrier) (hspoof : s.spoof = some c)
    (hmtu : c.mtu = 0) (hmax : s.mtu ≤ 1500) :
    s.LeavesWhole ↔ s.useICMP = true ∨ s.mtu < spoofOverhead c.uplink ∨ s.mtu < spoofOverhead c.downlink ∨
      (c.dpi.padding = false ∧ ¬ (c.dpi.fakeTLS = true ∧ (c.uplink = .tcp ∨ c.downlink = .tcp))) := by
  constructor
  · intro hwhole
    by_contra hnot
    simp only [not_or, not_and_or, not_not, Bool.not_eq_true, Bool.not_eq_false, not_lt] at hnot
    obtain ⟨hicmp, hup, hdown, hadd⟩ := hnot
    have hroom : (max (spoofOverhead c.uplink) (spoofOverhead c.downlink) : Nat) ≤ s.mtu := by omega
    have hup' := spoofOverhead_le_tcp c.uplink
    have hdown' := spoofOverhead_le_tcp c.downlink
    rcases hadd with hpad | ⟨htls, htcp | htcp⟩
    · -- the direction with the larger headers has no room for the padding
      rcases Nat.le_total (spoofOverhead c.uplink) (spoofOverhead c.downlink) with h | h
      · exact not_leavesWhole_of_added hicmp hspoof true (max_eq_right h).symm hroom (.inl hpad) hwhole
      · exact not_leavesWhole_of_added hicmp hspoof false (max_eq_left h).symm hroom (.inl hpad) hwhole
    · refine not_leavesWhole_of_added hicmp hspoof false (max_eq_left ?_).symm hroom (.inr ⟨htls, htcp⟩) hwhole
      rwa [htcp]
    · refine not_leavesWhole_of_added hicmp hspoof true (max_eq_right ?_).symm hroom (.inr ⟨htls, htcp⟩) hwhole
      rwa [htcp]
  · rintro (hicmp | hup | hdown | ⟨hpad, htls⟩)
    · intro server token o conn hopen
      rw [useICMP_of_openSpoof hopen] at hicmp
      cases hicmp
    · exact leavesWhole_of_lt hspoof (by omega)
    · exact leavesWhole_of_lt hspoof (by omega)
    · exact leavesWhole_of_plain hspoof hmtu hmax hpad (by tauto)

theorem leavesWhole_iff_nothing_added_gre :
    (KCPSettings.mk 1400 false (some ⟨.gre, .udp, false, 0, ⟨true, true, true, 0, 0, false, 0, true⟩⟩) false).LeavesWhole :=
  (leavesWhole_iff_nothing_added _ ⟨.gre, .udp, false, 0, ⟨true, true, true, 0, 0, false, 0, true⟩⟩ rfl rfl
    (by decide)).mpr (.inr (.inr (.inr (by decide))))

/-- Padding on, at MTU 1500 over the UDP profile: the 1472 bytes that `effectiveMTU` allows leave in two fragments. -/
theorem padded_datagram_is_fragmented :
    let s : KCPSettings := ⟨1500, false, some ⟨.udp, .udp, false, 0, ⟨false, false, false, 0, 0, true, 0, false⟩⟩, false⟩
    s.effectiveMTU = 1472 ∧
      ∃ conn, s.openSpoof false (lit "secret") ⟨.replicate 4 1, [], .replicate 4 2, none, 0⟩ = some conn ∧
        ((conn.writeTo ⟨0, 0, 0, 0⟩ ⟨0, 0, 0, 0, fun _ => 0⟩ (.replicate 1472 0)).1.map fun q =>
          (q.header.totalLen, q.header.more, q.header.fragOff)) = [(1500, true, 0), (21, false, 185)] := by
  intro s
  refine ⟨by decide, _, openSpoof_of_spoof rfl rfl false (lit "secret") _, ?_⟩
  have hfragments (conn : SpoofConn) (hsend : conn.sendProfile = .udp) (hdpi : conn.dpi.padding = true)
      (hmax : conn.dpi.paddingMax = 0) (hmtu : conn.mtu = 1500) :
      ((conn.writeTo ⟨0, 0, 0, 0⟩ ⟨0, 0, 0, 0, fun _ => 0⟩ (.replicate 1472 0)).1.map fun q =>
        (q.header.totalLen, q.header.more, q.header.fragOff)) = [(1500, true, 0), (21, false, 185)] := by
    have hlen : (conn.shim ⟨0, 0, 0, 0⟩ ⟨0, 0, 0, 0, fun _ => 0⟩ (.replicate 1472 0)).length = 1481 := by
      rw [length_shim, length_obfuscate, List.length_replicate, hsend, hdpi, hmax]
      simp [profileL4Len, paddingLength]
    have htwo : spoofFragments 1481 1500 = [⟨0, 1480, true⟩, ⟨1480, 1481, false⟩] := by decide +kernel
    simp only [SpoofConn.writeTo, SpoofConn.sendIP, hlen, hmtu, htwo]
    rfl
  exact hfragments _ rfl rfl rfl rfl

end ArangeTun.Spoof
