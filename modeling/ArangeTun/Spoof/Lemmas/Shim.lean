import ArangeTun.Spoof.Lemmas.Fragments

/-! # Shims and obfuscation -/

namespace ArangeTun.Spoof

open Go Packet Bpf SpoofConn SpoofProfile

/-! ## Obfuscation -/

theorem stripFakeTLS_applyFakeTLS (p : Str) : stripFakeTLS (applyFakeTLS p) = some p := by
  have hlen : ¬ (applyFakeTLS p).length < 5 := by simp [applyFakeTLS]
  rw [stripFakeTLS, if_neg]
  · rfl
  · rintro (h | h | h | h)
    · exact hlen h
    all_goals exact h rfl

theorem paddingLength_bounds (max : UInt8) (draw : Nat) : 1 ≤ paddingLength max draw ∧ paddingLength max draw ≤ 255 := by
  have hmax : 0 < (if max = 0 then 64 else max.toNat) ∧ (if max = 0 then 64 else max.toNat) ≤ 255 := by
    split
    · omega
    · rename_i h
      have hne : max.toNat ≠ 0 := fun hz => h (UInt8.toNat_inj.mp hz)
      have := max.toNat_lt
      omega
  have hlt := Nat.mod_lt draw hmax.1
  unfold paddingLength
  omega

theorem length_applyPadding (p : Str) (max : UInt8) (d : Draws) :
    (applyPadding p max d).length = p.length + paddingLength max d.padLen := by
  have := paddingLength_bounds max d.padLen
  simp only [applyPadding, List.length_append, List.length_map, List.length_range, List.length_singleton]
  omega

theorem stripPadding_applyPadding (p : Str) (max : UInt8) (d : Draws) :
    stripPadding (applyPadding p max d) = some p := by
  have hb := paddingLength_bounds max d.padLen
  have hlen := length_applyPadding p max d
  have hlast : (applyPadding p max d).getLast? = some (UInt8.ofNat (paddingLength max d.padLen)) := by
    simp only [applyPadding, List.getLast?_concat]
  have hval : (UInt8.ofNat (paddingLength max d.padLen)).toNat = paddingLength max d.padLen := by
    rw [UInt8.toNat_ofNat']
    omega
  simp only [stripPadding, hlast, hval]
  rw [if_neg (by omega), hlen, Nat.add_sub_cancel, applyPadding, List.append_assoc, List.take_left]

section

variable (c : SpoofConn) (d : Draws) (p : Str)

theorem length_obfuscate :
    (c.obfuscate d p).length = p.length + (if c.dpi.padding then paddingLength c.dpi.paddingMax d.padLen else 0) +
      (if c.dpi.fakeTLS && c.sendProfile = .tcp then 5 else 0) := by
  have htls (b : Str) : (applyFakeTLS b).length = b.length + 5 := by
    simp [applyFakeTLS]
    omega
  unfold obfuscate
  cases c.dpi.padding <;> cases (c.dpi.fakeTLS && decide (c.sendProfile = .tcp)) <;>
    simp [htls, length_applyPadding]

variable {c}

theorem undoDPI_obfuscate {r : SpoofConn} (h : r.dpi = c.dpi) :
    r.undoDPI c.sendProfile (c.obfuscate d p) = some p := by
  unfold undoDPI obfuscate
  rw [h]
  cases c.dpi.padding <;> cases (c.dpi.fakeTLS && decide (c.sendProfile = .tcp)) <;>
    simp [stripFakeTLS_applyFakeTLS, stripPadding_applyPadding]

end

/-! ## Shims -/

theorem length_shim (c : SpoofConn) (k : Counters) (d : Draws) (p : Str) :
    (c.shim k d p).length = profileL4Len c.sendProfile + (c.obfuscate d p).length := by
  unfold shim
  cases c.sendProfile <;>
    simp [isICMPFamily, buildICMPEcho, buildTCPShimPorts, tcpStart, buildGREShim, buildUDPShimPorts,
      udpStart, profileL4Len, greHeaderLen] <;> omega

structure Paired (s r : SpoofConn) : Prop where
  profile : r.recvProfile = s.sendProfile
  port : r.port = s.port
  icmpType : r.recvICMPType = s.sendICMPType
  dpi : r.dpi = s.dpi

theorem newSpoofConn_paired (server : Bool) (t : TunnelOpts) (a b : EndOpts) :
    Paired (newSpoofConn server t a) (newSpoofConn (!server) t b) := by
  cases server <;> exact ⟨rfl, rfl, by simp [newSpoofConn], rfl⟩

section

variable {s r : SpoofConn} (k : Counters) (d : Draws) (p : Str)

theorem parseICMPEcho_buildICMPEcho (typ : UInt8) (id seq : UInt16) (payload : Str) :
    parseICMPEcho typ id (buildICMPEcho typ id seq payload) = some payload := by
  have hlen : ¬ (buildICMPEcho typ id seq payload).length < icmpEchoHeaderLen := by
    simp [buildICMPEcho, icmpEchoHeaderLen]
    omega
  have htype : (buildICMPEcho typ id seq payload).getD 0 0 = typ := rfl
  have hid : be16 (buildICMPEcho typ id seq payload) 4 = id :=
    be16_putUint16 id ((buildICMPEcho typ id seq payload).drop 6)
  rw [parseICMPEcho, if_neg hlen, if_neg (not_not.mpr htype), if_neg (not_not.mpr hid)]
  rfl

theorem stripSpoofShim_buildTCPShim (srcPort dstPort : UInt16) (seq : UInt32) (src dst : IPv4) (framed : Str) :
    stripSpoofShim .tcp dstPort (buildTCPShimPorts srcPort dstPort seq src dst framed) = some framed := by
  have hlen : (buildTCPShimPorts srcPort dstPort seq src dst framed).length = 20 + framed.length := by
    simp [buildTCPShimPorts, tcpStart]
    omega
  have hport : be16 (buildTCPShimPorts srcPort dstPort seq src dst framed) 2 = dstPort :=
    be16_putUint16 dstPort ((buildTCPShimPorts srcPort dstPort seq src dst framed).drop 4)
  have hoff : 4 * ((buildTCPShimPorts srcPort dstPort seq src dst framed).getD 12 0 >>> 4).toNat = 20 := by
    have h : (buildTCPShimPorts srcPort dstPort seq src dst framed).getD 12 0 = 0x50 := rfl
    rw [h]
    rfl
  rw [stripSpoofShim, if_pos rfl, if_neg (by rw [hport]; simp [hlen])]
  simp only [hoff]
  rw [if_neg (by omega)]
  rfl

theorem stripGREShim_buildGREShim (framed : Str) : stripGREShim (buildGREShim framed) = some framed := by
  have hlen : ¬ (buildGREShim framed).length < greHeaderLen := by simp [buildGREShim, greHeaderLen]
  rw [stripGREShim, if_neg hlen]
  rfl

theorem stripShim_shim (h : Paired s r) (hudp : s.sendProfile ≠ .udp) :
    r.stripShim (s.shim k d p) = some (s.obfuscate d p) := by
  unfold stripShim shim
  rw [h.profile, h.icmpType, h.port]
  cases hprofile : s.sendProfile with
  | udp => exact absurd hprofile hudp
  | tcp => simp [isICMPFamily, stripSpoofShim_buildTCPShim]
  | icmp => simp [isICMPFamily, parseICMPEcho_buildICMPEcho]
  | icmpv6 => simp [isICMPFamily, parseICMPEcho_buildICMPEcho]
  | ipip => simp [isICMPFamily]
  | gre => simp [isICMPFamily, stripGREShim_buildGREShim]

end

theorem pseudoHeader_of_length {a b : Str} (src dst : IPv4) (proto : UInt8) (h : a.length = b.length) :
    pseudoHeader src dst proto a = pseudoHeader src dst proto b := by
  rw [pseudoHeader, pseudoHeader, h]

theorem l4Checksum_buildUDPShim (srcPort dstPort : UInt16) (src dst : IPv4) {framed : Str}
    (hlen : 8 + framed.length ≤ 65535) :
    l4Checksum src dst 17 (buildUDPShimPorts srcPort dstPort src dst framed) = 0 := by
  unfold buildUDPShimPorts
  simp only
  rw [l4Checksum, pseudoHeader_of_length src dst 17
    (show _ = (udpStart srcPort dstPort framed ++ putUint16 0 ++ framed).length by simp)]
  apply IsChecksum.onesComplement_eq_zero
  · rw [l4Checksum]
    split
    · exact .inr ⟨‹_›, rfl⟩
    · exact .inl rfl
  · simp [udpStart]
  · simp [udpStart, pseudoHeader]
    omega

theorem udpReceive_shim (h : Header) (srcPort port : UInt16) (framed : Str) (hproto : h.protocol = 17)
    (hlen : 8 + framed.length ≤ 65535) :
    udpReceive port ⟨h, buildUDPShimPorts srcPort port h.src h.dst framed⟩ = some (h.src, framed) := by
  have hport : be16 (buildUDPShimPorts srcPort port h.src h.dst framed) 2 = port :=
    be16_putUint16 port ((buildUDPShimPorts srcPort port h.src h.dst framed).drop 4)
  have hfield : be16 (buildUDPShimPorts srcPort port h.src h.dst framed) 4 = UInt16.ofNat (8 + framed.length) :=
    be16_putUint16 _ ((buildUDPShimPorts srcPort port h.src h.dst framed).drop 6)
  have hulen : (be16 (buildUDPShimPorts srcPort port h.src h.dst framed) 4).toNat = 8 + framed.length := by
    rw [hfield, UInt16.toNat_ofNat']
    omega
  have hbody : (buildUDPShimPorts srcPort port h.src h.dst framed).length = 8 + framed.length := by
    simp [buildUDPShimPorts, udpStart]
    omega
  have htake : (buildUDPShimPorts srcPort port h.src h.dst framed).take (8 + framed.length) =
      buildUDPShimPorts srcPort port h.src h.dst framed := by
    rw [← hbody, List.take_length]
  simp only [udpReceive, hulen, htake, hproto, hport, hbody, l4Checksum_buildUDPShim srcPort port h.src h.dst hlen]
  rw [if_neg (by simp), if_neg (by simp)]
  rfl

end ArangeTun.Spoof
