import ArangeTun.Pck.Agreement
import ArangeTun.Spoof.Model

/-! # Built headers verify -/

namespace ArangeTun.Packet

open Go List Spoof

/-! ## Segments behind a pseudo-header -/

section

variable (src dst : IPv4) (proto : UInt8)

@[simp] theorem length_pseudoHeader (segment : Str) : (pseudoHeader src dst proto segment).length = 12 := by
  simp [pseudoHeader]

theorem pseudoHeader_field (a b : Str) (v w : UInt16) :
    pseudoHeader src dst proto (a ++ putUint16 v ++ b) = pseudoHeader src dst proto (a ++ putUint16 w ++ b) := by
  simp [pseudoHeader]

theorem onesSum_segment {a b : Str} {c : UInt16} (ha : a.length % 2 = 0) (hlen : a.length + (2 + b.length) ≤ 65535)
    (hc : c = l4Checksum src dst proto (a ++ putUint16 0 ++ b) ∨
      (l4Checksum src dst proto (a ++ putUint16 0 ++ b) = 0 ∧ c = 0xffff)) :
    onesSum (pseudoHeader src dst proto (a ++ putUint16 c ++ b) ++ (a ++ putUint16 c ++ b)) = 0xffff := by
  rw [pseudoHeader_field src dst proto a b c 0]
  apply IsChecksum.onesSum_eq hc ha
  · rw [length_pseudoHeader]
  · rw [length_pseudoHeader]
    omega

end

theorem onesSum_message {a b : Str} (ha : a.length % 2 = 0) (hlen : a.length + (2 + b.length) ≤ 65535) :
    onesSum (a ++ putUint16 (onesComplement [a ++ putUint16 0 ++ b]) ++ b) = 0xffff := by
  have hc : IsChecksum [] a b (onesComplement [a ++ putUint16 0 ++ b]) := .inl rfl
  exact hc.onesSum_eq ha rfl (by simpa using hlen.trans (by decide))

/-! ## The builders -/

section

variable (srcPort dstPort : UInt16) (src dst : IPv4) {payload : Str}

theorem onesSum_buildUDPShimPorts (h : 8 + payload.length ≤ 65535) :
    onesSum (pseudoHeader src dst 17 (Spoof.buildUDPShimPorts srcPort dstPort src dst payload) ++
      Spoof.buildUDPShimPorts srcPort dstPort src dst payload) = 0xffff := by
  apply onesSum_segment
  · simp [udpStart]
  · simp [udpStart]
    omega
  · split
    · exact .inr ⟨‹_›, rfl⟩
    · exact .inl rfl

theorem checksum_buildUDPShimPorts_ne :
    be16 (Spoof.buildUDPShimPorts srcPort dstPort src dst payload) 6 ≠ 0 := by
  have hcut (c : UInt16) : be16 (udpStart srcPort dstPort payload ++ putUint16 c ++ payload) 6 = c := by
    rw [append_assoc]
    exact (be16_append_length (udpStart srcPort dstPort payload) (putUint16 c ++ payload) 0).trans
      (be16_putUint16 c payload)
  unfold buildUDPShimPorts
  rw [hcut]
  split
  · decide
  · assumption

theorem onesSum_buildTCPShimPorts (seq : UInt32) (h : 20 + payload.length ≤ 65535) :
    onesSum (pseudoHeader src dst 6 (Spoof.buildTCPShimPorts srcPort dstPort seq src dst payload) ++
      Spoof.buildTCPShimPorts srcPort dstPort seq src dst payload) = 0xffff := by
  have hshape : buildTCPShimPorts srcPort dstPort seq src dst payload =
      tcpStart srcPort dstPort seq ++ putUint16 (l4Checksum src dst 6
        (tcpStart srcPort dstPort seq ++ putUint16 0 ++ ([0, 0] ++ payload))) ++ ([0, 0] ++ payload) := by
    simp only [buildTCPShimPorts, append_assoc]
  rw [hshape]
  apply onesSum_segment
  · simp [tcpStart]
  · simp [tcpStart]
    omega
  · exact .inl rfl

end

theorem onesSum_buildICMPEcho (typ : UInt8) (id seq : UInt16) {payload : Str} (h : 8 + payload.length ≤ 65535) :
    onesSum (Spoof.buildICMPEcho typ id seq payload) = 0xffff := by
  have hshape : buildICMPEcho typ id seq payload =
      [typ, 0] ++ putUint16 (onesComplement [[typ, 0] ++ putUint16 0 ++ (putUint16 id ++ putUint16 seq ++ payload)]) ++
        (putUint16 id ++ putUint16 seq ++ payload) := by
    simp only [buildICMPEcho, append_assoc]
  rw [hshape]
  apply onesSum_message
  · simp
  · simp
    omega

section

open Pck Pck.Layers

/-- What a receiver checks in a frame: its IP header, and its segment behind the pseudo-header. -/
structure FrameVerifies (p : Layers.PckFrameParams) (frame : Str) : Prop where
  header : onesSum ((frame.take 34).drop 14) = 0xffff
  segment : onesSum (pseudoHeader (fresh 4 (ip4 p.srcIP)) (fresh 4 (ip4 p.dstIP)) 6 (frame.drop 34) ++ frame.drop 34) =
    0xffff
  srcIP : Relay.to4 p.srcIP ≠ none → (frame.take 30).drop 26 = (fresh 4 (ip4 p.srcIP)).toList
  dstIP : Relay.to4 p.dstIP ≠ none → (frame.take 34).drop 30 = (fresh 4 (ip4 p.dstIP)).toList

variable {p : Layers.PckFrameParams} {buf : Str}

theorem onesSum_ipHeaderWith (t : Pck.PckFrameParams) {addresses : Str} (h : addresses.length = 8) :
    onesSum (ipHeaderWith t addresses) = 0xffff := by
  apply onesSum_message
  · simp
  · simp [h]

theorem onesSum_tcpHeader (t : Pck.PckFrameParams) (h : 32 + t.payload.length ≤ 65535) :
    onesSum (pseudoHeader t.srcIP t.dstIP 6 (tcpHeader t ++ t.payload) ++ (tcpHeader t ++ t.payload)) = 0xffff := by
  have hshape : tcpHeader t ++ t.payload =
      Pck.tcpStart t ++ putUint16 (tcpChecksum t) ++ ([0, 0] ++ tcpOptions t ++ t.payload) := by
    simp only [tcpHeader, append_assoc]
  rw [hshape]
  apply onesSum_segment
  · simp
  · simp
    omega
  · left
    have hzero : tcpStart t ++ [0, 0] ++ [0, 0] ++ tcpOptions t ++ t.payload =
        tcpStart t ++ putUint16 0 ++ ([0, 0] ++ tcpOptions t ++ t.payload) := by
      simp only [append_assoc]
      rfl
    rw [tcpChecksum, hzero]

theorem frameOver_verifies (hbuf : 34 ≤ buf.length) (h : 32 + p.payload.length ≤ 65535) :
    FrameVerifies p (frameOver p buf) := by
  have hether := @length_ethernetOver p buf (by omega)
  have haddr := @length_addressesOver p buf hbuf
  have hheader : (ipHeaderWith p.typed (addressesOver p buf)).length = 20 := by simp [ipHeaderWith, haddr]
  have hsrc := @length_field buf 26 4 (by omega)
  have hdst := @length_field buf 30 4 (by omega)
  have hdrop : (frameOver p buf).drop 34 = tcpHeader p.typed ++ p.payload := by
    rw [frameOver, ← append_assoc, drop_left' (by rw [length_append, hether, hheader])]
  have htake : ((frameOver p buf).take 34).drop 14 = ipHeaderWith p.typed (addressesOver p buf) := by
    rw [frameOver, ← append_assoc, take_left' (by rw [length_append, hether, hheader]),
      drop_left' hether]
  have hplace : ((frameOver p buf).drop 26).take 8 = addressesOver p buf := by
    have hcut : (ipHeaderWith p.typed (addressesOver p buf)).drop 12 = addressesOver p buf :=
      drop_left' (by simp)
    rw [← hcut, ← htake, drop_drop, drop_take]
  have hfull {ip field : Str} (hlen : field.length = 4) (hip : Relay.to4 ip ≠ none) :
      overlay (ip4 ip) field = (fresh 4 (ip4 ip)).toList :=
    (overlay_ip4_eq_iff hlen).mpr fun hnone => absurd hnone hip
  have hlen : (overlay (ip4 p.srcIP) ((buf.drop 26).take 4)).length = 4 := by
    rw [length_overlay (by rw [hsrc]; exact length_ip4_le _), hsrc]
  refine ⟨?_, ?_, fun hip => ?_, fun hip => ?_⟩
  · rw [htake, onesSum_ipHeaderWith _ haddr]
  · rw [hdrop]
    exact onesSum_tcpHeader p.typed h
  · have hfirst := congrArg (List.take 4) hplace
    rw [take_take, addressesOver, take_left' hlen, hfull hsrc hip] at hfirst
    rw [drop_take]
    exact hfirst
  · have hlast := congrArg (List.drop 4) hplace
    rw [drop_take, drop_drop, addressesOver, drop_left' hlen, hfull hdst hip] at hlast
    rw [drop_take]
    exact hlast

end

/-- Whatever the payload, of odd length too, what the builders return sums to all ones, the UDP checksum is never zero,
and the sum is taken without an overflow. -/
theorem built_headers_verify :
    (∀ srcPort dstPort src dst (payload : Str), 8 + payload.length ≤ 65535 →
      onesSum (pseudoHeader src dst 17 (Spoof.buildUDPShimPorts srcPort dstPort src dst payload) ++
        Spoof.buildUDPShimPorts srcPort dstPort src dst payload) = 0xffff ∧
      be16 (Spoof.buildUDPShimPorts srcPort dstPort src dst payload) 6 ≠ 0) ∧
    (∀ srcPort dstPort seq src dst (payload : Str), 20 + payload.length ≤ 65535 →
      onesSum (pseudoHeader src dst 6 (Spoof.buildTCPShimPorts srcPort dstPort seq src dst payload) ++
        Spoof.buildTCPShimPorts srcPort dstPort seq src dst payload) = 0xffff) ∧
    (∀ typ id seq (payload : Str), 8 + payload.length ≤ 65535 →
      onesSum (Spoof.buildICMPEcho typ id seq payload) = 0xffff) ∧
    (∀ (buf : Str) (p : Pck.Layers.PckFrameParams), Pck.pckFrameLen p.payload.length ≤ buf.length →
      32 + p.payload.length ≤ 65535 →
      ∃ frame, Pck.Layers.assemblePckFrame buf p = some frame ∧ FrameVerifies p frame) ∧
    (∀ src dst proto (segment : Str), segment.length ≤ 65535 →
      NoOverflow [segment] ∧ NoOverflow [pseudoHeader src dst proto segment, segment]) := by
  refine ⟨?_, ?_, ?_, ?_, ?_⟩
  · intro srcPort dstPort src dst payload h
    exact ⟨onesSum_buildUDPShimPorts srcPort dstPort src dst h, checksum_buildUDPShimPorts_ne srcPort dstPort src dst⟩
  · intro srcPort dstPort seq src dst payload h
    exact onesSum_buildTCPShimPorts srcPort dstPort src dst seq h
  · intro typ id seq payload h
    exact onesSum_buildICMPEcho typ id seq h
  · intro buf p hbuf h
    have hlen := Pck.pckFrameLen_eq p.payload.length
    exact ⟨_, Pck.Layers.assemblePckFrame_eq hbuf, frameOver_verifies (by omega) h⟩
  · intro src dst proto segment h
    refine ⟨?_, noOverflow_of_length (by rw [length_pseudoHeader]; omega)⟩
    exact @noOverflow_of_length [] segment (by simp; omega)

/-- An odd payload, addressed to and from an IPv4 address. -/
theorem odd_datagram_verifies :
    onesSum (pseudoHeader #v[10, 0, 0, 1] #v[10, 0, 0, 2] 17
        (Spoof.buildUDPShimPorts 5000 443 #v[10, 0, 0, 1] #v[10, 0, 0, 2] (lit "ping!")) ++
      Spoof.buildUDPShimPorts 5000 443 #v[10, 0, 0, 1] #v[10, 0, 0, 2] (lit "ping!")) = 0xffff ∧
    onesSum (Spoof.buildICMPEcho 0 0 0 [0]) = 0xffff :=
  ⟨(built_headers_verify.1 5000 443 #v[10, 0, 0, 1] #v[10, 0, 0, 2] (lit "ping!") (by decide)).1,
    built_headers_verify.2.2.1 0 0 0 [0] (by decide)⟩

end ArangeTun.Packet
