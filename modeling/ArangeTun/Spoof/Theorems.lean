import ArangeTun.Spoof.Lemmas.Shim

/-! # The spoof carrier: round trip -/

namespace ArangeTun.Spoof

open Go Packet Bpf List Option

section

variable {s r : SpoofConn} (k : Counters) (d : Draws) {p : Str}

theorem isHeader_marshal (h : Header) : IsHeader h.marshal := by
  have hfirst : h.marshal.getD 0 0 = 0x45 := rfl
  refine ⟨fun hnil => ?_, ?_⟩
  · have hlen := h.length_marshal
    rw [hnil] at hlen
    cases hlen
  · rw [hfirst, Header.length_marshal]
    rfl

theorem rawReceive_shim (hpair : Paired s r) (hudp : s.sendProfile ≠ .udp) (h : Header)
    (hproto : h.protocol = s.sendProfile.ipProtocol) :
    rawReceive r.recvProfile.ipProtocol r.filter ⟨h, s.shim k d p⟩ =
      some (IPPacket.marshal ⟨h, s.shim k d p⟩) := by
  have hstrip := stripShim_shim k d p hpair hudp
  have haccept {prog : List RawInstruction} (hprog : Accepts prog (h.marshal ++ s.shim k d p)) :
      rawReceive r.recvProfile.ipProtocol (some prog) ⟨h, s.shim k d p⟩ =
        some (IPPacket.marshal ⟨h, s.shim k d p⟩) := by
    rw [rawReceive, if_neg (by rw [hpair.profile]; exact not_not.mpr hproto)]
    exact if_neg hprog
  have hnone : rawReceive r.recvProfile.ipProtocol none ⟨h, s.shim k d p⟩ =
      some (IPPacket.marshal ⟨h, s.shim k d p⟩) := by
    rw [rawReceive, if_neg (by rw [hpair.profile]; exact not_not.mpr hproto)]
  unfold SpoofConn.stripShim at hstrip
  unfold SpoofConn.filter
  have hprofile := hpair.profile
  cases hs : s.sendProfile with
  | udp => exact absurd hs hudp
  | tcp =>
    rw [hs] at hprofile
    simp only [hprofile, SpoofProfile.isICMPFamily] at hstrip
    obtain ⟨prog, hprog, hacc⟩ : ∃ prog, spoofBPFProgram .tcp r.port r.recvICMPType = some prog ∧
        Accepts prog (h.marshal ++ s.shim k d p) :=
      spoofBPFProgram_tcp (isHeader_marshal h) hstrip
    rw [hprofile] at haccept ⊢
    simp only [SpoofProfile.hasPortDemux, hprog]
    exact haccept hacc
  | icmp | icmpv6 =>
    rw [hs] at hprofile
    have hfamily : r.recvProfile.isICMPFamily = true := by rw [hprofile]; rfl
    rw [if_pos hfamily] at hstrip
    obtain ⟨prog, hprog, hacc⟩ := spoofBPFProgram_icmp hfamily (isHeader_marshal h) hstrip
    rw [hprog, if_pos (by rw [hprofile]; rfl)]
    exact haccept hacc
  | ipip | gre =>
    rw [hs] at hprofile
    rw [hprofile] at hnone ⊢
    exact hnone

theorem source_marshal (q : IPPacket) : (q.marshal.take 16).drop 12 = q.header.src.toList := by
  have hcut : q.marshal =
      (q.header.start ++ putUint16 (onesComplement [q.header.start ++ putUint16 0 ++ q.header.addresses])) ++
        q.header.src.toList ++ (q.header.dst.toList ++ q.body) := by
    simp [IPPacket.marshal, Header.marshal, Header.addresses]
  rw [hcut, take_left' (by simp), drop_left' (by simp)]

theorem accept_shim {h : Header} (hpair : Paired s r) (hp : p ≠ [])
    (hfit : ipv4HeaderLen + (s.shim k d p).length ≤ 65535)
    (hpin : r.expectSrc = none ∨ r.expectSrc = some (s.sourceFor k.rot)) (hproto : h.protocol = s.sendProfile.ipProtocol)
    (hsrc : h.src = s.sourceFor k.rot) (hdst : h.dst = s.realPeer) : r.accept ⟨h, s.shim k d p⟩ = some p := by
  have hundo := undoDPI_obfuscate d p hpair.dpi
  have hlen := length_shim s k d p
  have hbody := length_obfuscate s d p
  have hpos : 0 < p.length := length_pos_of_ne_nil hp
  rw [ipv4HeaderLen] at hfit
  unfold SpoofConn.accept
  rw [hpair.profile]
  by_cases hudp : s.sendProfile = .udp
  · have hrecv : udpReceive r.port ⟨h, s.shim k d p⟩ = some (s.sourceFor k.rot, s.obfuscate d p) := by
      have hshim : s.shim k d p = buildUDPShimPorts (s.dpi.pickSrcPort s.port d.srcPort) s.port (s.sourceFor k.rot)
          s.realPeer (s.obfuscate d p) := by
        simp [SpoofConn.shim, hudp, SpoofProfile.isICMPFamily]
      rw [hpair.port, hshim, ← hsrc, ← hdst]
      rw [hudp] at hlen
      apply udpReceive_shim
      · rw [hproto, hudp]
        rfl
      · simp only [profileL4Len] at hlen
        omega
    have hdata : (s.obfuscate d p).take SpoofConn.readBufLen = s.obfuscate d p :=
      take_of_length_le (by rw [SpoofConn.readBufLen]; omega)
    have hne : s.obfuscate d p ≠ [] := ne_nil_of_length_pos (by omega)
    rw [hudp] at hundo
    rw [if_pos hudp, hrecv]
    simp only [hdata, if_neg hne, hundo]
    rcases hpin with h | h <;> simp [h, hp]
  · have hraw := rawReceive_shim k d (p := p) hpair hudp h hproto
    rw [hpair.profile] at hraw
    have hb : (IPPacket.marshal ⟨h, s.shim k d p⟩).take SpoofConn.readBufLen =
        IPPacket.marshal ⟨h, s.shim k d p⟩ := by
      apply take_of_length_le
      rw [IPPacket.marshal, length_append, Header.length_marshal, SpoofConn.readBufLen]
      exact hfit
    have hihl (q : IPPacket) : 4 * ((q.marshal.getD 0 0).toNat % 16) = 20 := by rw [first_marshal]; rfl
    have hpayload (q : IPPacket) : q.marshal.drop 20 = q.body := by
      rw [IPPacket.marshal, drop_left' (Header.length_marshal _)]
    rw [if_neg hudp, hraw]
    simp only [hb, source_marshal, hihl, hpayload, stripShim_shim k d p hpair hudp, bind_some, hundo]
    rcases hpin with h | h <;> simp [h, hp, hsrc]

end

theorem keptMTU_gt (mtu : Int) : 40 < keptMTU mtu := by
  unfold keptMTU
  split
  · decide
  · rename_i h
    change ¬ mtu ≤ 40 at h
    omega

section

variable (server : Bool) (t : TunnelOpts) (a b : EndOpts) (k : Counters) (d : Draws) (p : Str)

/-- What one end sends reaches the other, and the next `ReadFrom` into a buffer with room for it returns the datagram,
exactly if it left in one packet or its packets have an identification other than zero. The sender's kernel gives each
packet without one an identification of its own. -/
theorem spoof_carrier_round_trip (hp : p ≠ [])
    (hfit : ipv4HeaderLen + ((newSpoofConn server t a).shim k d p).length ≤ 65535)
    (hpin : b.peerSrc = none ∨ b.peerSrc = some ((newSpoofConn server t a).sourceFor k.rot))
    (hsrc : (newSpoofConn server t a).sourceFor k.rot ≠ .replicate 4 0) (source : IPv4) (idents : Nat → UInt16)
    (hidents : ∀ i j, i < j → j < ((newSpoofConn server t a).writeTo k d p).1.length → idents i ≠ idents j)
    (received : List Str)
    (hwire : received.Perm ((rawSend source idents ((newSpoofConn server t a).writeTo k d p).1).map IPPacket.marshal)) :
    (∀ n, p.length ≤ n → ∀ later, (newSpoofConn (!server) t b).readFrom n
        (handedUp (received.filterMap parseIPPacket) ++ later) = some (p, later)) ↔
      ipv4HeaderLen + ((newSpoofConn server t a).shim k d p).length ≤ (newSpoofConn server t a).mtu ∨
        (k.ipID + 1).toUInt16 ≠ 0 := by
  have hpair := newSpoofConn_paired server t a b
  have hmtu : 40 < (newSpoofConn server t a).mtu := keptMTU_gt a.mtu
  have hlen := length_shim (newSpoofConn server t a) k d p
  have hbody := length_obfuscate (newSpoofConn server t a) d p
  have hpos : 0 < p.length := length_pos_of_ne_nil hp
  have hsent := fragments_parse _ _ _ d source idents (.inl (by omega)) hfit hsrc hwire
  constructor
  · -- under zero every fragment gets an identification of its own, and nothing is handed up
    intro hread
    by_contra hno
    obtain ⟨hmany, hid⟩ := not_or.mp hno
    rw [not_not] at hid
    rw [hid] at hsent
    simp only [SpoofConn.writeTo, sendIP_eq, hid] at hidents
    have hnone := handedUp_own_ids _ _ d source idents hsrc hmtu (not_le.mp hmany) hidents hsent
    have h := hread p.length le_rfl []
    rw [hnone] at h
    cases h
  · intro hone n hn later
    obtain ⟨id, hsame⟩ := rawSend_one_id _ _ _ d source idents hsrc hone
    rw [hsame] at hsent
    rw [handedUp_fragments _ _ id d (.inl (by omega)) hsent, singleton_append, SpoofConn.readFrom,
      accept_shim k d hpair hp hfit hpin rfl rfl rfl]
    simp only [take_of_length_le hn]

end

section

def greTunnel : TunnelOpts := ⟨lit "secret", .udp, .gre, true, ⟨true, true, true, 0, 0, true, 0, true⟩⟩

def greServer : SpoofConn := newSpoofConn true greTunnel ⟨.replicate 4 1, [.replicate 4 9], .replicate 4 2, none, 48⟩

def greClient : SpoofConn :=
  newSpoofConn false greTunnel ⟨.replicate 4 2, [], .replicate 4 1, some (.replicate 4 9), 0⟩

/-- What the client's kernel has for the packets of one datagram; the server's counts its identifications from 1. -/
def greArrives (k : Counters) : List IPPacket :=
  handedUp (((rawSend (.replicate 4 2) (fun i => UInt16.ofNat (i + 1))
    (greServer.writeTo k ⟨1, 1, 1, 40, fun _ => 5⟩ (lit "ping")).1).map IPPacket.marshal).filterMap parseIPPacket)

theorem spoof_carrier_round_trip_gre :
    (greServer.writeTo ⟨7, 7, 7, 7⟩ ⟨1, 1, 1, 40, fun _ => 5⟩ (lit "ping")).1.length = 3 ∧
      greClient.readFrom 1500 (greArrives ⟨7, 7, 7, 7⟩) = some (lit "ping", []) := by
  have hthree : (greServer.writeTo ⟨7, 7, 7, 7⟩ ⟨1, 1, 1, 40, fun _ => 5⟩ (lit "ping")).1.length = 3 := by
    decide +kernel
  refine ⟨hthree, ?_⟩
  have h := (spoof_carrier_round_trip true greTunnel ⟨.replicate 4 1, [.replicate 4 9], .replicate 4 2, none, 48⟩
    ⟨.replicate 4 2, [], .replicate 4 1, some (.replicate 4 9), 0⟩ ⟨7, 7, 7, 7⟩ ⟨1, 1, 1, 40, fun _ => 5⟩ (lit "ping")
    (by decide) (by decide +kernel) (by decide +kernel) (by decide +kernel) (.replicate 4 2)
    (fun i => UInt16.ofNat (i + 1)) ?_ _ (.refl _)).mpr (.inr (by decide)) 1500 (by decide) []
  · rwa [append_nil] at h
  · intro i j hij hj
    have hj : j < 3 := hthree ▸ hj
    interval_cases j <;> interval_cases i <;> decide

/-- The datagram after 65535 others: three packets with the identification zero. -/
theorem ping_lost : (greServer.writeTo ⟨7, 65535, 7, 7⟩ ⟨1, 1, 1, 40, fun _ => 5⟩ (lit "ping")).1.map
      (fun q => (q.header.id, q.header.more)) = [(0, true), (0, true), (0, false)] ∧
    greClient.readFrom 1500 (greArrives ⟨7, 65535, 7, 7⟩) = none := by decide +kernel

end

end ArangeTun.Spoof
