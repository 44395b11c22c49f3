import ArangeTun.Pck.Lemmas.Assemble

/-! # Frames of the pck carrier: results -/

namespace ArangeTun.Pck

open Go Packet List Option

/-! ## Round trip -/

section

variable (p : PckFrameParams) (padding : Str)

/-- The packet behind the link header, followed by what the link may pad it with. -/
def pckPacket : Str := ipHeader p ++ (tcpHeader p ++ p.payload) ++ padding

theorem ihl_pckPacket : ihl (pckPacket p padding) = 20 := by
  have h : (pckPacket p padding).getD 0 0 = 0x45 := rfl
  rw [ihl, h]
  rfl

theorem totalLength_pckPacket (h : p.payload.length ≤ 65535 - 52) :
    totalLength (pckPacket p padding) = 52 + p.payload.length := by
  have hfield : be16 (pckPacket p padding) 2 = UInt16.ofNat (52 + p.payload.length) :=
    be16_putUint16 (UInt16.ofNat (52 + p.payload.length)) ((pckPacket p padding).drop 4)
  rw [totalLength, hfield, UInt16.toNat_ofNat']
  omega

theorem segment_pckPacket (h : p.payload.length ≤ 65535 - 52) :
    segment (pckPacket p padding) = tcpHeader p ++ p.payload := by
  rw [segment, totalLength_pckPacket p padding h, ihl_pckPacket, pckPacket,
    take_left' (by simp; omega), drop_left' (by simp)]

theorem dataOffset_tcpHeader : dataOffset (tcpHeader p ++ p.payload) = 32 := by
  have h : (tcpHeader p ++ p.payload).getD 12 0 = 0x80 := rfl
  rw [dataOffset, h]
  rfl

theorem tcpTimestamp_tcpOptions : tcpTimestamp (tcpOptions p) = some p.tsVal := by
  have hts : uint32At (tcpOptions p) 4 = some p.tsVal := by
    rw [uint32At_of_le (by simp)]
    exact congrArg some (be32_putUint32 p.tsVal (putUint32 p.tsEcr))
  rw [tcpTimestamp, length_tcpOptions, tcpTimestampFrom_nop 12 rfl, tcpTimestampFrom_nop 11 rfl,
    tcpTimestampFrom_timestamps 10 rfl rfl (by simp), hts]

theorem segmentOf_pckPacket :
    segmentOf (pckPacket p padding) (tcpHeader p ++ p.payload) =
      ⟨p.srcIP.toList, p.srcPort, p.dstPort, p.seq, p.tsVal, p.payload⟩ := by
  have hsrc : ((pckPacket p padding).take 16).drop 12 = p.srcIP.toList := by
    have h : pckPacket p padding = (ipStart p ++ putUint16 (onesComplement [ipStart p ++ [0, 0] ++ ipAddresses p])) ++
        p.srcIP.toList ++ (p.dstIP.toList ++ (tcpHeader p ++ p.payload) ++ padding) := by
      simp [pckPacket, ipHeader, ipAddresses]
    rw [h, take_left' (by simp), drop_left' (by simp)]
  have hopts : ((tcpHeader p ++ p.payload).take 32).drop 20 = tcpOptions p := by
    rw [take_left' (by simp), tcpHeader, drop_left' (by simp)]
  have hseq : be32 (tcpHeader p ++ p.payload) 4 = p.seq :=
    be32_putUint32 p.seq ((tcpHeader p ++ p.payload).drop 8)
  have hsport : be16 (tcpHeader p ++ p.payload) 0 = p.srcPort :=
    be16_putUint16 p.srcPort ((tcpHeader p ++ p.payload).drop 2)
  have hdport : be16 (tcpHeader p ++ p.payload) 2 = p.dstPort :=
    be16_putUint16 p.dstPort ((tcpHeader p ++ p.payload).drop 4)
  rw [segmentOf, dataOffset_tcpHeader, hsrc, hopts, hseq, hsport, hdport, tcpTimestamp_tcpOptions,
    drop_left' (by simp), getD_some]

theorem isIPv4_pckPacket (h : p.payload.length ≤ 65535 - 52) : IsIPv4 (pckPacket p padding) p.dstPort := by
  have hversion : (pckPacket p padding).getD 0 0 = 0x45 := rfl
  have hflags : be16 (pckPacket p padding) 6 = 0x4000 :=
    be16_putUint16 0x4000 ((pckPacket p padding).drop 8)
  refine ⟨by rw [hversion]; rfl, by rw [ihl_pckPacket], ?_, rfl, by rw [fragmentOffset, hflags]; rfl, ?_⟩
  · rw [ihl_pckPacket, totalLength_pckPacket p padding h, pckPacket]
    simp
    omega
  · rw [segment_pckPacket p padding h]
    refine ⟨by simp; omega, be16_putUint16 p.dstPort ((tcpHeader p ++ p.payload).drop 4), ?_⟩
    rw [dataOffset_tcpHeader]
    simp

theorem parsePckFrame_pckFrame (h : p.payload.length ≤ 65535 - 52) :
    parsePckFrame (pckFrame p ++ padding) 14 p.dstPort =
      some (some ⟨p.srcIP.toList, p.srcPort, p.dstPort, p.seq, p.tsVal, p.payload⟩) ∧
    parsePckFrame ((pckFrame p).drop 14 ++ padding) 0 p.dstPort =
      some (some ⟨p.srcIP.toList, p.srcPort, p.dstPort, p.seq, p.tsVal, p.payload⟩) := by
  have hdrop : (pckFrame p ++ padding).drop 14 = pckPacket p padding := by
    rw [pckFrame, append_assoc, drop_left' (by simp), pckPacket]
  have hpkt : (pckFrame p).drop 14 ++ padding = pckPacket p padding := by
    rw [pckFrame, drop_left' (by simp), pckPacket]
  have hseg : segmentOf (pckPacket p padding) (segment (pckPacket p padding)) =
      ⟨p.srcIP.toList, p.srcPort, p.dstPort, p.seq, p.tsVal, p.payload⟩ := by
    rw [segment_pckPacket p padding h, segmentOf_pckPacket]
  have h14 : IsSegment (pckFrame p ++ padding) 14 p.dstPort := by
    refine ⟨by simp [pckFrame]; omega, fun _ => ?_, by rw [hdrop]; exact isIPv4_pckPacket p padding h⟩
    have hether : (pckFrame p ++ padding).drop 12 =
        putUint16 etherTypeIPv4 ++ (ipHeader p ++ (tcpHeader p ++ p.payload) ++ padding) := by
      simp only [pckFrame, ethernetHeader, append_assoc]
      rw [← append_assoc, drop_left' (by simp)]
    rw [← Nat.add_zero 12, ← be16_drop, hether, be16_putUint16]
    rfl
  have h0 : IsSegment (pckPacket p padding) 0 p.dstPort :=
    ⟨by simp [pckPacket], by omega, by rw [drop_zero]; exact isIPv4_pckPacket p padding h⟩
  rw [parsePckFrame_eq, if_pos h14, hdrop, hpkt, parsePckFrame_eq, if_pos h0, drop_zero, hseg]
  exact ⟨rfl, rfl⟩

end

/-- A frame is parsed to what it was assembled from, whatever the pooled buffer held and whatever follows the
packet on the link, with the Ethernet header and without it. -/
theorem parsePckFrame_assemblePckFrame (p : PckFrameParams) (h : p.payload.length ≤ 65535 - 52) (pooled : Str) :
    ∃ frame, assemblePckFrame (frameBuffer pooled p.payload.length) p = some frame ∧ ∀ padding,
      parsePckFrame (frame ++ padding) 14 p.dstPort =
        some (some ⟨p.srcIP.toList, p.srcPort, p.dstPort, p.seq, p.tsVal, p.payload⟩) ∧
      parsePckFrame (frame.drop 14 ++ padding) 0 p.dstPort =
        some (some ⟨p.srcIP.toList, p.srcPort, p.dstPort, p.seq, p.tsVal, p.payload⟩) := by
  have hroom : pckFrameLen p.payload.length ≤ (frameBuffer pooled p.payload.length).length := by
    unfold frameBuffer
    split
    · rw [length_replicate]
    · omega
  exact ⟨pckFrame p, assemblePckFrame_eq p hroom, fun padding => parsePckFrame_pckFrame p padding h⟩

theorem parsePckFrame_assemblePckFrame_dirty :
    ∃ frame, assemblePckFrame (frameBuffer (List.replicate 80 0xee) 5)
        ⟨.replicate 6 1, .replicate 6 2, .replicate 4 10, .replicate 4 11, 40000, 443, 7, 8, 0x18, 9, 10, 3, lit "hello"⟩ =
        some frame ∧
      parsePckFrame (frame ++ [0, 0, 0]) 14 443 = some (some ⟨[10, 10, 10, 10], 40000, 443, 7, 9, lit "hello"⟩) := by
  obtain ⟨frame, hframe, hparse⟩ := parsePckFrame_assemblePckFrame
    ⟨.replicate 6 1, .replicate 6 2, .replicate 4 10, .replicate 4 11, 40000, 443, 7, 8, 0x18, 9, 10, 3, lit "hello"⟩
    (by decide) (List.replicate 80 0xee)
  exact ⟨frame, hframe, (hparse [0, 0, 0]).1⟩

structure AcceptsWhole (frame : Str) (linkLen : Nat) (wantPort : UInt16) : Prop where
  returns : ∃ r, parsePckFrame frame linkLen wantPort = some r
  whole : ∀ seg, parsePckFrame frame linkLen wantPort = some (some seg) →
    IsSegment frame linkLen wantPort ∧ fragmentOffset (frame.drop linkLen) = 0 ∧
      moreFragments (frame.drop linkLen) = false ∧
      seg.payload = ((frame.drop linkLen).take (totalLength (frame.drop linkLen))).drop
        (ihl (frame.drop linkLen) + dataOffset (segment (frame.drop linkLen)))

/-- The parser looks at the offset and not at the More-Fragments flag, so the first fragment of a packet passes. -/
theorem acceptsWhole_iff_no_first_fragment (frame : Str) (linkLen : Nat) (wantPort : UInt16) :
    AcceptsWhole frame linkLen wantPort ↔
      ¬ (IsSegment frame linkLen wantPort ∧ moreFragments (frame.drop linkLen) = true) := by
  constructor
  · rintro ⟨_, hwhole⟩ ⟨hseg, hmore⟩
    obtain ⟨seg, hparse⟩ := (parsePckFrame_accepts_iff frame linkLen wantPort).mpr hseg
    have := (hwhole seg hparse).2.2.1
    rw [hmore] at this
    cases this
  · intro h
    refine ⟨⟨_, parsePckFrame_eq frame linkLen wantPort⟩, fun seg hparse => ?_⟩
    have hseg := (parsePckFrame_accepts_iff frame linkLen wantPort).mp ⟨seg, hparse⟩
    have hmore : moreFragments (frame.drop linkLen) = false := by
      cases hm : moreFragments (frame.drop linkLen) with
      | false => rfl
      | true => exact absurd ⟨hseg, hm⟩ h
    rw [parsePckFrame_eq, if_pos hseg] at hparse
    cases hparse
    exact ⟨hseg, hseg.ip.first, hmore, drop_drop⟩

def firstFragment : Str :=
  [0x45, 0, 0, 44, 0, 1, 0x20, 0, 64, 6, 0, 0, 10, 0, 0, 1, 10, 0, 0, 2,
   0x9c, 0x40, 0x01, 0xbb, 0, 0, 0, 1, 0, 0, 0, 2, 0x50, 0x18, 0xff, 0xff, 0, 0, 0, 0, 1, 2, 3, 4]

theorem firstFragment_accepted :
    parsePckFrame firstFragment 0 443 = some (some ⟨[10, 0, 0, 1], 40000, 443, 1, 0, [1, 2, 3, 4]⟩) ∧
      ¬ AcceptsWhole firstFragment 0 443 := by
  have hparse : parsePckFrame firstFragment 0 443 =
      some (some ⟨[10, 0, 0, 1], 40000, 443, 1, 0, [1, 2, 3, 4]⟩) := by decide +kernel
  refine ⟨hparse, fun h => ?_⟩
  have hmore : moreFragments (firstFragment.drop 0) = false := (h.whole _ hparse).2.2.1
  revert hmore
  decide +kernel

end ArangeTun.Pck
