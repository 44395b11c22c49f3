import ArangeTun.Pck.Frame

/-! # What `parsePckFrame` accepts -/

namespace ArangeTun.Pck

open Go Packet List Option

/-! ## Fields -/

def ihl (ip : Str) : Nat := 4 * ((ip.getD 0 0).toNat % 16)

def totalLength (ip : Str) : Nat := (be16 ip 2).toNat

def segment (ip : Str) : Str := (ip.take (totalLength ip)).drop (ihl ip)

def dataOffset (tcp : Str) : Nat := 4 * ((tcp.getD 12 0).toNat / 16)

def fragmentOffset (ip : Str) : Nat := (be16 ip 6).toNat % 8192

def moreFragments (ip : Str) : Bool := (be16 ip 6).toNat / 8192 % 2 = 1

structure IsTCP (tcp : Str) (wantPort : UInt16) : Prop where
  header : 20 ≤ tcp.length
  port : be16 tcp 2 = wantPort
  offset : 20 ≤ dataOffset tcp ∧ dataOffset tcp ≤ tcp.length

/-- An IPv4 packet with a TCP header to the port, and no fragment other than a first one. -/
structure IsIPv4 (ip : Str) (wantPort : UInt16) : Prop where
  version : (ip.getD 0 0).toNat / 16 = 4
  header : 20 ≤ ihl ip
  total : ihl ip ≤ totalLength ip ∧ totalLength ip ≤ ip.length
  protocol : ip.getD 9 0 = 6
  first : fragmentOffset ip = 0
  tcp : IsTCP (segment ip) wantPort

structure IsSegment (frame : Str) (linkLen : Nat) (wantPort : UInt16) : Prop where
  length : linkLen + 20 ≤ frame.length
  etherType : linkLen = 14 → be16 frame 12 = 0x0800
  ip : IsIPv4 (frame.drop linkLen) wantPort

theorem IsIPv4.tcp_in_packet {ip : Str} {wantPort : UInt16} (h : IsIPv4 ip wantPort) :
    ihl ip + 20 ≤ totalLength ip := by
  have htcp := h.tcp.header
  have htot := h.total
  rw [segment, length_drop, length_take] at htcp
  omega

theorem IsIPv4.port_field {ip : Str} {wantPort : UInt16} (h : IsIPv4 ip wantPort) :
    be16 ip (ihl ip + 2) = wantPort := by
  have hroom := h.tcp_in_packet
  rw [← h.tcp.port, segment, be16_drop, be16_take (by omega)]

instance (tcp : Str) (wantPort : UInt16) : Decidable (IsTCP tcp wantPort) :=
  decidable_of_iff (20 ≤ tcp.length ∧ be16 tcp 2 = wantPort ∧ 20 ≤ dataOffset tcp ∧ dataOffset tcp ≤ tcp.length)
    ⟨fun h => ⟨h.1, h.2.1, h.2.2⟩, fun h => ⟨h.header, h.port, h.offset⟩⟩

instance (ip : Str) (wantPort : UInt16) : Decidable (IsIPv4 ip wantPort) :=
  decidable_of_iff ((ip.getD 0 0).toNat / 16 = 4 ∧ 20 ≤ ihl ip ∧
      (ihl ip ≤ totalLength ip ∧ totalLength ip ≤ ip.length) ∧ ip.getD 9 0 = 6 ∧ fragmentOffset ip = 0 ∧
      IsTCP (segment ip) wantPort)
    ⟨fun h => ⟨h.1, h.2.1, h.2.2.1, h.2.2.2.1, h.2.2.2.2.1, h.2.2.2.2.2⟩,
      fun h => ⟨h.version, h.header, h.total, h.protocol, h.first, h.tcp⟩⟩

instance (frame : Str) (linkLen : Nat) (wantPort : UInt16) : Decidable (IsSegment frame linkLen wantPort) :=
  decidable_of_iff (linkLen + 20 ≤ frame.length ∧ (linkLen = 14 → be16 frame 12 = 0x0800) ∧
      IsIPv4 (frame.drop linkLen) wantPort)
    ⟨fun h => ⟨h.1, h.2.1, h.2.2⟩, fun h => ⟨h.length, h.etherType, h.ip⟩⟩

theorem toNat_shiftRight_four (b : UInt8) : (b >>> 4).toNat = b.toNat / 16 := by
  rw [UInt8.toNat_shiftRight, Nat.shiftRight_eq_div_pow]
  rfl

theorem toNat_and_fifteen (b : UInt8) : (b &&& 0x0f).toNat = b.toNat % 16 := by
  rw [UInt8.toNat_and]
  exact Nat.and_two_pow_sub_one_eq_mod b.toNat 4

theorem shiftRight_four_eq (b : UInt8) : b >>> 4 = 4 ↔ b.toNat / 16 = 4 := by
  rw [← toNat_shiftRight_four, ← UInt8.toNat_inj]
  rfl

theorem and_offset_eq_zero (v : UInt16) : v &&& 0x1fff = 0 ↔ v.toNat % 8192 = 0 := by
  rw [← UInt16.toNat_inj, UInt16.toNat_and]
  exact Eq.congr_left (Nat.and_two_pow_sub_one_eq_mod v.toNat 13)

theorem tcpTimestampFrom_isSome (opts : Str) (turns i : Nat) (h : opts.length < turns + i) (hpos : 0 < turns) :
    ∃ v, tcpTimestampFrom opts turns i = some v := by
  induction turns generalizing i with
  | zero => omega
  | succ turns ih =>
    unfold tcpTimestampFrom
    split
    · rename_i hi
      simp only [getElem?_of_lt hi, bind_eq_bind, bind_some]
      split
      · exact ⟨0, rfl⟩
      · split
        · exact ih (i + 1) (by omega) (by omega)
        · split
          · exact ⟨0, rfl⟩
          · rename_i hlen
            simp only [getElem?_of_lt (show i + 1 < opts.length by omega), bind_some]
            split
            · exact ⟨0, rfl⟩
            · rename_i hl
              split
              · rename_i hts
                have h10 : (10 : UInt8).toNat = 10 := rfl
                rw [hts.2, h10] at hl
                exact ⟨_, uint32At_of_le (by omega)⟩
              · exact ih _ (by omega) (by omega)
    · exact ⟨0, rfl⟩

theorem tcpTimestamp_isSome (opts : Str) : ∃ v, tcpTimestamp opts = some v :=
  tcpTimestampFrom_isSome opts (opts.length + 1) 0 (by omega) (by omega)

theorem tcpTimestampFrom_nop {opts : Str} {i : Nat} (turns : Nat) (h : opts[i]? = some 1) :
    tcpTimestampFrom opts (turns + 1) i = tcpTimestampFrom opts turns (i + 1) := by
  have hi : i < opts.length := (List.getElem?_eq_some_iff.mp h).1
  rw [tcpTimestampFrom, if_pos hi, h]
  rfl

theorem tcpTimestampFrom_timestamps {opts : Str} {i : Nat} (turns : Nat) (hkind : opts[i]? = some 8)
    (hlen : opts[i + 1]? = some 10) (hroom : i + 10 ≤ opts.length) :
    tcpTimestampFrom opts (turns + 1) i = uint32At opts (i + 2) := by
  have hl : ¬ ((10 : UInt8).toNat < 2 ∨ i + (10 : UInt8).toNat > opts.length) := by
    have : (10 : UInt8).toNat = 10 := rfl
    omega
  rw [tcpTimestampFrom, if_pos (by omega), hkind, hlen]
  simp only [bind_eq_bind, bind_some, if_neg hl]
  rw [if_neg (by decide), if_neg (by decide), if_neg (by omega), if_pos (by decide)]

/-! ## The parser -/

def segmentOf (ip tcp : Str) : PckSegment :=
  ⟨(ip.take 16).drop 12, be16 tcp 0, be16 tcp 2, be32 tcp 4,
    (tcpTimestamp ((tcp.take (dataOffset tcp)).drop 20)).getD 0, tcp.drop (dataOffset tcp)⟩

theorem parseTCP_eq (ip tcp : Str) (wantPort : UInt16) (hip : 16 ≤ ip.length) :
    parseTCP ip tcp wantPort = some (if IsTCP tcp wantPort then some (segmentOf ip tcp) else none) := by
  obtain ⟨tsVal, hts⟩ := tcpTimestamp_isSome ((tcp.take (dataOffset tcp)).drop 20)
  unfold parseTCP
  split
  · rename_i hlen
    rw [if_neg fun h => absurd h.header (not_le.mpr hlen)]
  · rename_i hlen
    have hlen' : 20 ≤ tcp.length := not_lt.mp hlen
    simp only [uint16At_of_le (show 2 + 2 ≤ tcp.length by omega), bind_eq_bind, bind_some]
    split
    · rename_i hport
      rw [if_neg fun h => hport h.port]
    · rename_i hport
      have hoff : ((tcp.getD 12 0) >>> 4).toNat * 4 = dataOffset tcp := by
        rw [toNat_shiftRight_four, dataOffset, Nat.mul_comm]
      simp only [getElem?_of_lt (show 12 < tcp.length by omega), bind_some, hoff]
      split
      · rename_i hbad
        rw [if_neg fun h => by have := h.offset; simp only [pckTCPHeaderLen] at hbad; omega]
      · rename_i hgood
        simp only [pckTCPHeaderLen, not_or, not_lt, gt_iff_lt] at hgood
        rw [if_pos ⟨hlen', not_not.mp hport, hgood⟩]
        simp only [slice_of_le (b := ip) (show 12 ≤ 16 by omega) hip, uint16At_of_le (show 0 + 2 ≤ tcp.length by omega),
          uint32At_of_le (show 4 + 4 ≤ tcp.length by omega), pckTCPHeaderLen, slice_of_le hgood.1 hgood.2, hts,
          slice_to_end hgood.2, bind_some, segmentOf, getD_some]

theorem parseIPv4_eq (ip : Str) (wantPort : UInt16) (hlen : 20 ≤ ip.length) :
    parseIPv4 ip wantPort = some (if IsIPv4 ip wantPort then some (segmentOf ip (segment ip)) else none) := by
  have htcp := parseTCP_eq ip (segment ip) wantPort (by omega)
  have hihl : ((ip.getD 0 0) &&& 0x0f).toNat * 4 = ihl ip := by
    rw [toNat_and_fifteen, ihl, Nat.mul_comm]
  simp only [parseIPv4, getElem?_of_lt (show 0 < ip.length by omega), getElem?_of_lt (show 9 < ip.length by omega),
    uint16At_of_le (show 6 + 2 ≤ ip.length by omega), uint16At_of_le (show 2 + 2 ≤ ip.length by omega),
    bind_eq_bind, bind_some, hihl, ipv4HeaderLen]
  split
  · rename_i h
    rw [if_neg fun hi => h ((shiftRight_four_eq _).mpr hi.version)]
  · rename_i hversion
    split
    · rename_i h
      rw [if_neg fun hi => by have := hi.header; have := hi.total; omega]
    · rename_i hheader
      split
      · rename_i h
        rw [if_neg fun hi => h hi.protocol]
      · rename_i hproto
        split
        · rename_i h
          rw [if_neg fun hi => h ((and_offset_eq_zero _).mpr hi.first)]
        · rename_i hfirst
          split
          · rename_i h
            rw [if_neg fun hi => by have := hi.total; unfold totalLength at this; omega]
          · rename_i htotal
            have htot : ihl ip ≤ totalLength ip ∧ totalLength ip ≤ ip.length := by
              unfold totalLength
              omega
            have hslice : slice ip (ihl ip) (be16 ip 2).toNat = some (segment ip) := slice_of_le htot.1 htot.2
            simp only [hslice, bind_some, htcp]
            by_cases ht : IsTCP (segment ip) wantPort
            · rw [if_pos ht, if_pos]
              exact ⟨(shiftRight_four_eq _).mp (not_not.mp hversion), by omega, htot, not_not.mp hproto,
                (and_offset_eq_zero _).mp (not_not.mp hfirst), ht⟩
            · rw [if_neg ht, if_neg fun hi => ht hi.tcp]

theorem etherTypeOf_eq {frame : Str} {linkLen : Nat} (hlen : linkLen + 20 ≤ frame.length) :
    ∃ t, etherTypeOf frame linkLen = some t ∧
      (t = etherTypeIPv4 ↔ (linkLen = 14 → be16 frame 12 = 0x0800)) := by
  unfold etherTypeOf
  by_cases h : linkLen = pckEthHeaderLen
  · rw [if_pos h, uint16At_of_le (by rw [h, pckEthHeaderLen] at hlen; omega)]
    exact ⟨_, rfl, fun ht _ => ht, fun ht => ht h⟩
  · rw [if_neg h]
    exact ⟨_, rfl, fun _ h14 => absurd h14 h, fun _ => rfl⟩

theorem parsePckFrame_eq (frame : Str) (linkLen : Nat) (wantPort : UInt16) :
    parsePckFrame frame linkLen wantPort = some
      (if IsSegment frame linkLen wantPort then
        some (segmentOf (frame.drop linkLen) (segment (frame.drop linkLen)))
      else none) := by
  unfold parsePckFrame
  split
  · rename_i hlen
    rw [if_neg fun h => absurd h.length (not_le.mpr hlen)]
  · rename_i hlen
    have hlen' : linkLen + 20 ≤ frame.length := not_lt.mp hlen
    have hip := parseIPv4_eq (frame.drop linkLen) wantPort (by rw [length_drop]; omega)
    obtain ⟨etherType, hread, htype⟩ := etherTypeOf_eq hlen'
    simp only [hread, bind_eq_bind, bind_some, slice_to_end (show linkLen ≤ frame.length by omega), hip]
    split
    · rename_i h
      rw [if_neg fun hs => h (htype.mpr hs.etherType)]
    · rename_i h
      by_cases hi : IsIPv4 (frame.drop linkLen) wantPort
      · rw [if_pos hi, if_pos ⟨hlen', htype.mp (not_not.mp h), hi⟩]
      · rw [if_neg hi, if_neg fun hs => hi hs.ip]

theorem parsePckFrame_accepts_iff (frame : Str) (linkLen : Nat) (wantPort : UInt16) :
    (∃ seg, parsePckFrame frame linkLen wantPort = some (some seg)) ↔ IsSegment frame linkLen wantPort := by
  by_cases hs : IsSegment frame linkLen wantPort <;> simp [parsePckFrame_eq, hs]

end ArangeTun.Pck
