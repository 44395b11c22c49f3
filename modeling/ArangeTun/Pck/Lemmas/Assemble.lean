import ArangeTun.Pck.Layers
import ArangeTun.Pck.Lemmas.Parse

/-! # What `assemblePckFrame` writes -/

namespace ArangeTun.Pck

open Go Packet List Option

variable (p : PckFrameParams)

def ethernetHeader : Str := p.dstMAC.toList ++ p.srcMAC.toList ++ putUint16 etherTypeIPv4

def ipStart : Str :=
  [0x45, 0xb8] ++ putUint16 (UInt16.ofNat (52 + p.payload.length)) ++ putUint16 p.id ++ putUint16 0x4000 ++ [64, 6]

def ipAddresses : Str := p.srcIP.toList ++ p.dstIP.toList

def ipHeader : Str :=
  ipStart p ++ putUint16 (onesComplement [ipStart p ++ [0, 0] ++ ipAddresses p]) ++ ipAddresses p

def ipHeaderWith (addresses : Str) : Str :=
  ipStart p ++ putUint16 (onesComplement [ipStart p ++ [0, 0] ++ addresses]) ++ addresses

theorem ipHeader_eq : ipHeader p = ipHeaderWith p (ipAddresses p) := rfl

def tcpStart : Str :=
  putUint16 p.srcPort ++ putUint16 p.dstPort ++ putUint32 p.seq ++ putUint32 p.ack ++ [0x80, p.flags] ++
    putUint16 pckWindow

def tcpOptions : Str := [1, 1, 8, 10] ++ putUint32 p.tsVal ++ putUint32 p.tsEcr

def tcpChecksum : UInt16 :=
  l4Checksum p.srcIP p.dstIP 6 (tcpStart p ++ [0, 0] ++ [0, 0] ++ tcpOptions p ++ p.payload)

def tcpHeader : Str := tcpStart p ++ putUint16 (tcpChecksum p) ++ [0, 0] ++ tcpOptions p

def pckFrame : Str := ethernetHeader p ++ (ipHeader p ++ (tcpHeader p ++ p.payload))

@[simp] theorem length_ethernetHeader : (ethernetHeader p).length = 14 := by simp [ethernetHeader]

@[simp] theorem length_ipStart : (ipStart p).length = 10 := by simp [ipStart]

@[simp] theorem length_ipAddresses : (ipAddresses p).length = 8 := by simp [ipAddresses]

@[simp] theorem length_ipHeader : (ipHeader p).length = 20 := by simp [ipHeader]

@[simp] theorem length_tcpStart : (tcpStart p).length = 16 := by simp [tcpStart]

@[simp] theorem length_tcpOptions : (tcpOptions p).length = 12 := by simp [tcpOptions]

@[simp] theorem length_tcpHeader : (tcpHeader p).length = 32 := by simp [tcpHeader]

theorem puts_tcp (pre buf : Str) (hpre : pre.length = 34) (h : buf.length = 32 + p.payload.length) :
    puts (pre ++ buf)
      [(pckTCPOffset, putUint16 p.srcPort), (pckTCPOffset + 2, putUint16 p.dstPort),
       (pckTCPOffset + 4, putUint32 p.seq), (pckTCPOffset + 8, putUint32 p.ack),
       (pckTCPOffset + 12, [0x80]), (pckTCPOffset + 13, [p.flags]), (pckTCPOffset + 14, putUint16 pckWindow),
       (pckTCPOffset + 16, [0, 0]), (pckTCPOffset + 18, [0, 0]), (pckTCPOffset + 20, [1, 1]),
       (pckTCPOffset + 22, [8, 10]), (pckTCPOffset + 24, putUint32 p.tsVal),
       (pckTCPOffset + 28, putUint32 p.tsEcr), (pckPayloadOffset, p.payload)] =
      some (pre ++ (tcpStart p ++ [0, 0] ++ [0, 0] ++ tcpOptions p ++ p.payload)) := by
  have hw := puts_consecutive_all
    [putUint16 p.srcPort, putUint16 p.dstPort, putUint32 p.seq, putUint32 p.ack, [0x80], [p.flags],
      putUint16 pckWindow, [0, 0], [0, 0], [1, 1], [8, 10], putUint32 p.tsVal, putUint32 p.tsEcr, p.payload]
    pre buf (by simp; omega)
  simpa [consecutive, hpre, tcpStart, tcpOptions, pckTCPOffset, pckIPOffset, pckEthHeaderLen, ipv4HeaderLen,
    pckPayloadOffset, pckTCPHeaderLen, pckTCPOptionsLen] using hw

theorem put_ipChecksum (pre addresses rest : Str) {off : Nat} (hoff : pre.length + 10 = off) :
    put (pre ++ (ipStart p ++ [0, 0] ++ addresses) ++ rest) off
      (putUint16 (onesComplement [ipStart p ++ [0, 0] ++ addresses])) =
      some (pre ++ ipHeaderWith p addresses ++ rest) := by
  have h := put_middle (pre ++ ipStart p) [0, 0] (addresses ++ rest)
    (putUint16 (onesComplement [ipStart p ++ [0, 0] ++ addresses])) rfl
  rw [length_append, length_ipStart, hoff] at h
  simpa [ipHeaderWith] using h

theorem put_tcpChecksum (pre : Str) {off : Nat} (hoff : pre.length + 16 = off) :
    put (pre ++ (tcpStart p ++ [0, 0] ++ [0, 0] ++ tcpOptions p ++ p.payload)) off (putUint16 (tcpChecksum p)) =
      some (pre ++ (tcpHeader p ++ p.payload)) := by
  have h := put_middle (pre ++ tcpStart p) [0, 0] ([0, 0] ++ tcpOptions p ++ p.payload)
    (putUint16 (tcpChecksum p)) rfl
  rw [length_append, length_tcpStart, hoff] at h
  simpa [tcpHeader] using h

theorem pckFrameLen_eq (payload : Nat) : pckFrameLen payload = 66 + payload := by
  simp only [pckFrameLen, pckEthHeaderLen, ipv4HeaderLen, pckTCPHeaderLen, pckTCPOptionsLen]

namespace Layers

variable (p : PckFrameParams)

def ethernetOver (buf : Str) : Str :=
  overlay (p.dstMAC.take 6) (buf.take 6) ++ overlay (p.srcMAC.take 6) ((buf.drop 6).take 6) ++ putUint16 etherTypeIPv4

def addressesOver (buf : Str) : Str :=
  overlay (ip4 p.srcIP) ((buf.drop 26).take 4) ++ overlay (ip4 p.dstIP) ((buf.drop 30).take 4)

def frameOver (buf : Str) : Str :=
  ethernetOver p buf ++ (ipHeaderWith p.typed (addressesOver p buf) ++ (tcpHeader p.typed ++ p.payload))

variable {p} {buf : Str}

theorem length_field {i n : Nat} (h : i + n ≤ buf.length) : ((buf.drop i).take n).length = n := by
  rw [length_take_of_le]
  rw [length_drop]
  omega

theorem length_macs (h : 12 ≤ buf.length) :
    (overlay (p.dstMAC.take 6) (buf.take 6) ++ overlay (p.srcMAC.take 6) ((buf.drop 6).take 6)).length = 12 := by
  have hfirst : (buf.take 6).length = 6 := length_take_of_le (by omega)
  have hsecond := @length_field buf 6 6 h
  rw [length_append, length_overlay, length_overlay, hfirst, hsecond]
  · rw [hsecond, length_take]
    omega
  · rw [hfirst, length_take]
    omega

theorem length_ethernetOver (h : 12 ≤ buf.length) : (ethernetOver p buf).length = 14 := by
  rw [ethernetOver, length_append, length_macs h]
  rfl

theorem length_addressesOver (h : 34 ≤ buf.length) : (addressesOver p buf).length = 8 := by
  have hsrc := @length_field buf 26 4 (by omega)
  have hdst := @length_field buf 30 4 (by omega)
  rw [addressesOver, length_append, length_overlay, length_overlay, hsrc, hdst]
  · rw [hdst]
    exact length_ip4_le _
  · rw [hsrc]
    exact length_ip4_le _

variable (p) in
def fixedFields : List Str :=
  [putUint16 etherTypeIPv4, [0x45], [0xb8], putUint16 (UInt16.ofNat (52 + p.payload.length)), putUint16 p.id,
   putUint16 0x4000, [64], [6], [0, 0]]

theorem puts_ethernet_ip (h : 34 ≤ buf.length) :
    puts buf
      [(0, p.dstMAC.take 6), (6, p.srcMAC.take 6), (12, putUint16 etherTypeIPv4),
       (pckIPOffset, [0x45]), (pckIPOffset + 1, [0xb8]),
       (pckIPOffset + 2, putUint16 (UInt16.ofNat (52 + p.payload.length))), (pckIPOffset + 4, putUint16 p.id),
       (pckIPOffset + 6, putUint16 0x4000), (pckIPOffset + 8, [64]), (pckIPOffset + 9, [6]),
       (pckIPOffset + 10, [0, 0]), (pckIPOffset + 12, ip4 p.srcIP), (pckIPOffset + 16, ip4 p.dstIP)] =
      some (ethernetOver p buf ++ (ipStart p.typed ++ [0, 0] ++ addressesOver p buf) ++ buf.drop 34) := by
  have hmacs : puts buf (fieldsAt 0 [(6, p.dstMAC.take 6), (6, p.srcMAC.take 6)]) =
      some (overlay (p.dstMAC.take 6) (buf.take 6) ++ overlay (p.srcMAC.take 6) ((buf.drop 6).take 6) ++ buf.drop 12) := by
    have hw := puts_fieldsAt [(6, p.dstMAC.take 6), (6, p.srcMAC.take 6)] [] buf (by simp) (by simp; omega)
    simpa [written, drop_drop] using hw
  have hfixed := puts_consecutive (fixedFields p)
    (overlay (p.dstMAC.take 6) (buf.take 6) ++ overlay (p.srcMAC.take 6) ((buf.drop 6).take 6)) (buf.drop 12)
    (by simp [fixedFields]; omega)
  have haddresses := puts_fieldsAt [(4, ip4 p.srcIP), (4, ip4 p.dstIP)]
    (ethernetOver p buf ++ (ipStart p.typed ++ [0, 0])) (buf.drop 26)
    (by simp [length_ip4_le]) (by simp; omega)
  have hstart : overlay (p.dstMAC.take 6) (buf.take 6) ++ overlay (p.srcMAC.take 6) ((buf.drop 6).take 6) ++
      (fixedFields p).flatten = ethernetOver p buf ++ (ipStart p.typed ++ [0, 0]) := by
    simp [fixedFields, ethernetOver, ipStart, PckFrameParams.typed]
  have hlen : (ethernetOver p buf ++ (ipStart p.typed ++ [0, 0])).length = 26 := by
    rw [length_append, length_ethernetOver (by omega)]
    simp
  have hdrop : (buf.drop 12).drop (fixedFields p).flatten.length = buf.drop 26 := drop_drop
  rw [length_macs (by omega), hstart, hdrop] at hfixed
  rw [hlen] at haddresses
  -- the list of writes is these three parts
  have hwrites : puts buf (fieldsAt 0 [(6, p.dstMAC.take 6), (6, p.srcMAC.take 6)] ++
      (consecutive 12 (fixedFields p) ++ fieldsAt 26 [(4, ip4 p.srcIP), (4, ip4 p.dstIP)])) =
      some (ethernetOver p buf ++ (ipStart p.typed ++ [0, 0]) ++
        written [(4, ip4 p.srcIP), (4, ip4 p.dstIP)] (buf.drop 26)) := by
    rw [puts_append, hmacs, bind_some, puts_append, hfixed, bind_some, haddresses]
  refine hwrites.trans ?_
  simp [written, addressesOver, drop_drop]

theorem frameOver_take {n : Nat} (h : 34 ≤ n) : frameOver p (buf.take n) = frameOver p buf := by
  have hcut (i w : Nat) (hw : i + w ≤ n) : ((buf.take n).drop i).take w = (buf.drop i).take w := by
    rw [drop_take, take_take, min_eq_left (by omega)]
  have hfirst := hcut 0 6 (by omega)
  simp only [drop_zero] at hfirst
  simp only [frameOver, ethernetOver, addressesOver, hcut 6 6 (by omega), hcut 26 4 (by omega),
    hcut 30 4 (by omega), hfirst]

theorem assemblePckFrame_eq (h : pckFrameLen p.payload.length ≤ buf.length) :
    assemblePckFrame buf p = some (frameOver p buf) := by
  have htotal := pckFrameLen_eq p.payload.length
  have hiplen : pckFrameLen p.payload.length - pckEthHeaderLen = 52 + p.payload.length := by
    rw [htotal, pckEthHeaderLen]
    omega
  have hframe : (buf.take (pckFrameLen p.payload.length)).length = 66 + p.payload.length := by
    rw [length_take_of_le h, htotal]
  rw [← frameOver_take (show 34 ≤ pckFrameLen p.payload.length by omega)]
  have hslice := slice_of_le (Nat.zero_le _) h
  rw [drop_zero] at hslice
  generalize hf : buf.take (pckFrameLen p.payload.length) = frame at *
  have hether := @length_ethernetOver p frame (by omega)
  have haddr := @length_addressesOver p frame (by omega)
  have hhead : (ethernetOver p frame ++ ipHeaderWith p.typed (addressesOver p frame)).length = 34 := by
    simp [ipHeaderWith, hether, haddr]
  have hip : slice (ethernetOver p frame ++ (ipStart p.typed ++ [0, 0] ++ addressesOver p frame) ++ frame.drop 34)
      pckIPOffset pckTCPOffset = some (ipStart p.typed ++ [0, 0] ++ addressesOver p frame) := by
    rw [append_assoc]
    exact slice_middle _ _ _ (by simp [hether, pckIPOffset, pckEthHeaderLen])
      (by simp [haddr, pckTCPOffset, ipv4HeaderLen])
  have htcp := puts_tcp p.typed (ethernetOver p frame ++ ipHeaderWith p.typed (addressesOver p frame))
    (frame.drop 34) hhead (by rw [length_drop, hframe, PckFrameParams.typed_payload]; omega)
  have hseg : slice (ethernetOver p frame ++ ipHeaderWith p.typed (addressesOver p frame) ++
      (tcpStart p.typed ++ [0, 0] ++ [0, 0] ++ tcpOptions p.typed ++ p.payload))
      pckTCPOffset (ethernetOver p frame ++ ipHeaderWith p.typed (addressesOver p frame) ++
        (tcpStart p.typed ++ [0, 0] ++ [0, 0] ++ tcpOptions p.typed ++ p.payload)).length =
      some (tcpStart p.typed ++ [0, 0] ++ [0, 0] ++ tcpOptions p.typed ++ p.payload) := by
    rw [slice_to_end (by rw [length_append, hhead]; exact Nat.le_add_right 34 _)]
    exact congrArg some (drop_left' hhead)
  have hipOff : (ethernetOver p frame).length + 10 = pckIPOffset + 10 := by
    rw [hether, pckIPOffset, pckEthHeaderLen]
  have htcpOff : (ethernetOver p frame ++ ipHeaderWith p.typed (addressesOver p frame)).length + 16 =
      pckTCPOffset + 16 := by
    rw [hhead, pckTCPOffset, pckIPOffset, pckEthHeaderLen, ipv4HeaderLen]
  unfold assemblePckFrame
  simp only [hslice, hiplen, bind_eq_bind, bind_some, puts_ethernet_ip (show 34 ≤ frame.length by omega),
    hip, put_ipChecksum p.typed _ _ _ hipOff]
  simp only [PckFrameParams.typed_srcPort, PckFrameParams.typed_dstPort, PckFrameParams.typed_seq,
    PckFrameParams.typed_ack, PckFrameParams.typed_flags, PckFrameParams.typed_tsVal, PckFrameParams.typed_tsEcr,
    PckFrameParams.typed_payload] at htcp
  rw [htcp, bind_some, hseg, bind_some]
  exact (put_tcpChecksum p.typed _ htcpOff).trans (congrArg some (append_assoc ..))

theorem frameOver_slices (p : Pck.PckFrameParams) (h : 34 ≤ buf.length) : frameOver (slices p) buf = pckFrame p := by
  have hover {n : Nat} {v field : Str} (hv : v.length = n) (hfield : field.length = n) : overlay v field = v :=
    overlay_of_length_eq (hv.trans hfield.symm)
  have htake {v : Str} (hv : v.length = 6) : v.take 6 = v := take_of_length_le hv.le
  have hfirst : (buf.take 6).length = 6 := length_take_of_le (by omega)
  have hether : ethernetOver (slices p) buf = ethernetHeader p := by
    rw [ethernetOver, slices, htake (v := p.dstMAC.toList) (by simp), htake (v := p.srcMAC.toList) (by simp),
      hover (v := p.dstMAC.toList) (by simp) hfirst, hover (v := p.srcMAC.toList) (by simp) (length_field (by omega)),
      ethernetHeader]
  have haddr : addressesOver (slices p) buf = ipAddresses p := by
    rw [addressesOver, slices, ip4_toList, ip4_toList, hover (v := p.srcIP.toList) (by simp) (length_field (by omega)),
      hover (v := p.dstIP.toList) (by simp) (length_field (by omega)), ipAddresses]
  rw [frameOver, hether, haddr, typed_slices, pckFrame, ipHeader_eq, slices]

end Layers

theorem assemblePckFrame_eq {buf : Str} (h : pckFrameLen p.payload.length ≤ buf.length) :
    assemblePckFrame buf p = some (pckFrame p) := by
  have htotal := pckFrameLen_eq p.payload.length
  rw [assemblePckFrame, Layers.assemblePckFrame_eq h, Layers.frameOver_slices p (by omega)]

end ArangeTun.Pck
