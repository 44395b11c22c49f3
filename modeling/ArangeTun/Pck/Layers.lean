import ArangeTun.Pck.Frame
import ArangeTun.Relay.Model

/-!
# Frames from slices

The frame builders of internal/utils/network/pckframe.go over slices of any length: `assemblePckFrame`, which writes
into the caller's buffer, and the builders of single layers, which allocate.
-/

namespace ArangeTun.Pck.Layers

open Go Packet

def ip4 (ip : Str) : Str := (Relay.to4 ip).getD []

def fresh (n : Nat) (src : Str) : Vector UInt8 n :=
  ⟨(overlay (src.take n) (List.replicate n 0)).toArray, by simp [length_overlay]⟩

@[simp] theorem toList_fresh (n : Nat) (src : Str) : (fresh n src).toList = overlay (src.take n) (List.replicate n 0) := rfl

def l4Checksum (src dst : Str) (proto : UInt8) (segment : Str) : UInt16 :=
  Packet.l4Checksum (fresh 4 (ip4 src)) (fresh 4 (ip4 dst)) proto segment

structure PckFrameParams where
  srcMAC : Str
  dstMAC : Str
  srcIP : Str
  dstIP : Str
  srcPort : UInt16
  dstPort : UInt16
  seq : UInt32
  ack : UInt32
  flags : UInt8
  tsVal : UInt32
  tsEcr : UInt32
  id : UInt16
  payload : Str
  deriving DecidableEq

def assemblePckFrame (buf : Str) (p : PckFrameParams) : Option Str := do
  let total := pckFrameLen p.payload.length
  let frame ← slice buf 0 total
  -- Ethernet, and IPv4 with a zero checksum
  let frame ← puts frame
    [(0, p.dstMAC.take 6), (6, p.srcMAC.take 6), (12, putUint16 etherTypeIPv4),
     (pckIPOffset, [0x45]), (pckIPOffset + 1, [0xb8]),
     (pckIPOffset + 2, putUint16 (UInt16.ofNat (total - pckEthHeaderLen))), (pckIPOffset + 4, putUint16 p.id),
     (pckIPOffset + 6, putUint16 0x4000), (pckIPOffset + 8, [64]), (pckIPOffset + 9, [6]),
     (pckIPOffset + 10, [0, 0]), (pckIPOffset + 12, ip4 p.srcIP), (pckIPOffset + 16, ip4 p.dstIP)]
  let ip ← slice frame pckIPOffset pckTCPOffset
  let frame ← put frame (pckIPOffset + 10) (putUint16 (onesComplement [ip]))
  -- TCP with a zero checksum, and the payload
  let frame ← puts frame
    [(pckTCPOffset, putUint16 p.srcPort), (pckTCPOffset + 2, putUint16 p.dstPort),
     (pckTCPOffset + 4, putUint32 p.seq), (pckTCPOffset + 8, putUint32 p.ack),
     (pckTCPOffset + 12, [0x80]), (pckTCPOffset + 13, [p.flags]), (pckTCPOffset + 14, putUint16 pckWindow),
     (pckTCPOffset + 16, [0, 0]), (pckTCPOffset + 18, [0, 0]), (pckTCPOffset + 20, [1, 1]),
     (pckTCPOffset + 22, [8, 10]), (pckTCPOffset + 24, putUint32 p.tsVal), (pckTCPOffset + 28, putUint32 p.tsEcr),
     (pckPayloadOffset, p.payload)]
  let tcp ← slice frame pckTCPOffset frame.length
  put frame (pckTCPOffset + 16) (putUint16 (l4Checksum p.srcIP p.dstIP 6 tcp))

/-! ## The builders of single layers -/

def buildPckTCP (srcPort dstPort : UInt16) (seq ack : UInt32) (flags : UInt8) (tsVal tsEcr : UInt32) (src dst : Str)
    (payload : Str) : Option Str := do
  let off := pckTCPHeaderLen + pckTCPOptionsLen
  let b ← puts (List.replicate (off + payload.length) 0)
    [(0, putUint16 srcPort), (2, putUint16 dstPort), (4, putUint32 seq), (8, putUint32 ack), (12, [0x80]),
     (13, [flags]), (14, putUint16 pckWindow), (20, [1]), (21, [1]), (22, [8]), (23, [10]), (24, putUint32 tsVal),
     (28, putUint32 tsEcr), (off, payload)]
  put b 16 (putUint16 (l4Checksum src dst 6 b))

def buildPckIPv4 (id : UInt16) (src dst : Str) (l4 : Str) : Option Str := do
  let b := List.replicate (ipv4HeaderLen + l4.length) (0 : UInt8)
  let b ← puts b
    [(0, [0x45]), (1, [0xb8]), (2, putUint16 (UInt16.ofNat b.length)), (4, putUint16 id), (6, putUint16 0x4000),
     (8, [64]), (9, [6]), (12, ip4 src), (16, ip4 dst)]
  let header ← slice b 0 ipv4HeaderLen
  puts b [(10, putUint16 (onesComplement [header])), (ipv4HeaderLen, l4)]

def buildPckEthernet (dstMAC srcMAC : Str) (ip : Str) : Option Str :=
  puts (List.replicate (pckEthHeaderLen + ip.length) 0)
    [(0, dstMAC.take 6), (6, srcMAC.take 6), (12, putUint16 etherTypeIPv4), (pckEthHeaderLen, ip)]

def layeredFrame (p : PckFrameParams) : Option Str := do
  let tcp ← buildPckTCP p.srcPort p.dstPort p.seq p.ack p.flags p.tsVal p.tsEcr p.srcIP p.dstIP p.payload
  let ip ← buildPckIPv4 p.id p.srcIP p.dstIP tcp
  buildPckEthernet p.dstMAC p.srcMAC ip

/-! ## Addresses of a fixed length -/

@[simps srcPort dstPort seq ack flags tsVal tsEcr id payload]
def PckFrameParams.typed (p : PckFrameParams) : Pck.PckFrameParams :=
  { srcMAC := fresh 6 p.srcMAC
    dstMAC := fresh 6 p.dstMAC
    srcIP := fresh 4 (ip4 p.srcIP)
    dstIP := fresh 4 (ip4 p.dstIP)
    srcPort := p.srcPort
    dstPort := p.dstPort
    seq := p.seq
    ack := p.ack
    flags := p.flags
    tsVal := p.tsVal
    tsEcr := p.tsEcr
    id := p.id
    payload := p.payload }

def slices (p : Pck.PckFrameParams) : PckFrameParams :=
  { srcMAC := p.srcMAC.toList
    dstMAC := p.dstMAC.toList
    srcIP := p.srcIP.toList
    dstIP := p.dstIP.toList
    srcPort := p.srcPort
    dstPort := p.dstPort
    seq := p.seq
    ack := p.ack
    flags := p.flags
    tsVal := p.tsVal
    tsEcr := p.tsEcr
    id := p.id
    payload := p.payload }

theorem ip4_eq_nil_or (ip : Str) : (Relay.to4 ip = none ∧ ip4 ip = []) ∨ (Relay.to4 ip ≠ none ∧ (ip4 ip).length = 4) := by
  unfold ip4 Relay.to4
  split
  · rename_i h
    exact .inr ⟨nofun, h⟩
  · split
    · rename_i h
      refine .inr ⟨nofun, ?_⟩
      rw [Option.getD_some, List.length_drop, h.1]
    · exact .inl ⟨rfl, rfl⟩

theorem length_ip4_le (ip : Str) : (ip4 ip).length ≤ 4 := by
  rcases ip4_eq_nil_or ip with ⟨_, h⟩ | ⟨_, h⟩
  · rw [h]
    exact Nat.zero_le 4
  · exact h.le

@[simp] theorem ip4_toList (v : IPv4) : ip4 v.toList = v.toList := by
  rw [ip4, Relay.to4, if_pos Vector.length_toList]
  rfl

@[simp] theorem fresh_toList {n : Nat} (v : Vector UInt8 n) : fresh n v.toList = v := by
  apply Vector.toList_inj.mp
  rw [toList_fresh, List.take_of_length_le Vector.length_toList.le, overlay_of_length_eq (by simp)]

@[simp] theorem typed_slices (p : Pck.PckFrameParams) : (slices p).typed = p := by
  simp only [PckFrameParams.typed, slices, ip4_toList, fresh_toList]

end ArangeTun.Pck.Layers

namespace ArangeTun.Pck

open Go

/-- `assemblePckFrame` on addresses of the lengths that a frame has room for. -/
def assemblePckFrame (buf : Str) (p : PckFrameParams) : Option Str := Layers.assemblePckFrame buf (Layers.slices p)

end ArangeTun.Pck
