import ArangeTun.Packet.Checksum

/-!
# Frames of the pck carrier

`assemblePckFrame`, `parsePckFrame` and `tcpTimestamp` of internal/utils/network/pckframe.go.
-/

namespace ArangeTun.Pck

open Go Packet

def pckEthHeaderLen : Nat := 14
def pckTCPHeaderLen : Nat := 20
def pckTCPOptionsLen : Nat := 12
def pckIPOffset : Nat := pckEthHeaderLen
def pckTCPOffset : Nat := pckIPOffset + ipv4HeaderLen
def pckPayloadOffset : Nat := pckTCPOffset + pckTCPHeaderLen + pckTCPOptionsLen
def pckWindow : UInt16 := 65535
def etherTypeIPv4 : UInt16 := 0x0800

structure PckFrameParams where
  srcMAC : Vector UInt8 6
  dstMAC : Vector UInt8 6
  srcIP : IPv4
  dstIP : IPv4
  srcPort : UInt16
  dstPort : UInt16
  seq : UInt32
  ack : UInt32
  flags : UInt8
  tsVal : UInt32
  tsEcr : UInt32
  id : UInt16
  payload : Str

def pckFrameLen (payload : Nat) : Nat :=
  pckEthHeaderLen + ipv4HeaderLen + pckTCPHeaderLen + pckTCPOptionsLen + payload

def frameBuffer (pooled : Str) (payload : Nat) : Str :=
  if pckFrameLen payload > pooled.length then List.replicate (pckFrameLen payload) 0 else pooled

structure PckSegment where
  srcIP : Str
  srcPort : UInt16
  dstPort : UInt16
  seq : UInt32
  tsVal : UInt32
  payload : Str
  deriving DecidableEq

/-- The walk over the options from `i` on, `none` also where the turns of the loop run out. -/
def tcpTimestampFrom (opts : Str) : Nat → Nat → Option UInt32
  | 0, _ => none
  | turns + 1, i =>
    if i < opts.length then do
      let kind ← opts[i]?
      if kind = 0 then some 0
      else if kind = 1 then tcpTimestampFrom opts turns (i + 1)
      else if i + 1 ≥ opts.length then some 0
      else do
        let l ← opts[i + 1]?
        if l.toNat < 2 ∨ i + l.toNat > opts.length then some 0
        else if kind = 8 ∧ l = 10 then uint32At opts (i + 2)
        else tcpTimestampFrom opts turns (i + l.toNat)
    else some 0

def tcpTimestamp (opts : Str) : Option UInt32 := tcpTimestampFrom opts (opts.length + 1) 0

def parseTCP (ip tcp : Str) (wantPort : UInt16) : Option (Option PckSegment) :=
  if tcp.length < pckTCPHeaderLen then some none
  else do
    let dstPort ← uint16At tcp 2
    if dstPort ≠ wantPort then some none
    else do
      let off := ((← tcp[12]?) >>> 4).toNat * 4
      if off < pckTCPHeaderLen ∨ off > tcp.length then some none
      else do
        let srcIP ← slice ip 12 16
        let srcPort ← uint16At tcp 0
        let seq ← uint32At tcp 4
        let tsVal ← tcpTimestamp (← slice tcp pckTCPHeaderLen off)
        let payload ← slice tcp off tcp.length
        some (some ⟨srcIP, srcPort, dstPort, seq, tsVal, payload⟩)

def parseIPv4 (ip : Str) (wantPort : UInt16) : Option (Option PckSegment) := do
  let b : UInt8 ← ip[0]?
  let ihl := (b &&& 0x0f).toNat * 4
  if b >>> 4 ≠ 4 then some none
  else if ihl < ipv4HeaderLen ∨ ip.length < ihl then some none
  else do
    if (← ip[9]?) ≠ 6 then some none
    else if (← uint16At ip 6) &&& 0x1fff ≠ 0 then some none
    else do
      let total := (← uint16At ip 2).toNat
      if total < ihl ∨ total > ip.length then some none
      else parseTCP ip (← slice ip ihl total) wantPort

def etherTypeOf (frame : Str) (linkLen : Nat) : Option UInt16 :=
  if linkLen = pckEthHeaderLen then uint16At frame 12 else some etherTypeIPv4

def parsePckFrame (frame : Str) (linkLen : Nat) (wantPort : UInt16) : Option (Option PckSegment) :=
  if frame.length < linkLen + ipv4HeaderLen then some none
  else do
    if (← etherTypeOf frame linkLen) ≠ etherTypeIPv4 then some none
    else parseIPv4 (← slice frame linkLen frame.length) wantPort

end ArangeTun.Pck
