import ArangeTun.Packet.Reassembly
import ArangeTun.Spoof.Filter

/-!
# Receiving

What the two kernels do with the packets, and `ReadFrom` of internal/utils/network/spoofconn_linux.go on what the peer's
hands up.
-/

namespace ArangeTun.Spoof

open Go Packet Bpf

/-! ## Packets on the wire -/

def Header.start (h : Header) : Str :=
  [0x45, h.tos] ++ putUint16 (UInt16.ofNat h.totalLen) ++ putUint16 h.id ++
    putUint16 (UInt16.ofNat (h.fragOff % 8192 + if h.more then 8192 else 0)) ++ [h.ttl, h.protocol]

def Header.addresses (h : Header) : Str := h.src.toList ++ h.dst.toList

def Header.marshal (h : Header) : Str :=
  h.start ++ putUint16 (onesComplement [h.start ++ putUint16 0 ++ h.addresses]) ++ h.addresses

def IPPacket.marshal (p : IPPacket) : Str := p.header.marshal ++ p.body

def addressAt (b : Str) (i : Nat) : IPv4 := #v[b.getD i 0, b.getD (i + 1) 0, b.getD (i + 2) 0, b.getD (i + 3) 0]

def parseIPPacket (b : Str) : Option IPPacket :=
  let ihl := 4 * ((b.getD 0 0).toNat % 16)
  let total := (be16 b 2).toNat
  if b.length < 20 ∨ (b.getD 0 0).toNat / 16 ≠ 4 ∨ ihl < 20 ∨ total < ihl ∨ b.length < total then none
  else some
    { header :=
        { tos := b.getD 1 0
          totalLen := total
          id := be16 b 4
          more := (be16 b 6).toNat / 8192 % 2 = 1
          fragOff := (be16 b 6).toNat % 8192
          ttl := b.getD 8 0
          protocol := b.getD 9 0
          src := addressAt b 12
          dst := addressAt b 16 }
      body := (b.take total).drop ihl }

/-! ## The kernels -/

/-- raw(7): on a socket with `IP_HDRINCL` the kernel fills in the source and the identification where they are zero. -/
def fillIn (source : IPv4) (ident : UInt16) (p : IPPacket) : IPPacket :=
  { p with
    header :=
      { p.header with
        src := if p.header.src = .replicate 4 0 then source else p.header.src
        id := if p.header.id = 0 then ident else p.header.id } }

/-- `idents` are the identifications that the kernel has for these packets, one for each. -/
def rawSend (source : IPv4) (idents : Nat → UInt16) (packets : List IPPacket) : List IPPacket :=
  packets.mapIdx fun i p => fillIn source (idents i) p

abbrev FragKey := IPv4 × IPv4 × UInt8 × UInt16

/-- RFC 791: the fragments of one packet agree in these. -/
def Header.key (h : Header) : FragKey := (h.src, h.dst, h.protocol, h.id)

def IPPacket.piece (p : IPPacket) : Piece UInt8 := ⟨8 * p.header.fragOff, p.body, p.header.more⟩

/-- The packet under one key, once all of its fragments are here; its header is that of the first of them. -/
def defragment (received : List IPPacket) (key : FragKey) : Option IPPacket := do
  let fragments := received.filter fun p => p.header.key = key
  let first ← fragments.find? fun p => p.header.fragOff = 0
  let body ← reassemble (fragments.map IPPacket.piece)
  some ⟨{ first.header with totalLen := ipv4HeaderLen + body.length, more := false, fragOff := 0 }, body⟩

def handedUp (received : List IPPacket) : List IPPacket :=
  (received.map (·.header.key)).dedup.filterMap (defragment received)

/-! ## Sockets -/

def udpReceive (port : UInt16) (p : IPPacket) : Option (IPv4 × Str) :=
  let ulen := (be16 p.body 4).toNat
  let segment := p.body.take ulen
  if p.header.protocol ≠ 17 ∨ p.body.length < 8 ∨ be16 p.body 2 ≠ port ∨ ulen < 8 ∨ p.body.length < ulen then none
  else if be16 p.body 6 ≠ 0 ∧ l4Checksum p.header.src p.header.dst 17 segment ≠ 0 then none
  else some (p.header.src, segment.drop 8)

def rawReceive (protocol : UInt8) (filter : Option (List RawInstruction)) (p : IPPacket) : Option Str :=
  if p.header.protocol ≠ protocol then none
  else
    match filter with
    | none => some p.marshal
    | some prog => if run prog p.marshal = 0 then none else some p.marshal

namespace SpoofConn

variable (c : SpoofConn)

def filter : Option (List RawInstruction) :=
  if c.recvProfile.hasPortDemux then spoofBPFProgram c.recvProfile c.port c.recvICMPType else none

def stripShim (payload : Str) : Option Str :=
  if c.recvProfile.isICMPFamily then parseICMPEcho c.recvICMPType c.port payload
  else if c.recvProfile = .ipip then some payload
  else if c.recvProfile = .gre then stripGREShim payload
  else stripSpoofShim c.recvProfile c.port payload

def readBufLen : Nat := 65535

def accept (p : IPPacket) : Option Str :=
  if c.recvProfile = .udp then
    match udpReceive c.port p with
    | none => none
    | some (src, data) =>
      let data := data.take readBufLen
      if data = [] then none
      else if c.expectSrc.any (· ≠ src) then none
      else (c.undoDPI .udp data).filter (· ≠ [])
  else
    match rawReceive c.recvProfile.ipProtocol c.filter p with
    | none => none
    | some b =>
      let b := b.take readBufLen
      if c.expectSrc.any (·.toList ≠ (b.take 16).drop 12) then none
      else
        ((c.stripShim (b.drop (4 * ((b.getD 0 0).toNat % 16)))).bind (c.undoDPI c.recvProfile)).filter (· ≠ [])

def readFrom (n : Nat) : List IPPacket → Option (Str × List IPPacket)
  | [] => none
  | p :: arriving =>
    match c.accept p with
    | none => readFrom n arriving
    | some inner => some (inner.take n, arriving)

end SpoofConn

end ArangeTun.Spoof
