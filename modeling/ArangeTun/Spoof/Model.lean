import ArangeTun.Go.Sha256
import ArangeTun.Packet.Checksum

/-!
# The spoof carrier

internal/utils/network/spoofpacket.go, spoofframe.go and spoofconn_linux.go.
-/

namespace ArangeTun.Spoof

open Go Packet

inductive SpoofProfile
  | udp
  | tcp
  | icmp
  | icmpv6
  | ipip
  | gre
  deriving DecidableEq

def SpoofProfile.ipProtocol : SpoofProfile → UInt8
  | .tcp => 6
  | .icmp => 1
  | .icmpv6 => 58
  | .ipip => 4
  | .gre => 47
  | .udp => 17

def SpoofProfile.hasPortDemux (p : SpoofProfile) : Bool := p ≠ .ipip ∧ p ≠ .gre

def SpoofProfile.isICMPFamily (p : SpoofProfile) : Bool := p = .icmp ∨ p = .icmpv6

def SpoofProfile.icmpEchoTypes : SpoofProfile → UInt8 × UInt8
  | .icmpv6 => (128, 129)
  | _ => (8, 0)

def greHeaderLen : Nat := 4

def profileL4Len : SpoofProfile → Nat
  | .tcp => 20
  | .ipip => 0
  | .gre => greHeaderLen
  | _ => 8

def spoofIdentity (token : Str) : Str × UInt16 :=
  let sum := Sha256.sum256 (lit "arange-tun-spoof-v1:" ++ token)
  let port := be16 sum 4
  (sum.take 4, if port < 1024 then port + 1024 else port)

/-! ## Obfuscation -/

structure SpoofDPI where
  ttlJitter : Bool
  randomDSCP : Bool
  shufflePort : Bool
  portMin : UInt16
  portMax : UInt16
  padding : Bool
  paddingMax : UInt8
  fakeTLS : Bool
  deriving DecidableEq

structure Draws where
  ttl : Nat
  dscp : Nat
  srcPort : Nat
  padLen : Nat
  padByte : Nat → UInt8

def SpoofDPI.pickTTL (d : SpoofDPI) (draw : Nat) : UInt8 :=
  if d.ttlJitter then [64, 128, 255].getD (draw % 3) 64 else 64

def SpoofDPI.pickDSCP (d : SpoofDPI) (draw : Nat) : UInt8 :=
  if d.randomDSCP then [0x00, 0x28, 0x10].getD (draw % 3) 0 else 0

def SpoofDPI.pickSrcPort (d : SpoofDPI) (fixed : UInt16) (draw : Nat) : UInt16 :=
  if !d.shufflePort then fixed
  else
    let lo := if d.portMin = 0 then 49152 else d.portMin
    let hi := if d.portMax ≤ lo then 65535 else d.portMax
    lo + UInt16.ofNat (draw % ((hi - lo).toNat + 1))

def applyFakeTLS (p : Str) : Str := [0x17, 0x03, 0x03] ++ putUint16 (UInt16.ofNat p.length) ++ p

def stripFakeTLS (p : Str) : Option Str :=
  if p.length < 5 ∨ p.getD 0 0 ≠ 0x17 ∨ p.getD 1 0 ≠ 0x03 ∨ p.getD 2 0 ≠ 0x03 then none else some (p.drop 5)

def paddingLength (max : UInt8) (draw : Nat) : Nat := draw % (if max = 0 then 64 else max.toNat) + 1

def applyPadding (p : Str) (max : UInt8) (d : Draws) : Str :=
  let padLen := paddingLength max d.padLen
  p ++ (List.range (padLen - 1)).map d.padByte ++ [UInt8.ofNat padLen]

def stripPadding (p : Str) : Option Str :=
  match p.getLast? with
  | none => none
  | some b => if b.toNat = 0 ∨ b.toNat > p.length then none else some (p.take (p.length - b.toNat))

/-! ## Shims -/

def buildGREShim (framed : Str) : Str := [0, 0] ++ putUint16 0x0800 ++ framed

def stripGREShim (l4 : Str) : Option Str := if l4.length < greHeaderLen then none else some (l4.drop greHeaderLen)

def udpStart (srcPort dstPort : UInt16) (framed : Str) : Str :=
  putUint16 srcPort ++ putUint16 dstPort ++ putUint16 (UInt16.ofNat (8 + framed.length))

def buildUDPShimPorts (srcPort dstPort : UInt16) (src dst : IPv4) (framed : Str) : Str :=
  let csum := l4Checksum src dst 17 (udpStart srcPort dstPort framed ++ putUint16 0 ++ framed)
  udpStart srcPort dstPort framed ++ putUint16 (if csum = 0 then 0xffff else csum) ++ framed

def tcpStart (srcPort dstPort : UInt16) (seq : UInt32) : Str :=
  putUint16 srcPort ++ putUint16 dstPort ++ putUint32 seq ++ putUint32 0 ++ [0x50, 0x18] ++ putUint16 0xffff

def buildTCPShimPorts (srcPort dstPort : UInt16) (seq : UInt32) (src dst : IPv4) (framed : Str) : Str :=
  let csum := l4Checksum src dst 6 (tcpStart srcPort dstPort seq ++ putUint16 0 ++ [0, 0] ++ framed)
  tcpStart srcPort dstPort seq ++ putUint16 csum ++ [0, 0] ++ framed

def stripSpoofShim (profile : SpoofProfile) (port : UInt16) (l4 : Str) : Option Str :=
  if profile = .tcp then
    if l4.length < 20 ∨ be16 l4 2 ≠ port then none
    else
      let off := 4 * ((l4.getD 12 0) >>> 4).toNat
      if off < 20 ∨ off > l4.length then none else some (l4.drop off)
  else if l4.length < 8 ∨ be16 l4 2 ≠ port then none
  else some (l4.drop 8)

def icmpEchoHeaderLen : Nat := 8

def buildICMPEcho (typ : UInt8) (id seq : UInt16) (payload : Str) : Str :=
  let csum := onesComplement [[typ, 0] ++ putUint16 0 ++ putUint16 id ++ putUint16 seq ++ payload]
  [typ, 0] ++ putUint16 csum ++ putUint16 id ++ putUint16 seq ++ payload

def parseICMPEcho (wantType : UInt8) (id : UInt16) (msg : Str) : Option Str :=
  if msg.length < icmpEchoHeaderLen then none
  else if msg.getD 0 0 ≠ wantType then none
  else if be16 msg 4 ≠ id then none
  else some (msg.drop icmpEchoHeaderLen)

/-! ## Fragments -/

structure SpoofFragRange where
  off : Nat
  stop : Nat
  more : Bool
  deriving DecidableEq

/-- The loop of `spoofFragments` from `off` on, for at most `turns` turns. -/
def fragmentsFrom (segLen maxData : Nat) : Nat → Nat → List SpoofFragRange
  | 0, _ => []
  | turns + 1, off =>
    if off < segLen then
      let stop := if off + maxData > segLen then segLen else off + maxData
      ⟨off, stop, stop < segLen⟩ :: fragmentsFrom segLen maxData turns (off + maxData)
    else []

/-- Every turn moves on by at least one byte, so `segLen` turns are enough. -/
def spoofFragments (segLen mtu : Nat) : List SpoofFragRange :=
  if ipv4HeaderLen + segLen ≤ mtu then [⟨0, segLen, false⟩]
  else
    let maxData := (mtu - ipv4HeaderLen) / 8 * 8
    fragmentsFrom segLen (if maxData = 0 then 8 else maxData) segLen 0

structure Header where
  tos : UInt8
  totalLen : Nat
  id : UInt16
  more : Bool
  fragOff : Nat
  ttl : UInt8
  protocol : UInt8
  src : IPv4
  dst : IPv4
  deriving DecidableEq

structure IPPacket where
  header : Header
  body : Str
  deriving DecidableEq

/-! ## The carrier -/

structure TunnelOpts where
  token : Str
  uplink : SpoofProfile
  downlink : SpoofProfile
  replySplit : Bool
  dpi : SpoofDPI

/-- The options of one end. `localSource` is the address that `localSourceToward` finds. -/
structure EndOpts where
  realPeer : IPv4
  srcPool : List IPv4
  localSource : IPv4
  peerSrc : Option IPv4
  mtu : Int

structure SpoofConn where
  sendProfile : SpoofProfile
  recvProfile : SpoofProfile
  port : UInt16
  realPeer : IPv4
  spoofSrcs : List IPv4
  spoofSrcs_ne : spoofSrcs ≠ []
  mtu : Nat
  sendICMPType : UInt8
  recvICMPType : UInt8
  expectSrc : Option IPv4
  dpi : SpoofDPI

def defaultSpoofMTU : Nat := 1500

def keptMTU (mtu : Int) : Nat := if mtu ≤ ipv4HeaderLen + profileL4Len .tcp then defaultSpoofMTU else mtu.toNat

def spoofSources (o : EndOpts) : List IPv4 := if o.srcPool = [] then [o.localSource] else o.srcPool

theorem spoofSources_ne (o : EndOpts) : spoofSources o ≠ [] := by
  unfold spoofSources
  split <;> simp_all

def newSpoofConn (server : Bool) (t : TunnelOpts) (o : EndOpts) : SpoofConn :=
  let sendProfile := if server then t.downlink else t.uplink
  let recvProfile := if server then t.uplink else t.downlink
  { sendProfile
    recvProfile
    port := (spoofIdentity t.token).2
    realPeer := o.realPeer
    spoofSrcs := spoofSources o
    spoofSrcs_ne := spoofSources_ne o
    mtu := keptMTU o.mtu
    sendICMPType := if t.replySplit && server then sendProfile.icmpEchoTypes.2 else sendProfile.icmpEchoTypes.1
    recvICMPType := if t.replySplit && !server then recvProfile.icmpEchoTypes.2 else recvProfile.icmpEchoTypes.1
    expectSrc := o.peerSrc
    dpi := t.dpi }

structure Counters where
  rot : UInt32
  ipID : UInt32
  tcpSeq : UInt32
  icmpSeq : UInt32
  deriving DecidableEq

namespace SpoofConn

variable (c : SpoofConn)

def sourceFor (rot : UInt32) : IPv4 :=
  c.spoofSrcs.get ⟨rot.toNat % c.spoofSrcs.length, Nat.mod_lt _ (List.length_pos_of_ne_nil c.spoofSrcs_ne)⟩

def obfuscate (d : Draws) (p : Str) : Str :=
  let body := if c.dpi.padding then applyPadding p c.dpi.paddingMax d else p
  if c.dpi.fakeTLS && c.sendProfile = .tcp then applyFakeTLS body else body

def shim (k : Counters) (d : Draws) (p : Str) : Str :=
  let src := c.sourceFor k.rot
  let body := c.obfuscate d p
  let srcPort := c.dpi.pickSrcPort c.port d.srcPort
  if c.sendProfile.isICMPFamily then buildICMPEcho c.sendICMPType c.port (k.icmpSeq + 1).toUInt16 body
  else if c.sendProfile = .tcp then
    buildTCPShimPorts srcPort c.port (k.tcpSeq + UInt32.ofNat body.length + 1) src c.realPeer body
  else if c.sendProfile = .ipip then body
  else if c.sendProfile = .gre then buildGREShim body
  else buildUDPShimPorts srcPort c.port src c.realPeer body

def sendIP (src : IPv4) (ipID : UInt32) (d : Draws) (shim : Str) : List IPPacket :=
  (spoofFragments shim.length c.mtu).map fun f =>
    { header :=
        { tos := c.dpi.pickDSCP d.dscp
          totalLen := ipv4HeaderLen + (f.stop - f.off)
          id := (ipID + 1).toUInt16
          more := f.more
          fragOff := f.off / 8
          ttl := c.dpi.pickTTL d.ttl
          protocol := c.sendProfile.ipProtocol
          src := src
          dst := c.realPeer }
      body := (shim.take f.stop).drop f.off }

def writeTo (k : Counters) (d : Draws) (p : Str) : List IPPacket × Counters :=
  (c.sendIP (c.sourceFor k.rot) k.ipID d (c.shim k d p),
   { rot := k.rot + 1
     ipID := k.ipID + 1
     tcpSeq :=
       if c.sendProfile = .tcp then k.tcpSeq + UInt32.ofNat (c.obfuscate d p).length + 1 else k.tcpSeq
     icmpSeq := if c.sendProfile.isICMPFamily then k.icmpSeq + 1 else k.icmpSeq })

def undoDPI (profile : SpoofProfile) (inner : Str) : Option Str :=
  (if c.dpi.fakeTLS && profile = .tcp then stripFakeTLS inner else some inner).bind fun inner =>
    if c.dpi.padding then stripPadding inner else some inner

end SpoofConn

end ArangeTun.Spoof
