import ArangeTun.Pck.Layers
import ArangeTun.Transition.Threads

/-!
# The pck carrier

`pckConn` of internal/utils/network/pckconn_linux.go.
-/

namespace ArangeTun.Pck

open Go Transition

/-! ## Addresses -/

structure UDPAddr where
  ip : Str
  port : Int
  zone : Str
  deriving DecidableEq

inductive Addr
  | udp (a : UDPAddr)
  | ip (ip : Str)
  | other

def toUDPAddr : Addr → Option UDPAddr
  | .udp v => if Relay.to4 v.ip ≠ none then some v else none
  | .ip ip => if Relay.to4 ip ≠ none then some ⟨ip, 0, []⟩ else none
  | .other => none

/-- `ip.String()` of an address with an IPv4 form; the carrier has no others. -/
def ipString (ip : Str) : Str := join ((Layers.ip4 ip).map fun b => decimal b.toNat) (byte '.')

def UDPAddr.string (a : UDPAddr) : Str :=
  joinHostPort (ipString a.ip ++ if a.zone = [] then [] else byte '%' :: a.zone) (itoa a.port)

def ipEqual (ip x : Str) : Bool :=
  if ip.length = x.length then ip = x
  else if ip.length = 4 ∧ x.length = 16 then Relay.to4 x = some ip
  else if ip.length = 16 ∧ x.length = 4 then Relay.to4 ip = some x
  else false

/-! ## Peers -/

structure PckPeer where
  addr : UDPAddr
  seq : UInt32
  ack : UInt32
  lastTS : UInt32
  touched : Nat

abbrev Peers := AList fun _ : Str => PckPeer

/-- The map after `peerFor`, with the random number for a first sequence number and the time. -/
def peerFor (peers : Peers) (addr : UDPAddr) (seed : UInt32) (now : Nat) : Peers :=
  let p := (peers.lookup addr.string).getD ⟨⟨addr.ip, addr.port, []⟩, seed, 0, 0, 0⟩
  peers.insert addr.string { p with touched := now }

def PckSegment.next (seg : PckSegment) : UInt32 := seg.seq + UInt32.ofNat seg.payload.length

/-- Whether `ReadFrom` moves the acknowledgement to the end of the segment. -/
def PckPeer.moves (peer : PckPeer) (seg : PckSegment) : Bool :=
  peer.ack = 0 ∨ 0 < (seg.next - peer.ack).toInt32

def PckPeer.receive (peer : PckPeer) (seg : PckSegment) : PckPeer :=
  { peer with
    ack := if peer.moves seg then seg.next else peer.ack
    lastTS := if seg.tsVal ≠ 0 then seg.tsVal else peer.lastTS }

def PckPeer.send (peer : PckPeer) (n : Nat) : PckPeer := { peer with seq := peer.seq + UInt32.ofNat n }

/-! ## The carrier -/

structure Iface where
  index : Nat
  name : Str

structure PckEgress where
  iface : Option Iface
  localIP : Str
  srcMAC : Str
  nextHop : Option Str
  linkLen : Nat
  ethernet : Bool

structure PckConn where
  egress : PckEgress
  localPort : UInt16
  flags : List UInt8
  flags_ne : flags ≠ []
  tsBase : UInt32

structure Shared where
  peers : Peers
  flagRot : UInt32
  ipID : UInt32
  closed : Bool
  acks : List (Str × UInt32)
  sent : List (Str × UInt32 × Nat)

inductive Pc
  | reading (seg : PckSegment)
  | acknowledging (seg : PckSegment)
  | received (seg : PckSegment)
  | skipped
  | writing (p : Str) (dst : UDPAddr)
  | numbering (p : Str) (dst : UDPAddr)
  | flagging (p : Str) (dst : UDPAddr) (seq ack tsEcr : UInt32)
  | assembling (p : Str) (dst : UDPAddr) (seq ack tsEcr : UInt32) (flags : UInt8)
  | assembled (frame : Option Str)
  | failed (err : Str)

inductive Request
  | frame (b : Str)
  | write (p : Str) (addr : Addr)

/-- What a step takes from outside: a random number, the time in milliseconds, a pooled buffer. -/
structure Outside where
  seed : UInt32
  now : Nat
  pooled : Str

inductive Env
  | close

def PckSegment.source (seg : PckSegment) : UDPAddr := ⟨seg.srcIP, seg.srcPort.toNat, []⟩

namespace PckConn

variable (c : PckConn)

def timestamp (now : Nat) : UInt32 := c.tsBase + UInt32.ofNat now

def accept (frame : Str) : Option PckSegment :=
  match parsePckFrame frame c.egress.linkLen c.localPort with
  | some (some seg) =>
    if seg.payload = [] then none
    else if ipEqual seg.srcIP c.egress.localIP ∧ seg.srcPort = c.localPort then none
    else some seg
  | _ => none

def flag (rot : UInt32) : UInt8 :=
  c.flags.get ⟨rot.toNat % c.flags.length, Nat.mod_lt _ (List.length_pos_of_ne_nil c.flags_ne)⟩

def params (p : Str) (dst : UDPAddr) (seq ack tsEcr : UInt32) (flags : UInt8) (now : Nat) (id : UInt16) :
    Layers.PckFrameParams :=
  { srcMAC := c.egress.srcMAC
    dstMAC := c.egress.nextHop.getD []
    srcIP := c.egress.localIP
    dstIP := Layers.ip4 dst.ip
    srcPort := c.localPort
    dstPort := UInt16.ofInt dst.port
    seq := seq
    ack := ack
    flags := flags
    tsVal := c.timestamp now
    tsEcr := tsEcr
    id := id
    payload := p }

def enter (s : Shared) (_ : Nat) : Request → Option (Shared × Pc)
  | .frame b =>
    match c.accept b with
    | some seg => some (s, .reading seg)
    | none => some (s, .skipped)
  | .write p addr =>
    if s.closed then some (s, .failed (lit "use of closed network connection"))
    else
      match toUDPAddr addr with
      | some dst => some (s, .writing p dst)
      | none => some (s, .failed (lit "pck: unusable destination address"))

def acknowledge (s : Shared) (seg : PckSegment) (peer : PckPeer) : Shared :=
  { s with
    peers := s.peers.insert seg.source.string (peer.receive seg)
    acks := if peer.moves seg then (seg.source.string, seg.next) :: s.acks else s.acks }

def number (s : Shared) (p : Str) (dst : UDPAddr) (peer : PckPeer) : Shared :=
  { s with
    peers := s.peers.insert dst.string (peer.send p.length)
    sent := (dst.string, peer.seq, p.length) :: s.sent }

def move (s : Shared) (_ : Nat) (pc : Pc) (x : Outside) : Option (Shared × Pc) :=
  match pc with
  | .reading seg => some ({ s with peers := peerFor s.peers seg.source x.seed x.now }, .acknowledging seg)
  | .acknowledging seg =>
    (s.peers.lookup seg.source.string).map fun peer => (acknowledge s seg peer, .received seg)
  | .writing p dst => some ({ s with peers := peerFor s.peers dst x.seed x.now }, .numbering p dst)
  | .numbering p dst =>
    (s.peers.lookup dst.string).map fun peer =>
      (number s p dst peer, .flagging p dst peer.seq peer.ack peer.lastTS)
  | .flagging p dst seq ack tsEcr =>
    some ({ s with flagRot := s.flagRot + 1 }, .assembling p dst seq ack tsEcr (c.flag s.flagRot))
  | .assembling p dst seq ack tsEcr flags =>
    some ({ s with ipID := s.ipID + 1 }, .assembled (Layers.assemblePckFrame (frameBuffer x.pooled p.length)
      (c.params p dst seq ack tsEcr flags x.now (s.ipID + 1).toUInt16)))
  | .received _ | .skipped | .assembled _ | .failed _ => none

def env (s : Shared) : Env → Option Shared
  | .close => some { s with closed := true }

def program : Program Shared Pc Request Outside Env := ⟨c.enter, c.move, env⟩

end PckConn

def opened : Threads Shared Pc := ⟨⟨∅, 0, 0, false, [], []⟩, []⟩

namespace Shared

def acksOf (s : Shared) (key : Str) : List UInt32 := s.acks.filterMap fun e => if e.1 = key then some e.2 else none

def sentOf (s : Shared) (key : Str) : List (UInt32 × Nat) :=
  s.sent.filterMap fun e => if e.1 = key then some e.2 else none

end Shared

end ArangeTun.Pck
