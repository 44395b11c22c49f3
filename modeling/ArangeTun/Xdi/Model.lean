import ArangeTun.Go.Icmp
import ArangeTun.Go.Sha256
import ArangeTun.Transition.Run

/-!
# The xdi carrier

internal/utils/network/icmpframe.go, and the read and write path of icmpconn_linux.go, over a network that loses,
reorders and duplicates packets and on which kernels answer echo requests.
-/

namespace ArangeTun.Xdi

open Go Icmp

/-! ## Framing -/

def xdiTagLen : Nat := 4

def xdiHeaderLen : Nat := xdiTagLen + 1

abbrev Tag := Vector UInt8 xdiTagLen

def xdiDirServer : UInt8 := byte 'S'

def xdiDirClient : UInt8 := byte 'C'

def xdiIdentity (token : Str) : UInt16 × Tag :=
  let sum := Sha256.sum256 (lit "arange-tun-xdi-v1:" ++ token)
  (be16 sum xdiTagLen, Vector.ofFn fun i => sum.getD i 0)

def outboundDir (server : Bool) : UInt8 := if server then xdiDirServer else xdiDirClient

def inboundDir (server : Bool) : UInt8 := if server then xdiDirClient else xdiDirServer

def encodeXdiPayload (tag : Tag) (dir : UInt8) (payload : Str) : Str := tag.toList ++ dir :: payload

def decodeXdiPayload (tag : Tag) (wantDir : UInt8) (data : Str) : Option Str :=
  if data.length < xdiHeaderLen then none
  else if ∃ i : Fin xdiTagLen, data.getD i 0 ≠ tag.get i then none
  else if data.getD xdiTagLen 0 ≠ wantDir then none
  else some (data.drop xdiHeaderLen)

/-! ## The connection -/

structure IcmpConn where
  server : Bool
  id : UInt16
  tag : Tag
  seq : UInt32
  deriving DecidableEq

/-- `newICMPServerConn` and `newICMPClientConn`, once the socket is open. -/
def newICMPConn (server : Bool) (token : Str) : IcmpConn :=
  ⟨server, (xdiIdentity token).1, (xdiIdentity token).2, 0⟩

def icmpMTUOverhead : Nat := 8 + xdiHeaderLen

inductive Outcome
  -- `toIPAddr` does not understand the address
  | badAddr
  -- the socket does not take the message
  | sendError
  | sent
  deriving DecidableEq

namespace IcmpConn

variable (c : IcmpConn)

def wire (p : Str) : Str :=
  marshal (if c.server then echoReply else echoRequest) 0
    ⟨c.id, (c.seq + 1).toUInt16, encodeXdiPayload c.tag (outboundDir c.server) p⟩

def writeTo (p : Str) : Outcome → Option Str × IcmpConn
  | .badAddr => (none, c)
  | .sendError => (none, { c with seq := c.seq + 1 })
  | .sent => (some (c.wire p), { c with seq := c.seq + 1 })

/-- One turn of the loop of `ReadFrom` into a buffer with room for `n` bytes, for the IP packet that the socket gives:
what is returned, or `none` to read the next packet. -/
def receive (n : Nat) (header b : Str) : Option Str :=
  let size := n + icmpMTUOverhead + 64
  (parseMessage (stripIPv4Header size ((header ++ b).take size))).bind fun msg =>
    if msg.typ ≠ (if c.server then echoRequest else echoReply) then none
    else
      match msg.body with
      | .other _ => none
      | .echo echo =>
        if echo.id ≠ c.id then none
        else (decodeXdiPayload c.tag (inboundDir c.server) echo.data).map (List.take n)

end IcmpConn

/-! ## The network -/

inductive Origin
  -- the call `WriteTo p` of the end
  | writeTo (server : Bool) (p : Str)
  | foreign
  deriving DecidableEq

structure Packet where
  origin : Origin
  bytes : Str
  deriving DecidableEq

structure Arrival where
  header : Str
  packet : Packet
  deriving DecidableEq

structure Returned where
  room : Nat
  data : Str
  origin : Origin
  deriving DecidableEq

structure End where
  conn : IcmpConn
  written : List Str
  returned : List Returned
  deriving DecidableEq

/-- The two ends, `true` for the server, and every message that was ever on the network. -/
structure State where
  ends : Bool → End
  network : List Packet

def State.initial (token : Str) : State :=
  ⟨fun server => ⟨newICMPConn server token, [], []⟩, []⟩

/-- The loop of `ReadFrom` over the packets that reach the socket during the call. -/
def IcmpConn.readFrom (c : IcmpConn) (n : Nat) : List Arrival → Option Returned
  | [] => none
  | a :: as =>
    match c.receive n a.header a.packet.bytes with
    | some data => some ⟨n, data, a.packet.origin⟩
    | none => c.readFrom n as

inductive Action
  | writeTo (server : Bool) (p : Str) (outcome : Outcome)
  -- a kernel answers a request
  | reflect (x : Packet) (code : UInt8) (seq : UInt16)
  | otherTunnel (reply : Bool) (code : UInt8) (id seq : UInt16) (tag : Tag) (dir : UInt8) (p : Str)
  | ping (typ code : UInt8) (echo : Echo)
  -- the arrivals are packets of the network in any order, any of them missing or repeated
  | readFrom (server : Bool) (n : Nat) (arrivals : List Arrival)
  deriving DecidableEq

def kernelReply (code : UInt8) (seq : UInt16) (b : Str) : Option Str :=
  (parseMessage b).bind fun msg =>
    match msg.body with
    | .other _ => none
    | .echo echo => if msg.typ = echoRequest then some (marshal echoReply code ⟨echo.id, seq, echo.data⟩) else none

def State.put (s : State) (x : Packet) : State := { s with network := x :: s.network }

def State.setEnd (s : State) (server : Bool) (e : End) : State := { s with ends := Function.update s.ends server e }

def step (token : Str) (s : State) : Action → Option State
  | .writeTo server p outcome =>
    let e := s.ends server
    let result := e.conn.writeTo p outcome
    let s := s.setEnd server { e with conn := result.2, written := p :: e.written }
    match result.1 with
    | none => some s
    | some b => some (s.put ⟨.writeTo server p, b⟩)
  | .reflect x code seq =>
    if x ∈ s.network then (kernelReply code seq x.bytes).map fun b => s.put ⟨x.origin, b⟩ else none
  | .otherTunnel reply code id seq tag dir p =>
    if tag ≠ (xdiIdentity token).2 then
      some (s.put ⟨.foreign, marshal (if reply then echoReply else echoRequest) code
        ⟨id, seq, encodeXdiPayload tag dir p⟩⟩)
    else none
  | .ping typ code echo =>
    if echo.data.take xdiTagLen ≠ (xdiIdentity token).2.toList then some (s.put ⟨.foreign, marshal typ code echo⟩)
    else none
  | .readFrom server n arrivals =>
    if ∀ a ∈ arrivals, a.packet ∈ s.network ∧ IsIPv4Header a.header then
      let e := s.ends server
      match e.conn.readFrom n arrivals with
      | none => some s
      | some r => some (s.setEnd server { e with returned := r :: e.returned })
    else none

end ArangeTun.Xdi
