import ArangeTun.Relay.Model
import ArangeTun.UdpForward.Model
import ArangeTun.Wire.Frame

/-!
# A forwarded UDP flow on the QUIC server

The way of one flow from `udpAdmitter` of internal/server/transport/udpforward.go through the pairing loop of
internal/server/transport/quic.go to `TCPConnectionHandler`.
-/

namespace ArangeTun.Quic

open Go Relay UdpForward Transition

structure QuicConfig where
  proxyProtocol : Bool
  limits : Limits
  deriving DecidableEq

inductive Stage
  | offered
  -- `admit` returned false
  | refused
  -- in `localChannel`, or in the hand of `handleLoop`
  | waiting (conn : Conn)
  -- closed before it was paired
  | givenUp
  -- the target address is on the stream
  | paired (conn : Conn)
  -- `TCPConnectionHandler` closed both ends because there was no PROXY header
  | dropped (err : Error)
  | relaying (pc : TransferPc)
  deriving DecidableEq

/-- `queued` is every datagram that `deliver` has put in the queue, and `stream` is what the tunnel stream took. -/
structure State where
  now : Nat
  flow : Flow
  queued : List Str
  stage : Stage
  stream : Str

inductive Action
  | tick (ns : Nat)
  | deliver (payload : Str) (queued : Bool)
  -- some `Close` closes `done`
  | signal
  -- with the slots that are taken, and whether `localChannel` has room
  | admitted (active : Int) (room : Bool)
  -- after three seconds, or at the end of the context
  | giveUp
  -- the address is sent over a stream, or that fails and the next stream is tried
  | pair (ok : Bool)
  | handle
  | read
  | write (n : Nat) (err : Option Error)
  deriving DecidableEq

def initial (key : Str) (queue : Chan Str udpFlowQueue) (phase : Phase) (now : Nat) : State :=
  ⟨now, ⟨key, queue, phase, now, [], []⟩, queue.buf, .offered, []⟩

def udpAdmitter (limits : Option Limiter) (active : Int) (room : Bool) (conn : Conn) : Stage :=
  if grants limits active && room then .waiting (wrap limits conn) else .refused

def handle (config : QuicConfig) (conn : Conn) (stream : Str) : Stage × Str :=
  if config.proxyProtocol && !isUDPFlow conn then
    match proxyHeader conn with
    | .error err => (.dropped err, stream)
    | .ok header => (.relaying .reading, stream ++ header)
  else (.relaying .reading, stream)

def State.transfer (s : State) (flow : Flow) (pc : TransferPc) (e : TransferEvent) : Option State :=
  (transferStep pc e).map fun r => { s with flow, stage := .relaying r.2, stream := s.stream ++ r.1 }

def step (config : QuicConfig) (localAddr peer : Str × UInt16) (target : Str) (s : State) : Action → Option State
  | .tick ns => some { s with now := s.now + ns }
  | .deliver payload queued => do
      let flow ← s.flow.deliver s.now payload queued
      some { s with flow, queued := if queued then s.queued ++ [payload] else s.queued }
  | .signal => if s.flow.done then none else some { s with flow := { s.flow with phase := .signalled } }
  | .admitted active room =>
    match s.stage with
    | .offered =>
      let conn := Conn.udpFlow (.udp localAddr.1 localAddr.2) (.udp peer.1 peer.2)
      some { s with stage := udpAdmitter (newLimiter config.limits) active room conn }
    | _ => none
  | .giveUp =>
    match s.stage with
    | .waiting _ => some { s with stage := .givenUp }
    | _ => none
  | .pair ok =>
    match s.stage with
    | .waiting conn => some (if ok then { s with stage := .paired conn, stream := Wire.binaryFrame target } else s)
    | _ => none
  | .handle =>
    match s.stage with
    | .paired conn =>
      let r := handle config conn s.stream
      some { s with stage := r.1, stream := r.2 }
    | _ => none
  | .read =>
    match s.stage with
    | .relaying .reading => do
        let r ← s.flow.read s.now relayBufferSize
        match r.2 with
        | some data => s.transfer r.1 .reading (.read data none)
        | none => s.transfer r.1 .reading (.read [] (some .eof))
    | _ => none
  | .write n err =>
    match s.stage with
    | .relaying pc => s.transfer s.flow pc (.write n err)
    | _ => none

end ArangeTun.Quic
