import ArangeTun.Client.Handshake

/-!
# The control handshake of tcpmux

internal/server/transport/tcpmux.go and internal/client/transport/tcpmux.go.
-/

namespace ArangeTun.Handshake

open Go Wire Client

def muxVersionAuto : Int := 0

def resolveMuxVersion (configured : Int) : Fin 10 :=
  if configured = 1 then 1 else if configured = 2 then 2 else 2

structure Config where
  token : Str
  muxVersion : Int
  deriving DecidableEq

structure Run where
  controlChannel : Bool
  poolNonce : Str
  muxVersion : Int
  deriving DecidableEq

structure ControlCandidate where
  nonce : Str
  muxVersion : Fin 10
  deriving DecidableEq

namespace TcpMuxServer

def setMuxVersion (configured negotiated : Int) : Int :=
  if negotiated ≠ 1 ∧ negotiated ≠ 2 then
    if configured = muxVersionAuto then 1 else (resolveMuxVersion configured : Nat)
  else negotiated

def admitControlChannel (cfg : Config) (run : Run) (ann : Announcement) (random : Option (Vector UInt8 32)) :
    Option (Str × ControlCandidate) :=
  if run.controlChannel then none
  else if tokenMatches ann.payload cfg.token = false then none
  else
    (controlAck ann.signal cfg.token (resolveMuxVersion cfg.muxVersion) random).map fun a =>
      (transportFrame a.1 ann.signal, ⟨a.2.1, a.2.2⟩)

/-- The control side of `admitTunnelConn`; a connection that is filed in the pool is `none` too. -/
def admitTunnelConn (cfg : Config) (run : Run) (conn : Stream) (random : Option (Vector UInt8 32)) :
    Option (Str × ControlCandidate) :=
  if run.controlChannel ∧ run.poolNonce = [] then none
  else
    match receiveBinaryTransportString conn with
    | .error _ => none
    | .ok (payload, signal) =>
      if isControlSignal signal then admitControlChannel cfg run ⟨signal, payload⟩ random else none

def channelHandshake (cfg : Config) (candidate : ControlCandidate) : Run :=
  ⟨true, candidate.nonce, setMuxVersion cfg.muxVersion (candidate.muxVersion : Nat)⟩

end TcpMuxServer

namespace TcpMuxClient

def setMuxVersion (configured negotiated : Int) : Int :=
  if negotiated ≠ 1 ∧ negotiated ≠ 2 then if configured ≠ 1 ∧ configured ≠ 2 then 1 else configured
  else negotiated

def publish (cfg : Config) : Outcome → Option Run
  | .established nonce muxVersion => some ⟨true, nonce, setMuxVersion cfg.muxVersion muxVersion⟩
  | _ => none

end TcpMuxClient

/-- A handshake behind `SG_ChanV2` in which both ends publish their control channel. -/
structure Completed (server client : Config) (serverRun clientRun : Run) : Prop where
  handshake : ∃ (run : Run) (random : Option (Vector UInt8 32)) (sent : Stream) (a : Attempt) (answer : Str)
      (candidate : ControlCandidate),
    transportFrame client.token SG_ChanV2 <+: sent.bytes ∧
    TcpMuxServer.admitTunnelConn server run sent random = some (answer, candidate) ∧
    serverRun = TcpMuxServer.channelHandshake server candidate ∧
    answer <+: a.answer.bytes ∧
    TcpMuxClient.publish client (attempt .tcpmux client.token false a).1 = some clientRun

end ArangeTun.Handshake
