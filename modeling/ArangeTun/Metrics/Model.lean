import Mathlib

/-!
# The byte counters of the relays

`AddBytes` of internal/metrics/metrics.go and the relays of internal/frp/frp.go and internal/rathole/rathole.go that
call it.
-/

namespace ArangeTun.Metrics

/-- `uint64` in the source: what is said of totals here is said of totals below `2 ^ 64` bytes. -/
structure Traffic where
  bytesIn : Nat
  bytesOut : Nat
  deriving DecidableEq

def Traffic.addBytes (m : Traffic) : Nat × Nat → Traffic
  | (bytesIn, bytesOut) =>
    { bytesIn := if 0 < bytesIn then m.bytesIn + bytesIn else m.bytesIn
      bytesOut := if 0 < bytesOut then m.bytesOut + bytesOut else m.bytesOut }

inductive Dir
  | inbound
  | outbound
  deriving DecidableEq

structure Loop where
  addBytes : Nat → Nat × Nat
  returns : Bool

structure Relay where
  inbound : Loop
  outbound : Loop

def Relay.loop (r : Relay) : Dir → Loop
  | .inbound => r.inbound
  | .outbound => r.outbound

def copyCounted (inbound : Bool) : Loop where
  addBytes n := if inbound then (n, 0) else (0, n)
  returns := true

/-! ## frp -/

namespace Frp

def pipe : Relay where
  inbound := copyCounted true
  outbound := copyCounted false

def streamToPacket : Loop where
  addBytes n := (n, 0)
  returns := true

/-- After a failed write the flow is removed, and the loop goes on with the next datagram. -/
def serveExposedUDP : Relay where
  inbound := streamToPacket
  outbound := ⟨fun n => (0, n), false⟩

def serveStreamUDP : Relay where
  inbound := ⟨fun n => (0, n), true⟩
  outbound := ⟨fun n => (n, 0), true⟩

end Frp

/-! ## rathole -/

namespace Rathole

def pipe : Relay where
  inbound := copyCounted true
  outbound := copyCounted false

def runUDPServer : Relay where
  inbound := ⟨fun n => (n, 0), true⟩
  outbound := ⟨fun n => (0, n), true⟩

def runUDPClient : Relay where
  inbound := ⟨fun n => (0, n), false⟩
  outbound := ⟨fun n => (n, 0), true⟩

end Rathole

inductive Transport
  | frp
  | rathole
  deriving DecidableEq

inductive Proto
  | tcp
  | udp
  deriving DecidableEq

inductive Side
  | server
  | client
  deriving DecidableEq

def relay : Transport → Proto → Side → Relay
  | .frp, .tcp, _ => Frp.pipe
  | .frp, .udp, .server => Frp.serveExposedUDP
  | .frp, .udp, .client => Frp.serveStreamUDP
  | .rathole, .tcp, _ => Rathole.pipe
  | .rathole, .udp, .server => Rathole.runUDPServer
  | .rathole, .udp, .client => Rathole.runUDPClient

inductive Outcome
  | passed
  | failed (written : Nat)
  | dropped
  deriving DecidableEq

structure Chunk where
  dir : Dir
  flow : Nat
  n : Nat
  outcome : Outcome
  deriving DecidableEq

structure State where
  traffic : Traffic
  returned : List (Dir × Nat)
  deriving DecidableEq

def State.init : State := ⟨⟨0, 0⟩, []⟩

def step (r : Relay) (s : State) (c : Chunk) : Option State :=
  if (c.dir, c.flow) ∈ s.returned then none
  else
    match c.outcome with
    | .passed => some { s with traffic := s.traffic.addBytes ((r.loop c.dir).addBytes c.n) }
    | .failed _ =>
      if (r.loop c.dir).returns then some { s with returned := (c.dir, c.flow) :: s.returned } else some s
    | .dropped => some s

end ArangeTun.Metrics
