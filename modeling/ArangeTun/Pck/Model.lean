import ArangeTun.Go.Sha256
import ArangeTun.Transition.Run

/-!
# Source ports of the pck carrier

internal/utils/network/pckport.go, and the part of `newPckConn` in pckconn_linux.go that takes a port for a client
carrier.
-/

namespace ArangeTun.Pck

open Go

def pckPortSpan : UInt16 := 128

def pckClientPortBase (token : Str) : UInt16 :=
  let sum := Sha256.sum256 (lit "arange-tun-pck-v1:" ++ token)
  32768 + ((sum.getD 0 0).toUInt16 * 256 + (sum.getD 1 0).toUInt16) % (28000 - pckPortSpan)

def nextPckClientPort (base : UInt16) (pckPortSeq : UInt32) : UInt16 × UInt32 :=
  (base + pckPortSeq.toUInt16 % pckPortSpan, pckPortSeq + 1)

/-- A carrier that took a port, whether or not it could then be opened. -/
structure Carrier where
  localPort : UInt16
  opened : Bool
  deriving DecidableEq

/-- The carriers of a tunnel in the order in which they took their ports. -/
structure State where
  pckPortSeq : UInt32
  carriers : List Carrier
  deriving DecidableEq

def State.initial : State := ⟨0, []⟩

/-- `egress` says whether the steps before the port is taken succeed, `rx` and `tx` whether the sockets
could be opened. -/
inductive Action
  | newPckConn (egress rx tx : Bool)
  | close (i : Nat)
  deriving DecidableEq

def step (token : Str) (s : State) : Action → Option State
  | .newPckConn egress rx tx =>
    if egress then
      let next := nextPckClientPort (pckClientPortBase token) s.pckPortSeq
      some ⟨next.2, s.carriers ++ [⟨next.1, rx && tx⟩]⟩
    else some s
  | .close i =>
    s.carriers[i]?.bind fun c =>
      if c.opened then some { s with carriers := s.carriers.set i { c with opened := false } } else none

def PortsDistinct (s : State) : Prop :=
  ∀ (i j : Nat) (c d : Carrier), s.carriers[i]? = some c → s.carriers[j]? = some d → i ≠ j →
    c.opened = true → d.opened = true → c.localPort ≠ d.localPort

/-- Every port lies in the range that the firewall rules are written for. -/
def PortsGuarded (token : Str) (s : State) : Prop :=
  ∀ c ∈ s.carriers, (pckClientPortBase token).toNat ≤ c.localPort.toNat ∧
    c.localPort.toNat ≤ (pckClientPortBase token).toNat + 127

/-- A carrier is opened only when none that is open took its port a multiple of 128 ports ago. -/
def SlotFree (s : State) : Action → Prop
  | .newPckConn egress rx tx => egress = true → rx = true → tx = true →
      ∀ (i : Nat) (c : Carrier), s.carriers[i]? = some c → c.opened = true →
        i % 128 ≠ s.carriers.length % 128
  | .close _ => True

def State.openCount (s : State) : Nat := s.carriers.countP (·.opened)

def FewOpen (s : State) : Action → Prop
  | .newPckConn _ _ _ => s.openCount < 128
  | .close _ => True

end ArangeTun.Pck
