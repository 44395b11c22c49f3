import ArangeTun.Go.Chan
import ArangeTun.Go.Map
import ArangeTun.Go.Str
import ArangeTun.Transition.Run

/-!
# The pool of the UDP server

internal/server/transport/udp.go, one run (`udpGen`): `acceptTunnelConn`, `keepAlive`, a `handleLoop` for each local
listener, and `udpCopy`.
-/

namespace ArangeTun.UdpTransport

open Go

def bufferSize : Nat := 16 * 1024

def payloadSize : Nat := 100000

inductive Holder
  | keepAlive
  | loop
  deriving DecidableEq

inductive KeepAlivePc
  | none
  | ticking
  -- between `TryLock` and `Unlock`
  | pinging
  | returned
  deriving DecidableEq

inductive Relay
  | none
  | running
  | returned
  deriving DecidableEq

structure Conn where
  addr : Str
  payload : Chan Str payloadSize
  payloadClosed : Bool
  pingClosed : Bool
  mu : Option Holder
  keepAlive : KeepAlivePc
  relay : Relay
  deriving DecidableEq

inductive ListenerPc
  | reading
  | storing (peer : Str)
  | offering (conn : Nat)
  -- `tunnelChannel` was full and `payload` is closed
  | refused (conn : Nat)
  | returned
  deriving DecidableEq

/-- Where a `handleLoop` stands, with the `remoteAddr` of the local connection that it pairs. -/
inductive LoopPc
  | waiting
  | pairing (remoteAddr : Str)
  | taken (remoteAddr : Str) (conn : Nat)
  -- after `close(tunnelConn.ping)`
  | locking (remoteAddr : Str) (conn : Nat)
  | writing (remoteAddr : Str) (conn : Nat)
  | returned
  deriving DecidableEq

structure Write where
  conn : Nat
  remoteAddr : Str
  ok : Bool
  deriving DecidableEq

structure State (size : Nat) where
  cancelled : Bool
  activeConnections : Map Str Nat
  conns : List Conn
  tunnelChannel : Chan Nat size
  listener : ListenerPc
  loops : List LoopPc
  writes : List Write

inductive Action
  | cancel
  | receive (peer data : Str)
  | store
  | offer
  | remove
  | listenerDone
  | startLoop
  -- a local connection of the given age in ms arrives in `udpChan`
  | takeLocal (loop : Nat) (remoteAddr : Str) (age : Int)
  | takeTunnel (loop : Nat)
  | closePing (loop : Nat)
  | lock (loop : Nat)
  | write (loop : Nat) (ok : Bool)
  | loopDone (loop : Nat)
  | tick (conn : Nat)
  | ping (conn : Nat) (ok : Bool)
  | keepAliveDone (conn : Nat)
  -- `udpTunnelCopy` takes a datagram
  | consume (conn : Nat)
  | relayDone (conn : Nat)
  -- a relay of an earlier run ends
  | forget (peer : Str)
  deriving DecidableEq

variable {size : Nat}

def initial : State size := ⟨false, .empty, [], .make, .reading, [], []⟩

def State.setConn (s : State size) (c : Nat) (conn : Conn) : State size := { s with conns := s.conns.set c conn }

def State.setLoop (s : State size) (i : Nat) (pc : LoopPc) : State size := { s with loops := s.loops.set i pc }

def State.addWrite (s : State size) (w : Write) : State size := { s with writes := s.writes ++ [w] }

def receive (token : Str) (s : State size) (peer data : Str) : Option (State size) :=
  match s.activeConnections peer with
  | some c => do
      let conn ← s.conns[c]?
      -- a send on a closed channel ends the process
      if conn.payloadClosed then none
      else
        match conn.payload.trySend data with
        | some payload => some (s.setConn c { conn with payload })
        | none => some s
  | none => if data = token then some { s with listener := .storing peer } else some s

def step (token : Str) (s : State size) : Action → Option (State size)
  | .cancel => some { s with cancelled := true }
  | .receive peer data => if s.listener = .reading then receive token s peer (data.take bufferSize) else none
  | .store =>
    match s.listener with
    | .storing peer =>
      some { s with
        conns := s.conns ++ [⟨peer, .make, false, false, none, .none, .none⟩]
        activeConnections := s.activeConnections.set peer s.conns.length
        listener := .offering s.conns.length }
    | _ => none
  | .offer =>
    match s.listener with
    | .offering c => do
        let conn ← s.conns[c]?
        match s.tunnelChannel.trySend c with
        | some tunnelChannel =>
          some { s.setConn c { conn with keepAlive := .ticking } with tunnelChannel, listener := .reading }
        | none => some { s.setConn c { conn with payloadClosed := true } with listener := .refused c }
    | _ => none
  | .remove =>
    match s.listener with
    | .refused c => do
        let conn ← s.conns[c]?
        some { s with activeConnections := s.activeConnections.delete conn.addr, listener := .reading }
    | _ => none
  | .listenerDone =>
    if s.listener = .reading ∧ s.cancelled = true then some { s with listener := .returned } else none
  | .startLoop => some { s with loops := s.loops ++ [.waiting] }
  | .takeLocal i remoteAddr age =>
    if s.loops[i]? = some .waiting then
      if age > 3000 then some s else some (s.setLoop i (.pairing remoteAddr))
    else none
  | .takeTunnel i => do
      match ← s.loops[i]? with
      | .pairing remoteAddr =>
        let r ← s.tunnelChannel.tryRecv
        some { s.setLoop i (.taken remoteAddr r.1) with tunnelChannel := r.2 }
      | _ => none
  | .closePing i => do
      match ← s.loops[i]? with
      | .taken remoteAddr c =>
        let conn ← s.conns[c]?
        if conn.pingClosed then none
        else some ((s.setConn c { conn with pingClosed := true }).setLoop i (.locking remoteAddr c))
      | _ => none
  | .lock i => do
      match ← s.loops[i]? with
      | .locking remoteAddr c =>
        let conn ← s.conns[c]?
        if conn.mu = none then some ((s.setConn c { conn with mu := some .loop }).setLoop i (.writing remoteAddr c))
        else none
      | _ => none
  | .write i ok => do
      match ← s.loops[i]? with
      | .writing remoteAddr c =>
        let conn ← s.conns[c]?
        let s := s.addWrite ⟨c, remoteAddr, ok⟩
        if ok then some ((s.setConn c { conn with relay := .running }).setLoop i .waiting)
        -- the record stays, and `mu` locked
        else some (s.setLoop i (.pairing remoteAddr))
      | _ => none
  | .loopDone i => do
      match ← s.loops[i]? with
      | .waiting | .pairing _ => if s.cancelled then some (s.setLoop i .returned) else none
      | _ => none
  | .tick c => do
      let conn ← s.conns[c]?
      if conn.keepAlive = .ticking then
        if conn.mu = none then some (s.setConn c { conn with mu := some .keepAlive, keepAlive := .pinging })
        else some (s.setConn c { conn with keepAlive := .returned })
      else none
  | .ping c ok => do
      let conn ← s.conns[c]?
      if conn.keepAlive = .pinging then
        some (s.setConn c { conn with mu := none, keepAlive := if ok then .ticking else .returned })
      else none
  | .keepAliveDone c => do
      let conn ← s.conns[c]?
      if conn.keepAlive = .ticking ∧ (conn.pingClosed = true ∨ s.cancelled = true) then
        some (s.setConn c { conn with keepAlive := .returned })
      else none
  | .consume c => do
      let conn ← s.conns[c]?
      if conn.relay = .running then
        let r ← conn.payload.tryRecv
        some (s.setConn c { conn with payload := r.2 })
      else none
  | .relayDone c => do
      let conn ← s.conns[c]?
      if conn.relay = .running then
        some { s.setConn c { conn with relay := .returned, payloadClosed := true } with
          activeConnections := s.activeConnections.delete conn.addr }
      else none
  | .forget peer => some { s with activeConnections := s.activeConnections.delete peer }

/-! ## Who has a connection -/

def LoopPc.hand : LoopPc → List Nat
  | .taken _ c | .locking _ c | .writing _ c => [c]
  | .waiting | .pairing _ | .returned => []

def ListenerPc.hand : ListenerPc → List Nat
  | .offering c | .refused c => [c]
  | .reading | .storing _ | .returned => []

def LoopPc.Writing (c : Nat) : LoopPc → Prop
  | .writing _ d => d = c
  | _ => False

def State.waiting (s : State size) : List Nat := s.loops.flatMap LoopPc.hand ++ s.tunnelChannel.buf ++ s.listener.hand

/-- The connection waits in `tunnelChannel`, is in somebody's hand, or is relayed. -/
def State.Live (s : State size) (c : Nat) : Prop :=
  c ∈ s.waiting ∨ ∃ conn : Conn, s.conns[c]? = some conn ∧ conn.relay = .running

end ArangeTun.UdpTransport
