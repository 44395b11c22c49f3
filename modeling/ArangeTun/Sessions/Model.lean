import ArangeTun.Go.Str
import ArangeTun.Transition.Run

/-!
# The current client of an frp or rathole server

The end of `handleControl` (internal/frp/frp.go) and of `controlHandshake` (internal/rathole/rathole.go): a client
becomes the current one under `mu`, its address is reported to internal/metrics/metrics.go, and it is retired if it is
still the current one.
-/

namespace ArangeTun.Sessions

open Go

inductive Server
  | frp
  | rathole
  deriving DecidableEq

/-- The data channels that are requested before the loop starts (`tcpPoolWarm`). -/
def Server.warm : Server → Nat
  | .frp => 0
  | .rathole => 2

inductive Pc
  | publishing
  | reporting
  | serving (warm : Nat)
  | retiring
  | closing
  | returned
  deriving DecidableEq

structure Session where
  peer : Str
  closed : Bool
  pc : Pc
  deriving DecidableEq

structure State where
  sessions : List Session
  current : Option Nat
  peerAddr : Option Str

inductive Action
  | connect (peer : Str)
  | publish (session : Nat)
  | reportPeer (session : Nat)
  | warmUp (session : Nat)
  -- the connection of the session breaks
  | drop (session : Nat)
  | leave (session : Nat)
  | retire (session : Nat)
  | close (session : Nat)
  deriving DecidableEq

def initial : State := ⟨[], none, none⟩

def State.setSession (s : State) (i : Nat) (x : Session) : State := { s with sessions := s.sessions.set i x }

def State.closeCurrent (s : State) : State :=
  match s.current with
  | none => s
  | some j => { s with sessions := s.sessions.modify j fun x => { x with closed := true } }

/-- The wait for the end: the frp server waits for the session to be closed. -/
def Server.ends : Server → Session → Bool
  | .frp, x => x.closed
  | .rathole, _ => true

def step (server : Server) (s : State) : Action → Option State
  | .connect peer => some { s with sessions := s.sessions ++ [⟨peer, false, .publishing⟩] }
  | .publish i =>
    let s' := s.closeCurrent
    do
      let x ← s'.sessions[i]?
      if x.pc = .publishing then some { s'.setSession i { x with pc := .reporting } with current := some i }
      else none
  | .reportPeer i => do
      let x ← s.sessions[i]?
      if x.pc = .reporting then
        some { s.setSession i { x with pc := .serving server.warm } with peerAddr := some x.peer }
      else none
  | .warmUp i => do
      let x ← s.sessions[i]?
      match x.pc with
      | .serving (n + 1) => some (s.setSession i { x with pc := .serving n })
      | _ => none
  | .drop i => do
      let x ← s.sessions[i]?
      some (s.setSession i { x with closed := true })
  | .leave i => do
      let x ← s.sessions[i]?
      if x.pc = .serving 0 ∧ server.ends x = true then some (s.setSession i { x with pc := .retiring }) else none
  | .retire i => do
      let x ← s.sessions[i]?
      if x.pc = .retiring then
        let s := s.setSession i { x with pc := .closing }
        if s.current = some i then some { s with current := none, peerAddr := none } else some s
      else none
  | .close i => do
      let x ← s.sessions[i]?
      if x.pc = .closing then some (s.setSession i { x with closed := true, pc := .returned }) else none

def Pc.midway : Pc → Bool
  | .publishing | .reporting | .retiring | .closing => true
  | .serving _ | .returned => false

def State.Quiet (s : State) : Prop := ∀ x ∈ s.sessions, x.pc.midway = false

instance (s : State) : Decidable s.Quiet := inferInstanceAs (Decidable (∀ x ∈ s.sessions, _))

def State.currentPeer (s : State) : Option Str := s.current.bind fun i => s.sessions[i]?.map Session.peer

end ArangeTun.Sessions
