import ArangeTun.Go.Chan
import ArangeTun.Transition.Run
import ArangeTun.Wire.Model

/-!
# Admission of tunnel connections

The plain TCP server of internal/server/transport/tcp.go, from the accept of a tunnel connection to the moment it is
filed.
-/

namespace ArangeTun.Admission

open Go Wire

structure Config where
  token : Str
  stealth : Bool

/-- A `controlCandidate`; connections are numbered in the order they are accepted. -/
structure Candidate where
  conn : Nat
  nonce : Str
  deriving DecidableEq

inductive AdmitPc
  | stealth
  | checkControl
  | checkNonce
  | checkPeer
  | announce
  | claim (ann : Announcement)
  | answer (ann : Announcement)
  | offer (nonce : Str)
  | verify (payload : Str)
  | deliver
  | returned
  deriving DecidableEq

/-- A connection accepted by the run `run`: the announcement it was filed by, and the answer it was
sent. -/
structure TunnelConn where
  run : Nat
  remoteAddr : Str
  pc : AdmitPc
  closed : Bool
  announced : Option Announcement
  ack : Option Str
  deriving DecidableEq

inductive HandshakePc
  | waiting
  | received (c : Candidate)
  | nonceSet (c : Candidate)
  | published (c : Candidate)
  | ended
  deriving DecidableEq

structure Run (size : Nat) where
  started : Bool
  cancelled : Bool
  listening : Bool
  handshakeChannel : Chan Candidate 1
  tunnelChannel : Chan Nat size
  handshake : HandshakePc
  spawned : Bool
  watchers : Nat
  deriving DecidableEq

/-- The statement of `Restart` that the holder of its mutex does next. -/
inductive RestartPc
  | idle
  | cancel
  | close
  | sleep
  | rebuild
  | clearNonce
  | start
  deriving DecidableEq

structure State (size : Nat) where
  controlChannel : Option Nat
  poolNonce : Str
  runs : List (Run size)
  conns : List TunnelConn
  restart : RestartPc
  pendingRestarts : Nat
  parentDone : Bool
  deriving DecidableEq

variable {size : Nat}

def Run.make (started : Bool) : Run size :=
  ⟨started, false, true, .make, .make, .waiting, false, 0⟩

def State.initial : State size := ⟨none, [], [.make true], [], .idle, 0, false⟩

def State.setConn (s : State size) (i : Nat) (c : TunnelConn) : State size :=
  { s with conns := s.conns.set i c }

def State.setRun (s : State size) (g : Nat) (r : Run size) : State size :=
  { s with runs := s.runs.set g r }

def State.controlPeer (s : State size) : Option Str :=
  s.controlChannel.bind fun k => s.conns[k]?.map TunnelConn.remoteAddr

def State.done (s : State size) (r : Run size) : Bool := r.cancelled || s.parentDone

/-! ## `admitTunnelConn` and `admitControlChannel` -/

def TunnelConn.drop (c : TunnelConn) : TunnelConn := { c with closed := true, pc := .returned }

def TunnelConn.done (c : TunnelConn) : TunnelConn := { c with pc := .returned }

inductive Event
  | go
  | stealth (ok : Bool)
  | announced (ann : Option Announcement)
  | answered (random : Option (Vector UInt8 32)) (sent : Bool)

def TunnelConn.next (cfg : Config) (isSet : Bool) (peer : Option Str) (nonce : Str) (c : TunnelConn) :
    Event → Option TunnelConn
  | .stealth ok =>
    match c.pc with
    | .stealth => some (if ok then { c with pc := .checkControl } else c.drop)
    | _ => none
  | .announced ann =>
    match c.pc with
    | .announce =>
      match ann with
      | none => some c.drop
      | some ann =>
        if isControlSignal ann.signal then some { c with pc := .claim ann, announced := some ann }
        else if ann.signal = SG_Pool then
          some { c with pc := .verify ann.payload, announced := some ann }
        else some c.drop
    | _ => none
  | .answered random sent =>
    match c.pc with
    | .answer ann =>
      if tokenMatches ann.payload cfg.token then
        match controlAck ann.signal cfg.token 0 random with
        | none => some c.drop
        | some (ack, nonce, _) =>
          if sent then some { c with pc := .offer nonce, ack := some ack } else some c.drop
      else some c.drop
    | _ => none
  | .go =>
    match c.pc with
    | .checkControl => some { c with pc := if isSet then .checkNonce else .announce }
    | .checkNonce => some { c with pc := if nonce = [] then .checkPeer else .announce }
    | .checkPeer =>
      if peer.isSome ∧ sameHost peer (some c.remoteAddr) = false then some c.drop
      else some { c with pc := .deliver }
    | .claim ann => if isSet then some c.drop else some { c with pc := .answer ann }
    | .verify payload => if Wire.verify nonce payload then some { c with pc := .deliver } else some c.drop
    | _ => none

/-! ## The server -/

inductive Action
  | accept (g : Nat) (remoteAddr : Str)
  | stopListening (g : Nat)
  | admitTunnelConn (i : Nat) (e : Event)
  | offer (i : Nat)
  | deliver (i : Nat)
  | take (g : Nat)
  | receive (g : Nat)
  | setNonce (g : Nat)
  | setControl (g : Nat)
  | giveUp (g : Nat)
  | spawn (g : Nat)
  | watcherFails (g : Nat)
  | watcherDone (g : Nat)
  | restartCalled
  | restart
  | parentCancelled

def State.offer (s : State size) (i : Nat) (c : TunnelConn) (r : Run size) (nonce : Str) : State size :=
  match r.handshakeChannel.trySend ⟨i, nonce⟩ with
  | some ch => (s.setRun c.run { r with handshakeChannel := ch }).setConn i c.done
  | none => s.setConn i c.drop

def State.deliver (s : State size) (i : Nat) (c : TunnelConn) (r : Run size) : State size :=
  match r.tunnelChannel.trySend i with
  | some ch => (s.setRun c.run { r with tunnelChannel := ch }).setConn i c.done
  | none => s.setConn i c.drop

def State.closeControl (s : State size) : State size :=
  match s.controlChannel with
  | none => s
  | some k =>
    match s.conns[k]? with
    | none => s
    | some c => s.setConn k { c with closed := true }

def State.advance (s : State size) : Option (State size) :=
  let g := s.runs.length - 1
  match s.restart with
  | .idle => none
  | .cancel =>
    s.runs[g]?.bind fun r => some { s.setRun g { r with cancelled := true } with restart := .close }
  | .close => some { s.closeControl with restart := .sleep }
  | .sleep => some { s with restart := if s.parentDone then .idle else .rebuild }
  | .rebuild =>
    some { s with runs := s.runs ++ [.make false], controlChannel := none, restart := .clearNonce }
  | .clearNonce => some { s with poolNonce := [], restart := .start }
  | .start => s.runs[g]?.bind fun r => some { s.setRun g { r with started := true } with restart := .idle }

def step (cfg : Config) (s : State size) : Action → Option (State size)
  | .accept g remoteAddr =>
    s.runs[g]?.bind fun r =>
      if r.started ∧ r.listening then
        some { s with conns := s.conns ++
          [⟨g, remoteAddr, if cfg.stealth then .stealth else .checkControl, false, none, none⟩] }
      else none
  | .stopListening g =>
    s.runs[g]?.bind fun r => if s.done r then some (s.setRun g { r with listening := false }) else none
  | .admitTunnelConn i e =>
    s.conns[i]?.bind fun c =>
      (c.next cfg s.controlChannel.isSome s.controlPeer s.poolNonce e).map (s.setConn i)
  | .offer i =>
    s.conns[i]?.bind fun c => s.runs[c.run]?.bind fun r =>
      match c.pc with
      | .offer nonce => some (s.offer i c r nonce)
      | _ => none
  | .deliver i =>
    s.conns[i]?.bind fun c => s.runs[c.run]?.bind fun r =>
      if c.pc = .deliver then some (s.deliver i c r) else none
  | .take g =>
    s.runs[g]?.bind fun r =>
      r.tunnelChannel.tryRecv.map fun p => s.setRun g { r with tunnelChannel := p.2 }
  | .receive g =>
    s.runs[g]?.bind fun r =>
      if r.started ∧ r.handshake = .waiting then
        r.handshakeChannel.tryRecv.map fun p =>
          s.setRun g { r with handshakeChannel := p.2, handshake := .received p.1 }
      else none
  | .setNonce g =>
    s.runs[g]?.bind fun r =>
      match r.handshake with
      | .received c => some { s.setRun g { r with handshake := .nonceSet c } with poolNonce := c.nonce }
      | _ => none
  | .setControl g =>
    s.runs[g]?.bind fun r =>
      match r.handshake with
      | .nonceSet c =>
        some { s.setRun g { r with handshake := .published c } with controlChannel := some c.conn }
      | _ => none
  | .giveUp g =>
    s.runs[g]?.bind fun r =>
      if r.started ∧ r.handshake = .waiting ∧ s.done r then some (s.setRun g { r with handshake := .ended })
      else none
  | .spawn g =>
    -- the end of `Start`: it asks the server, not the run, whether there is a control channel
    s.runs[g]?.bind fun r =>
      match r.handshake, r.spawned with
      | .published _, false | .ended, false =>
        some (s.setRun g
          { r with spawned := true, watchers := if s.controlChannel.isSome then 2 else 0 })
      | _, _ => none
  | .watcherFails g =>
    s.runs[g]?.bind fun r =>
      if 0 < r.watchers then
        some { s.setRun g { r with watchers := r.watchers - 1 } with
          pendingRestarts := s.pendingRestarts + 1 }
      else none
  | .watcherDone g =>
    s.runs[g]?.bind fun r =>
      if 0 < r.watchers ∧ s.done r then some (s.setRun g { r with watchers := r.watchers - 1 }) else none
  | .restartCalled =>
    -- `TryLock`: a call that comes while another holds the mutex returns
    if 0 < s.pendingRestarts then
      some { s with
        pendingRestarts := s.pendingRestarts - 1
        restart := if s.restart = .idle then .cancel else s.restart }
    else none
  | .restart => s.advance
  | .parentCancelled => some { s with parentDone := true }

end ArangeTun.Admission
