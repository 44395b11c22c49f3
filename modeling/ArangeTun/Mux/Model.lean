import ArangeTun.Server.Limits
import ArangeTun.Transition.Run

/-!
# Mux sessions of one run of the TCP mux server

`acceptLocalConn`, `handleSession` and the relay goroutines of internal/server/transport/tcpmux.go.
-/

namespace ArangeTun.Mux

open Go Server

structure Stream where
  relayed : Bool
  closed : Bool
  deriving DecidableEq

inductive SessionPc
  -- before `counter <- struct{}{}`
  | sending
  -- in the `select`
  | selecting
  | took (c : LocalConn)
  -- before `<-counter`, after a connection has timed out
  | popping
  | opening (c : LocalConn)
  | opened (c : LocalConn) (stream : Nat)
  -- before the send that puts the connection back after a failed `SendBinaryString`
  | requeue (c : LocalConn)
  -- in `handleSessionError`
  | failing (c : LocalConn)
  | returned
  deriving DecidableEq

structure Session (muxCon : Nat) where
  pc : SessionPc
  counter : Chan Unit muxCon
  streams : List Stream
  deriving DecidableEq

inductive RelayPc
  | relaying
  | ended
  | releasing
  | returned
  deriving DecidableEq

structure Relay where
  session : Nat
  stream : Nat
  pc : RelayPc
  deriving DecidableEq

structure State (size muxCon : Nat) where
  front : Front size
  now : Nat
  cancelled : Bool
  acceptors : List AcceptPc
  sessions : List (Session muxCon)
  relays : List Relay
  deriving DecidableEq

variable {size muxCon : Nat}

def initial (listeners : Nat) : State size muxCon where
  front := ⟨0, .make⟩
  now := 0
  cancelled := false
  acceptors := List.replicate listeners .idle
  sessions := []
  relays := []

inductive Action
  | acceptor (j : Nat) (e : AcceptEvent)
  | newSession
  | push (k : Nat)
  | sessionDone (k : Nat)
  | take (k : Nat)
  | check (k : Nat)
  | pop (k : Nat)
  | openStream (k : Nat) (ok : Bool)
  | sendAddr (k : Nat) (ok : Bool)
  | putBack (k : Nat)
  | relayEnds (r : Nat)
  | relayPops (r : Nat)
  | relayReleases (r : Nat)
  | tick (ms : Nat)
  | cancel
  deriving DecidableEq

def Stream.close (st : Stream) : Stream := { st with closed := true }

def Session.leave (ss : Session muxCon) : Session muxCon :=
  { ss with pc := .returned, streams := ss.streams.map Stream.close }

def State.setSession (s : State size muxCon) (k : Nat) (ss : Session muxCon) : State size muxCon :=
  { s with sessions := s.sessions.set k ss }

def State.setQueue (s : State size muxCon) (ch : Chan LocalConn size) : State size muxCon :=
  { s with front := { s.front with localChannel := ch } }

def Session.popCounter (ss : Session muxCon) : Option (Session muxCon) :=
  match ss.counter.tryRecv with
  | some (_, counter) => some { ss with counter }
  | none => if ss.pc = .returned then some ss else none

def handleSession (s : State size muxCon) (k : Nat) (ss : Session muxCon) :
    Action → Option (State size muxCon)
  | .push _ =>
    match ss.pc with
    | .sending => (ss.counter.trySend ()).map fun counter => s.setSession k { ss with counter, pc := .selecting }
    | _ => none
  | .sessionDone _ =>
    match ss.pc with
    | .selecting => if s.cancelled then some (s.setSession k ss.leave) else none
    | _ => none
  | .take _ =>
    match ss.pc with
    | .selecting => s.front.localChannel.tryRecv.map fun r =>
      (s.setQueue r.2).setSession k { ss with pc := .took r.1 }
    | _ => none
  | .check _ =>
    match ss.pc with
    -- the timed out connection is closed, and its slot is not released
    | .took c => some (s.setSession k { ss with pc := if Expired s.now c then .popping else .opening c })
    | _ => none
  | .pop _ =>
    match ss.pc with
    | .popping => ss.counter.tryRecv.map fun r => s.setSession k { ss with counter := r.2, pc := .sending }
    | _ => none
  | .openStream _ ok =>
    match ss.pc with
    | .opening c =>
      some (s.setSession k (if ok then
        { ss with pc := .opened c ss.streams.length, streams := ss.streams ++ [⟨false, false⟩] }
      else { ss with pc := .failing c }))
    | _ => none
  | .sendAddr _ ok =>
    match ss.pc with
    | .opened c i =>
      if ok then
        some { s.setSession k { ss with pc := .sending, streams := ss.streams.set i ⟨true, false⟩ } with
          relays := s.relays ++ [⟨k, i, .relaying⟩] }
      -- neither `<-counter` nor a close of the stream
      else some (s.setSession k { ss with pc := .requeue c })
    | _ => none
  | .putBack _ =>
    match ss.pc with
    | .requeue c => (s.front.localChannel.trySend c).map fun ch =>
      (s.setQueue ch).setSession k { ss with pc := .sending }
    | .failing c => (s.front.localChannel.trySend c).map fun ch => (s.setQueue ch).setSession k ss.leave
    | _ => none
  | _ => none

def State.setRelay (s : State size muxCon) (r : Nat) (x : Relay) (pc : RelayPc) : State size muxCon :=
  { s with relays := s.relays.set r { x with pc } }

def step (max : Int) (s : State size muxCon) (a : Action) : Option (State size muxCon) :=
  match a with
  | .acceptor j e => do
      let pc ← s.acceptors[j]?
      let r ← acceptLocalConn max s.now s.cancelled s.front pc e
      some { s with front := r.1, acceptors := s.acceptors.set j r.2 }
  | .newSession => some { s with sessions := s.sessions ++ [⟨.sending, .make, []⟩] }
  | .push k | .sessionDone k | .take k | .check k | .pop k | .openStream k _ | .sendAddr k _ | .putBack k => do
      let ss ← s.sessions[k]?
      handleSession s k ss a
  | .relayEnds r => do
      let x ← s.relays[r]?
      let ss ← s.sessions[x.session]?
      let st ← ss.streams[x.stream]?
      if x.pc = .relaying then
        some ((s.setRelay r x .ended).setSession x.session
          { ss with streams := ss.streams.set x.stream st.close })
      else none
  | .relayPops r => do
      let x ← s.relays[r]?
      let ss ← s.sessions[x.session]?
      let ss' ← ss.popCounter
      if x.pc = .ended then some ((s.setRelay r x .releasing).setSession x.session ss') else none
  | .relayReleases r => do
      let x ← s.relays[r]?
      if x.pc = .releasing then
        some { s.setRelay r x .returned with front := { s.front with active := release max s.front.active } }
      else none
  | .tick ms => some { s with now := s.now + ms }
  | .cancel => some { s with cancelled := true }

end ArangeTun.Mux
