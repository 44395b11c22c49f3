import ArangeTun.Go.Chan
import ArangeTun.Go.Str
import ArangeTun.Transition.Run

/-!
# Data channels of the rathole server

internal/rathole/rathole.go: `controlHandshake`, `routeDataChannel` with a goroutine for each data connection, and
`acquireDataChannel` with one for each visitor, all known by their index.
-/

namespace ArangeTun.Rathole

open Go

def dataChSize : Nat := 16

structure Channel where
  key : Str
  dataCh : Chan Nat dataChSize
  closed : Bool

inductive RouterPc
  | looking
  | offering (channel : Nat)
  | sent (channel : Nat)
  -- the connection was closed
  | refused
  deriving DecidableEq

structure Conn where
  key : Str
  router : RouterPc
  handed : Bool
  closed : Bool
  deriving DecidableEq

inductive VisitorPc
  | looking
  | waiting (channel : Nat)
  | holding (channel conn : Nat)
  | returned
  deriving DecidableEq

structure State where
  channels : List Channel
  current : Option Nat
  conns : List Conn
  visitors : List VisitorPc

inductive Action
  | publish (key : Str)
  -- `runControl` has returned
  | retire (channel : Nat)
  | close (channel : Nat)
  | arrive (key : Str)
  | route (conn : Nat)
  | send (conn : Nat)
  -- the control channel is closed, or `dataChannelWait` is over
  | refuse (conn : Nat)
  | visit
  | seek (visitor : Nat)
  | receive (visitor : Nat)
  -- the control channel is closed, or `dataChannelWait` is over
  | giveUp (visitor : Nat)
  | finish (visitor : Nat)
  deriving DecidableEq

def initial : State := ⟨[], none, [], []⟩

def State.setChannel (s : State) (ch : Nat) (x : Channel) : State := { s with channels := s.channels.set ch x }

def State.setConn (s : State) (c : Nat) (conn : Conn) : State := { s with conns := s.conns.set c conn }

def State.setVisitor (s : State) (v : Nat) (pc : VisitorPc) : State := { s with visitors := s.visitors.set v pc }

def State.closeOld (s : State) : List Channel :=
  match s.current with
  | some old => s.channels.modify old fun x => { x with closed := true }
  | none => s.channels

def step (s : State) : Action → Option State
  | .publish key =>
    some { s with channels := s.closeOld ++ [⟨key, .make, false⟩], current := some s.channels.length }
  | .retire ch => if s.current = some ch then some { s with current := none } else some s
  | .close ch => do
      let x ← s.channels[ch]?
      -- its own goroutine closes it after the retirement
      if s.current = some ch then none else some (s.setChannel ch { x with closed := true })
  | .arrive key => some { s with conns := s.conns ++ [⟨key, .looking, false, false⟩] }
  | .route c => do
      let conn ← s.conns[c]?
      if conn.router = .looking then
        match s.current with
        | some ch => do
            let x ← s.channels[ch]?
            if x.key = conn.key then some (s.setConn c { conn with router := .offering ch })
            else some (s.setConn c { conn with router := .refused, closed := true })
        | none => some (s.setConn c { conn with router := .refused, closed := true })
      else none
  | .send c => do
      let conn ← s.conns[c]?
      match conn.router with
      | .offering ch => do
          let x ← s.channels[ch]?
          let dataCh ← x.dataCh.trySend c
          some ((s.setConn c { conn with router := .sent ch }).setChannel ch { x with dataCh })
      | _ => none
  | .refuse c => do
      let conn ← s.conns[c]?
      match conn.router with
      | .offering _ => some (s.setConn c { conn with router := .refused, closed := true })
      | _ => none
  | .visit => some { s with visitors := s.visitors ++ [.looking] }
  | .seek v =>
    if s.visitors[v]? = some .looking then
      match s.current with
      | some ch => some (s.setVisitor v (.waiting ch))
      | none => some (s.setVisitor v .returned)
    else none
  | .receive v => do
      match ← s.visitors[v]? with
      | .waiting ch => do
          let x ← s.channels[ch]?
          let r ← x.dataCh.tryRecv
          let conn ← s.conns[r.1]?
          some (((s.setChannel ch { x with dataCh := r.2 }).setConn r.1 { conn with handed := true }).setVisitor v
            (.holding ch r.1))
      | _ => none
  | .giveUp v => do
      match ← s.visitors[v]? with
      | .waiting _ => some (s.setVisitor v .returned)
      | _ => none
  | .finish v => do
      match ← s.visitors[v]? with
      | .holding _ c => do
          let conn ← s.conns[c]?
          some ((s.setConn c { conn with closed := true }).setVisitor v .returned)
      | _ => none

def RouterPc.offered : RouterPc → Option Nat
  | .offering ch => some ch
  | .looking | .sent _ | .refused => none

def VisitorPc.channel : VisitorPc → Option Nat
  | .waiting ch | .holding ch _ => some ch
  | .looking | .returned => none

def State.Waited (s : State) (ch : Nat) : Prop := VisitorPc.waiting ch ∈ s.visitors

instance (s : State) (ch : Nat) : Decidable (s.Waited ch) := inferInstanceAs (Decidable (_ ∈ _))

end ArangeTun.Rathole
