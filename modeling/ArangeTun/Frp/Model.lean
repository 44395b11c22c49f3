import ArangeTun.Go.Map
import ArangeTun.Go.Str
import ArangeTun.Transition.Run

/-!
# The UDP flows of the frp server

internal/frp/frp.go: `serveExposedUDP`, the flow table `udpFlows` and its reaper.
-/

namespace ArangeTun.Frp

open Go

def udpIdleTimeout : Int := 60 * 10 ^ 9

inductive ReplyPc
  -- in `streamToPacket`
  | copying
  | removing
  -- in `remove`, before it closes the stream of the flow that it found
  | closing (found : Nat)
  | returned
  deriving DecidableEq

structure Flow where
  key : Str
  last : Int
  closed : Bool
  reply : ReplyPc
  deriving DecidableEq

inductive MainPc
  | reading
  | opening (src : Str)
  | adding (src : Str)
  | writing (flow : Nat)
  -- `writeFrame` failed on the flow
  | removing (flow : Nat)
  | closing (flow found : Nat)
  | returned
  deriving DecidableEq

structure State where
  now : Int
  m : Map Str Nat
  flows : List Flow
  main : MainPc

inductive Action
  | pass (nanos : Nat)
  | receive (src : Str)
  -- `openTargetStream` gives a stream or `nil`
  | openStream (ok : Bool)
  | add
  | write (ok : Bool)
  | remove
  | close
  -- a datagram comes back
  | reply (flow : Nat)
  | replyEnds (flow : Nat)
  | replyRemove (flow : Nat)
  | replyClose (flow : Nat)
  | reap
  | closeAll
  deriving DecidableEq

def initial : State := ⟨0, .empty, [], .reading⟩

def State.setFlow (s : State) (i : Nat) (f : Flow) : State := { s with flows := s.flows.set i f }

/-- Close the streams of the entries that `p` holds of, and delete these entries. -/
def State.sweep (s : State) (p : Flow → Bool) : State :=
  { s with
    m := fun key => (s.m key).filter fun i => !s.flows[i]?.any p
    flows := s.flows.mapIdx fun i f => if s.m f.key = some i ∧ p f = true then { f with closed := true } else f }

def step (s : State) : Action → Option State
  | .pass nanos => some { s with now := s.now + nanos }
  | .receive src =>
    if s.main = .reading then
      match s.m src with
      | some i => some { s with main := .writing i }
      | none => some { s with main := .opening src }
    else none
  | .openStream ok =>
    match s.main with
    | .opening src => some { s with main := if ok then .adding src else .reading }
    | _ => none
  | .add =>
    match s.main with
    | .adding src =>
      some { s with
        flows := s.flows ++ [⟨src, s.now, false, .copying⟩]
        m := s.m.set src s.flows.length
        main := .writing s.flows.length }
    | _ => none
  | .write ok =>
    match s.main with
    | .writing i => do
        let f ← s.flows[i]?
        some { s.setFlow i { f with last := s.now } with main := if ok then .reading else .removing i }
    | _ => none
  | .remove =>
    match s.main with
    | .removing i => do
        let f ← s.flows[i]?
        some { s with
          m := s.m.delete f.key
          main := match s.m f.key with
            | some found => .closing i found
            | none => .reading }
    | _ => none
  | .close =>
    match s.main with
    | .closing _ found => do
        let g ← s.flows[found]?
        some { s.setFlow found { g with closed := true } with main := .reading }
    | _ => none
  | .reply i => do
      let f ← s.flows[i]?
      if f.reply = .copying then some (s.setFlow i { f with last := s.now }) else none
  | .replyEnds i => do
      let f ← s.flows[i]?
      if f.reply = .copying then some (s.setFlow i { f with reply := .removing }) else none
  | .replyRemove i => do
      let f ← s.flows[i]?
      if f.reply = .removing then
        some { s.setFlow i { f with reply := match s.m f.key with
                | some found => .closing found
                | none => .returned } with
          m := s.m.delete f.key }
      else none
  | .replyClose i => do
      let f ← s.flows[i]?
      match f.reply with
      | .closing found =>
        let s := s.setFlow i { f with reply := .returned }
        let g ← s.flows[found]?
        some (s.setFlow found { g with closed := true })
      | _ => none
  | .reap => some (s.sweep fun f => decide (f.last < s.now - udpIdleTimeout))
  | .closeAll => if s.main = .reading then some { s.sweep fun _ => true with m := .empty, main := .returned } else none

def ReplyPc.pending : ReplyPc → Bool
  | .copying | .removing => true
  | .closing _ | .returned => false

def MainPc.flow : MainPc → Option Nat
  | .writing i | .removing i => some i
  | .reading | .opening _ | .adding _ | .closing _ _ | .returned => none

end ArangeTun.Frp
