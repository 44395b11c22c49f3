import ArangeTun.Server.Limits
import ArangeTun.Transition.Run

/-!
# Forwarding in the plain TCP server, over its restarts

`acceptLocalConn`, `handleLoop` and the relay goroutines of internal/server/transport/tcp.go.
-/

namespace ArangeTun.Forward

open Go Server

inductive LoopPc
  -- in the outer `select`
  | waiting
  -- before the check of the time
  | holding (c : LocalConn)
  -- in the inner `select`, without a tunnel connection
  | pairing (c : LocalConn)
  -- between `Close` of a connection that timed out and `release`
  | releasing
  -- with the connection that it had in hand
  | returned (held : Option LocalConn)
  deriving DecidableEq

inductive RelayPc
  | relaying
  | ended
  | returned
  deriving DecidableEq

structure Run (size : Nat) where
  cancelled : Bool
  localChannel : Chan LocalConn size
  acceptors : List AcceptPc
  loops : List LoopPc
  relays : List RelayPc
  deriving DecidableEq

structure State (size : Nat) where
  active : Int
  now : Nat
  runs : List (Run size)
  deriving DecidableEq

inductive LoopEvent
  | done
  | take
  | check
  | release
  -- the address is sent over a tunnel connection, or that fails
  | pair (ok : Bool)
  deriving DecidableEq

inductive Action
  | start (listeners numCPU : Nat)
  | cancel (r : Nat)
  | acceptor (r j : Nat) (e : AcceptEvent)
  | loop (r i : Nat) (e : LoopEvent)
  | relayEnds (r q : Nat)
  | relayReleases (r q : Nat)
  | tick (ms : Nat)
  deriving DecidableEq

variable {size : Nat}

def initial : State size := ⟨0, 0, []⟩

def newRun (listeners numCPU : Nat) : Run size where
  cancelled := false
  localChannel := .make
  acceptors := List.replicate listeners .idle
  loops := List.replicate numCPU .waiting
  relays := []

/-- One step of `handleLoop`: what it shares with the others, the relays, and where it stands after it. -/
def handleLoop (max : Int) (now : Nat) (done : Bool) (f : Front size) (relays : List RelayPc) (pc : LoopPc) :
    LoopEvent → Option (Front size × List RelayPc × LoopPc)
  | .done =>
    match pc with
    | .waiting => if done then some (f, relays, .returned none) else none
    -- `return` in the inner `select` neither closes the connection nor gives the slot back
    | .pairing c => if done then some (f, relays, .returned (some c)) else none
    | _ => none
  | .take =>
    match pc with
    | .waiting => f.localChannel.tryRecv.map fun r => ({ f with localChannel := r.2 }, relays, .holding r.1)
    | _ => none
  | .check =>
    match pc with
    | .holding c => some (f, relays, if Expired now c then .releasing else .pairing c)
    | _ => none
  | .release =>
    match pc with
    | .releasing => some ({ f with active := Server.release max f.active }, relays, .waiting)
    | _ => none
  | .pair ok =>
    match pc with
    | .pairing c => some (if ok then (f, relays ++ [.relaying], .waiting) else (f, relays, .holding c))
    | _ => none

def State.front (s : State size) (run : Run size) : Front size := ⟨s.active, run.localChannel⟩

def State.put (s : State size) (r : Nat) (f : Front size) (run : Run size) : State size :=
  { s with active := f.active, runs := s.runs.set r { run with localChannel := f.localChannel } }

def step (max : Int) (s : State size) : Action → Option (State size)
  | .start listeners numCPU =>
    if s.runs.all (·.cancelled) then some { s with runs := s.runs ++ [newRun listeners numCPU] } else none
  | .cancel r => do
      let run ← s.runs[r]?
      some { s with runs := s.runs.set r { run with cancelled := true } }
  | .acceptor r j e => do
      let run ← s.runs[r]?
      let pc ← run.acceptors[j]?
      let (f, pc') ← acceptLocalConn max s.now run.cancelled (s.front run) pc e
      some (s.put r f { run with acceptors := run.acceptors.set j pc' })
  | .loop r i e => do
      let run ← s.runs[r]?
      let pc ← run.loops[i]?
      let (f, relays, pc') ← handleLoop max s.now run.cancelled (s.front run) run.relays pc e
      some (s.put r f { run with relays, loops := run.loops.set i pc' })
  | .relayEnds r q => do
      let run ← s.runs[r]?
      let pc ← run.relays[q]?
      if pc = .relaying then some (s.put r (s.front run) { run with relays := run.relays.set q .ended })
      else none
  | .relayReleases r q => do
      let run ← s.runs[r]?
      let pc ← run.relays[q]?
      if pc = .ended then
        some (s.put r ⟨release max s.active, run.localChannel⟩ { run with relays := run.relays.set q .returned })
      else none
  | .tick ms => some { s with now := s.now + ms }

def LoopPc.live : LoopPc → Bool
  | .waiting | .holding _ | .pairing _ | .releasing => true
  | .returned _ => false

/-- The context of the run is cancelled and all its goroutines have returned. -/
def Run.Ended (run : Run size) : Prop :=
  run.cancelled = true ∧ (∀ pc ∈ run.acceptors, pc = .returned) ∧ (∀ pc ∈ run.loops, pc.live = false) ∧
    ∀ pc ∈ run.relays, pc = .returned

instance (run : Run size) : Decidable run.Ended :=
  inferInstanceAs (Decidable (_ ∧ _ ∧ _ ∧ _))

end ArangeTun.Forward
