import ArangeTun.Go.Binary
import ArangeTun.Go.Chan
import ArangeTun.Go.Map
import ArangeTun.Transition.Run

/-!
# The flows of a forwarded UDP port

internal/server/transport/udpforward.go.
-/

namespace ArangeTun.UdpForward

open Go

def maxDatagram : Nat := 65535

def udpIdleTimeout : Nat := 60 * 10 ^ 9

def udpFlowQueue : Nat := 256

inductive Phase
  | fresh
  | entered
  -- after `close(f.done)`
  | signalled
  -- after `forget`
  | forgotten
  | finished
  deriving DecidableEq

structure Flow where
  key : Str
  queue : Chan Str udpFlowQueue
  phase : Phase
  lastSeen : Nat
  pending : Str
  output : Str

def newUDPFlow (now : Nat) (key : Str) : Flow := ⟨key, .make, .fresh, now, [], []⟩

def Flow.done (f : Flow) : Bool :=
  match f.phase with
  | .signalled | .forgotten | .finished => true
  | .fresh | .entered => false

/-- `deliver`. Whether the datagram is queued is up to the `select` when both of its cases are ready. -/
def Flow.deliver (f : Flow) (now : Nat) (payload : Str) (queued : Bool) : Option Flow :=
  match f.queue.trySend payload with
  | some queue =>
    if queued then some { f with queue, lastSeen := now } else if f.done then some f else none
  | none => if queued then none else some f

def frame (payload : Str) : Str := putUint16 (UInt16.ofNat payload.length) ++ payload

def Flow.hand (f : Flow) (now n : Nat) (pending : Str) : Flow × Option Str :=
  ({ f with pending := pending.drop n, output := f.output ++ pending.take n, lastSeen := now },
    some (pending.take n))

def Flow.read (f : Flow) (now n : Nat) : Option (Flow × Option Str) :=
  if f.pending ≠ [] then some (f.hand now n f.pending)
  else
    match f.queue.tryRecv with
    | some (payload, queue) => some (({ f with queue } : Flow).hand now n (frame payload))
    -- both of the `select`s look at the queue before `done` ends the flow
    | none => if f.done then some (f, none) else none

/-! ## The goroutines -/

inductive CallPc
  | entering
  -- in the function that `once` runs
  | running
  | returned
  deriving DecidableEq

structure CloseCall where
  flow : Nat
  pc : CallPc
  deriving DecidableEq

def closeStep : Phase → CallPc → Option (Phase × CallPc)
  | .fresh, .entering => some (.entered, .running)
  | .finished, .entering => some (.finished, .returned)
  | .entered, .running => some (.signalled, .running)
  | .signalled, .running => some (.forgotten, .running)
  | .forgotten, .running => some (.finished, .returned)
  | _, _ => none

inductive RunPc
  | reading
  -- before the lock
  | filing (peer payload : Str)
  | delivering (flow : Nat) (known : Bool) (payload : Str)
  | admitting (flow : Nat)
  -- in the `Close` of a flow that was refused
  | refusing (call : Nat)
  | returned
  deriving DecidableEq

/-- Where a goroutine stands that closes the flows of a list one by one. -/
inductive SweepPc
  | idle
  | closing (rest : List Nat)
  | waiting (call : Nat) (rest : List Nat)
  | returned
  deriving DecidableEq

inductive Sweeper
  | reaper
  | closer
  deriving DecidableEq

structure State where
  now : Nat
  cancelled : Bool
  closed : Bool
  connClosed : Bool
  table : Map Str Nat
  flows : List Flow
  calls : List CloseCall
  received : List (Str × Str)
  run : RunPc
  sweep : Sweeper → SweepPc

inductive Action
  | tick (ns : Nat)
  | cancel
  | receive (peer data : Str)
  | readError
  | file
  | deliver (queued : Bool)
  | admitted (ok : Bool)
  | refused
  -- `reap` and `close` make their list
  | collect (who : Sweeper)
  | sweepClose (who : Sweeper) (flow : Nat)
  | sweepNext (who : Sweeper)
  | sweepEnd (who : Sweeper)
  | reapDone
  -- some other goroutine calls `Close`
  | close (flow : Nat)
  | call (c : Nat)
  | read (flow n : Nat)
  -- `send`, on behalf of `Write`
  | send (flow : Nat)
  deriving DecidableEq

def initial : State :=
  ⟨0, false, false, false, .empty, [], [], [], .reading, fun _ => .idle⟩

def State.listed (s : State) (i : Nat) : Bool :=
  match s.flows[i]? with
  | some f => s.table f.key = some i
  | none => false

def State.stale (s : State) (i : Nat) : Bool :=
  match s.flows[i]? with
  | some f => f.lastSeen + udpIdleTimeout < s.now
  | none => false

def State.collected (s : State) : Sweeper → List Nat
  | .reaper => (List.range s.flows.length).filter fun i => s.listed i && s.stale i
  | .closer => (List.range s.flows.length).filter s.listed

def State.setFlow (s : State) (i : Nat) (f : Flow) : State := { s with flows := s.flows.set i f }

def State.setSweep (s : State) (who : Sweeper) (pc : SweepPc) : State :=
  { s with sweep := Function.update s.sweep who pc }

def State.startClose (s : State) (i : Nat) : State := { s with calls := s.calls ++ [⟨i, .entering⟩] }

def State.returned (s : State) (call : Nat) : Bool :=
  match s.calls[call]? with
  | some c => c.pc = .returned
  | none => false

def State.file (s : State) (peer payload : Str) : State :=
  match s.table peer with
  | some i => { s with run := .delivering i true payload }
  | none =>
    if s.closed then { s with run := .returned }
    else
      { s with
        flows := s.flows ++ [newUDPFlow s.now peer]
        table := s.table.set peer s.flows.length
        run := .delivering s.flows.length false payload }

def step (s : State) : Action → Option State
  | .tick ns => some { s with now := s.now + ns }
  | .cancel => some { s with cancelled := true }
  | .receive peer data =>
    if s.run = .reading ∧ s.connClosed = false then
      let payload := data.take maxDatagram
      some { s with received := s.received ++ [(peer, payload)], run := .filing peer payload }
    else none
  | .readError =>
    if s.run = .reading then some (if s.closed then { s with run := .returned } else s) else none
  | .file =>
    match s.run with
    | .filing peer payload => some (s.file peer payload)
    | _ => none
  | .deliver queued =>
    match s.run with
    | .delivering i known payload => do
        let f ← s.flows[i]?
        let f' ← f.deliver s.now payload queued
        some { s.setFlow i f' with run := if known then .reading else .admitting i }
    | _ => none
  | .admitted ok =>
    match s.run with
    | .admitting i =>
      some (if ok then { s with run := .reading }
        else { s.startClose i with run := .refusing s.calls.length })
    | _ => none
  | .refused =>
    match s.run with
    | .refusing call => if s.returned call then some { s with run := .reading } else none
    | _ => none
  | .collect who =>
    if s.sweep who = .idle then
      match who with
      | .reaper => some (s.setSweep .reaper (.closing (s.collected .reaper)))
      | .closer =>
        if s.cancelled then
          some { s.setSweep .closer (.closing (s.collected .closer)) with closed := true }
        else none
    else none
  | .sweepClose who i =>
    match s.sweep who with
    | .closing rest =>
      -- the order of a map is not fixed
      if i ∈ rest then
        some ((s.startClose i).setSweep who (.waiting s.calls.length (rest.erase i)))
      else none
    | _ => none
  | .sweepNext who =>
    match s.sweep who with
    | .waiting call rest => if s.returned call then some (s.setSweep who (.closing rest)) else none
    | _ => none
  | .sweepEnd who =>
    match s.sweep who with
    | .closing [] =>
      match who with
      | .reaper => some (s.setSweep .reaper .idle)
      | .closer => some { s.setSweep .closer .returned with connClosed := true }
    | _ => none
  | .reapDone =>
    if s.sweep .reaper = .idle ∧ s.cancelled = true then some (s.setSweep .reaper .returned) else none
  | .close i => do
      let _ ← s.flows[i]?
      some (s.startClose i)
  | .call c => do
      let call ← s.calls[c]?
      let f ← s.flows[call.flow]?
      let (phase, pc) ← closeStep f.phase call.pc
      some { s with
        flows := s.flows.set call.flow { f with phase }
        calls := s.calls.set c { call with pc }
        -- `forget` looks whether the entry is still this flow
        table := if f.phase = .signalled then s.table.deleteIf f.key call.flow else s.table }
  | .read i n => do
      let f ← s.flows[i]?
      let r ← f.read s.now n
      some (s.setFlow i r.1)
  | .send i => do
      let f ← s.flows[i]?
      some (s.setFlow i { f with lastSeen := s.now })

end ArangeTun.UdpForward
