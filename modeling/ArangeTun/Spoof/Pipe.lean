import ArangeTun.Go.Chan
import ArangeTun.Go.Reader
import ArangeTun.Transition.Run

/-!
# The WireGuard pipe over the spoof carrier

`SpoofPipeRelay` of internal/utils/network/spoofpipe.go. Each channel operation, each `Get` and each `put` is a step.
-/

namespace ArangeTun.Spoof.Pipe

open Go

def queueDepth : Nat := 1024

def bufSize : Nat := 64 * 1024

structure Datagram where
  seq : Nat
  data : Str
  deriving DecidableEq

structure Pkt where
  buf : Nat
  n : Nat
  seq : Nat
  deriving DecidableEq

inductive ReaderPc
  | getting
  -- in `ReadFrom`
  | reading (b : Nat)
  | failing (b : Nat) (err : Error)
  -- before the first, the second and the third `select`
  | sending (p : Pkt)
  | shedding (p : Pkt)
  -- before `put(old)`
  | putting (old p : Pkt)
  | resending (p : Pkt)
  -- before `put(pkt)`
  | discarding (p : Pkt)
  -- after an error the buffer stays with the goroutine
  | returned (b : Nat)
  deriving DecidableEq

inductive WriterPc
  | waiting
  | writing (p : Pkt)
  | putting (p : Pkt)
  | returned
  deriving DecidableEq

/-- The goroutine of the upward direction, which has a buffer of its own. -/
inductive UplinkPc
  | reading
  | writing (data : Str)
  | failing (err : Error)
  | returned
  deriving DecidableEq

inductive MainPc
  | waiting
  | returned (err : Option Error)
  deriving DecidableEq

structure State where
  cancelled : Bool
  peer : Bool
  errc : Chan Error 2
  q : Chan Pkt queueDepth
  pool : List Nat
  mem : Nat → Str
  reader : ReaderPc
  writer : WriterPc
  uplink : UplinkPc
  main : MainPc
  made : Nat
  /-- the buffers of the pool that the garbage collector has taken -/
  collected : List Nat
  read : List Datagram
  /-- what the writer received from the queue, with the bytes at that moment -/
  taken : List Datagram
  /-- what was passed to the UDP socket, with the bytes at that moment -/
  written : List Datagram

inductive Action
  | cancel
  | collect (b : Nat)
  -- `pool.Get` gives a buffer of the pool, or `New` makes one
  | get (b : Option Nat)
  | readFrom (data : Str)
  | readFails (err : Error)
  | report
  | send
  | shed
  | putOld
  | resend
  | putNew
  | done
  | take
  | write
  | put
  -- the upward direction
  | readUDP (data : Str) (addr : Bool)
  | readUDPFails (err : Error)
  | writeSpoof (err : Option Error)
  | reportUDP
  -- the end of the function
  | leave
  | fail
  deriving DecidableEq

def initial : State where
  cancelled := false
  peer := false
  errc := .make
  q := .make
  pool := []
  mem := fun _ => []
  reader := .getting
  writer := .waiting
  uplink := .reading
  main := .waiting
  made := 0
  collected := []
  read := []
  taken := []
  written := []

def datagram (mem : Nat → Str) (p : Pkt) : Datagram := ⟨p.seq, (mem p.buf).take p.n⟩

def fill (mem : Nat → Str) (b : Nat) (data : Str) : Nat → Str :=
  Function.update mem b (data ++ (mem b).drop data.length)

def step (learnPeer : Bool) (s : State) : Action → Option State
  | .cancel => some { s with cancelled := true }
  | .collect b =>
    if b ∈ s.pool then some { s with pool := s.pool.erase b, collected := b :: s.collected } else none
  | .get none =>
    if s.reader = .getting then
      some { s with
        reader := .reading s.made
        made := s.made + 1
        mem := Function.update s.mem s.made (List.replicate bufSize 0) }
    else none
  | .get (some b) =>
    if s.reader = .getting ∧ b ∈ s.pool then some { s with reader := .reading b, pool := s.pool.erase b } else none
  | .readFrom data =>
    match s.reader with
    | .reading b =>
      if data.length ≤ bufSize then
        some { s with
          reader := .sending ⟨b, data.length, s.read.length⟩
          mem := fill s.mem b data
          read := s.read ++ [⟨s.read.length, data⟩] }
      else none
    | _ => none
  | .readFails err =>
    match s.reader with
    | .reading b => some { s with reader := .failing b err }
    | _ => none
  | .report =>
    match s.reader with
    | .failing b err => (s.errc.trySend err).map fun errc => { s with reader := .returned b, errc := errc }
    | _ => none
  | .send =>
    match s.reader with
    | .sending p =>
      match s.q.trySend p with
      | some q => some { s with reader := .getting, q := q }
      | none => some { s with reader := .shedding p }
    | _ => none
  | .shed =>
    match s.reader with
    | .shedding p =>
      match s.q.tryRecv with
      | some (old, q) => some { s with reader := .putting old p, q := q }
      | none => some { s with reader := .resending p }
    | _ => none
  | .putOld =>
    match s.reader with
    | .putting old p => some { s with reader := .resending p, pool := old.buf :: s.pool }
    | _ => none
  | .resend =>
    match s.reader with
    | .resending p =>
      match s.q.trySend p with
      | some q => some { s with reader := .getting, q := q }
      | none => some { s with reader := .discarding p }
    | _ => none
  | .putNew =>
    match s.reader with
    | .discarding p => some { s with reader := .getting, pool := p.buf :: s.pool }
    | _ => none
  | .done => if s.writer = .waiting ∧ s.cancelled then some { s with writer := .returned } else none
  | .take =>
    if s.writer = .waiting then
      s.q.tryRecv.map fun r =>
        { s with writer := .writing r.1, q := r.2, taken := s.taken ++ [datagram s.mem r.1] }
    else none
  | .write =>
    match s.writer with
    | .writing p =>
      if learnPeer && !s.peer then some { s with writer := .putting p }
      else some { s with writer := .putting p, written := s.written ++ [datagram s.mem p] }
    | _ => none
  | .put =>
    match s.writer with
    | .putting p => some { s with writer := .waiting, pool := p.buf :: s.pool }
    | _ => none
  | .readUDP data addr =>
    if s.uplink = .reading ∧ data.length ≤ bufSize then
      some { s with uplink := .writing data, peer := s.peer || (learnPeer && addr) }
    else none
  | .readUDPFails err => if s.uplink = .reading then some { s with uplink := .failing err } else none
  | .writeSpoof err =>
    match s.uplink with
    | .writing _ => some { s with uplink := err.elim .reading .failing }
    | _ => none
  | .reportUDP =>
    match s.uplink with
    | .failing err => (s.errc.trySend err).map fun errc => { s with uplink := .returned, errc := errc }
    | _ => none
  | .leave => if s.main = .waiting ∧ s.cancelled then some { s with main := .returned none } else none
  | .fail =>
    if s.main = .waiting then
      s.errc.tryRecv.map fun r => { s with main := .returned (some r.1), errc := r.2 }
    else none

/-! ## Who has which buffer -/

def ReaderPc.held : ReaderPc → List Nat
  | getting => []
  | reading b | failing b _ | returned b => [b]
  | sending p | shedding p | resending p | discarding p => [p.buf]
  | putting old p => [old.buf, p.buf]

def ReaderPc.pending : ReaderPc → List Pkt
  | sending p | shedding p | resending p | discarding p | putting _ p => [p]
  | _ => []

def WriterPc.held : WriterPc → List Pkt
  | writing p | putting p => [p]
  | _ => []

def State.places (s : State) (b : Nat) : Nat :=
  s.pool.count b + s.reader.held.count b + (s.q.buf.map Pkt.buf).count b + (s.writer.held.map Pkt.buf).count b

end ArangeTun.Spoof.Pipe
