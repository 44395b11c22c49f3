import ArangeTun.Client.Pool
import ArangeTun.Transition.Table

/-!
# The plain TCP client, over its restarts

`Start`, `Restart`, `channelDialer`, `poolMaintainer`, `channelHandler` and `tunnelDialer` of
internal/client/transport/tcp.go, on the `clientState` of state.go.
-/

namespace ArangeTun.Client.Runs

open Go Wire Transition

/-! ## Goroutines -/

inductive DialerPc
  | selecting
  -- with the context fetched
  | checking (k : Nat)
  | dialing
  -- before `SetConn`, `go c.poolMaintainer()` and `go c.channelHandler()`
  | acked
  | published
  | maintained
  | returned
  deriving DecidableEq

inductive ReaderPc
  | selecting
  | checking (k : Nat)
  -- before `c.state.Conn()`
  | fetching
  | reading (c : Option Nat)
  | delivering (msg : UInt8)
  | returned
  deriving DecidableEq

inductive MainPc
  | selecting
  | waiting (k : Nat)
  -- in the branch of `Done()`
  | closing
  | sendingClosed (c : Option Nat)
  -- in the branch of `SG_RTT`
  | answering
  | sendingRTT (c : Option Nat)
  | returned
  deriving DecidableEq

inductive MaintainerPc
  | filling (i : Nat)
  | selecting
  | waiting (k : Nat)
  | pushing
  | returned
  deriving DecidableEq

inductive RestartPc
  | locking
  | cancelling
  | closing
  | sleeping
  | resetting
  | storingPool
  | storingLoad
  | draining
  | starting
  | returned
  deriving DecidableEq

inductive TunnelPc
  | dialing
  | counted
  | returned
  deriving DecidableEq

structure Dialer where
  run : Nat
  pc : DialerPc
  deriving DecidableEq

structure Handler where
  run : Nat
  reader : ReaderPc
  main : MainPc
  msgChan : Chan UInt8 1000
  deriving DecidableEq

structure Maintainer where
  run : Nat
  pc : MaintainerPc
  newPoolSize : Int
  poolConnectionsSum : Int
  deriving DecidableEq

structure Restart where
  run : Nat
  pc : RestartPc
  deriving DecidableEq

structure State where
  /-- for each generation whether its context is cancelled; the last one is the one in `c.state` -/
  gens : List Bool
  conn : Option Nat
  conns : List Nat
  restartMutex : Bool
  parentDone : Bool
  poolConnections : Int
  loadConnections : Int
  controlFlow : Chan Unit 100
  dialers : List Dialer
  handlers : List Handler
  maintainers : List Maintainer
  restarts : List Restart
  tunnels : List TunnelPc
  deriving DecidableEq

def State.cur (s : State) : Nat := s.gens.length - 1

def State.done (s : State) (k : Nat) : Bool := s.gens.getD k true

/-! ## Steps -/

inductive DialerEvent
  | ctx
  | check
  | attempt (ok : Bool)
  | setConn
  | maintain
  | handle
  deriving DecidableEq

inductive ReaderEvent
  | ctx
  | check
  | conn
  | read (msg : Option UInt8)
  | deliver
  deriving DecidableEq

inductive MainEvent
  | ctx
  | done
  | message
  | conn
  | send (ok : Bool)
  deriving DecidableEq

inductive MaintainerEvent
  | fill
  | ctx
  | done
  | tickPool
  | tickLoad (mbps : Int)
  | push
  deriving DecidableEq

inductive RestartEvent
  | lock
  | cancel
  | close
  | wake
  | reset
  | storePool
  | storeLoad
  | drain
  | start
  deriving DecidableEq

inductive TunnelEvent
  | dial (ok : Bool)
  | received
  deriving DecidableEq

inductive Action
  | shutdown
  | dialer (i : Nat) (e : DialerEvent)
  | reader (i : Nat) (e : ReaderEvent)
  | main (i : Nat) (e : MainEvent)
  | maintainer (i : Nat) (e : MaintainerEvent)
  | restart (i : Nat) (e : RestartEvent)
  | tunnel (i : Nat) (e : TunnelEvent)
  deriving DecidableEq

def initial : State where
  gens := [false]
  conn := none
  conns := []
  restartMutex := false
  parentDone := false
  poolConnections := 0
  loadConnections := 0
  controlFlow := .make
  dialers := [⟨0, .selecting⟩]
  handlers := []
  maintainers := []
  restarts := []
  tunnels := []

def State.setDialer (s : State) (i : Nat) (d : Dialer) : State := { s with dialers := s.dialers.set i d }

def State.setHandler (s : State) (i : Nat) (h : Handler) : State := { s with handlers := s.handlers.set i h }

def State.setMaintainer (s : State) (i : Nat) (m : Maintainer) : State :=
  { s with maintainers := s.maintainers.set i m }

def State.setRestart (s : State) (i : Nat) (r : Restart) : State := { s with restarts := s.restarts.set i r }

def State.goTunnel (s : State) : State := { s with tunnels := s.tunnels ++ [.dialing] }

def State.goRestart (s : State) (run : Nat) : State := { s with restarts := s.restarts ++ [⟨run, .locking⟩] }

def dialerStep (s : State) (i : Nat) (d : Dialer) : DialerEvent → Option State
  | .ctx => if d.pc = .selecting then some (s.setDialer i { d with pc := .checking s.cur }) else none
  | .check =>
    match d.pc with
    | .checking k => some (s.setDialer i { d with pc := if s.done k then .returned else .dialing })
    | _ => none
  | .attempt ok =>
    if d.pc = .dialing then some (s.setDialer i { d with pc := if ok then .acked else .selecting }) else none
  | .setConn =>
    if d.pc = .acked then
      some { s.setDialer i { d with pc := .published } with
        conn := some s.conns.length
        conns := s.conns ++ [d.run] }
    else none
  | .maintain =>
    if d.pc = .published then
      some { s.setDialer i { d with pc := .maintained } with
        maintainers := s.maintainers ++ [⟨d.run, .filling 0, 0, 0⟩] }
    else none
  | .handle =>
    if d.pc = .maintained then
      some { s.setDialer i { d with pc := .returned } with
        handlers := s.handlers ++ [⟨d.run, .selecting, .selecting, .make⟩] }
    else none

def readerStep (s : State) (i : Nat) (h : Handler) : ReaderEvent → Option State
  | .ctx => if h.reader = .selecting then some (s.setHandler i { h with reader := .checking s.cur }) else none
  | .check =>
    match h.reader with
    | .checking k => some (s.setHandler i { h with reader := if s.done k then .returned else .fetching })
    | _ => none
  | .conn => if h.reader = .fetching then some (s.setHandler i { h with reader := .reading s.conn }) else none
  | .read (some msg) =>
    match h.reader with
    | .reading (some _) => some (s.setHandler i { h with reader := .delivering msg })
    | _ => none
  | .read none =>
    match h.reader with
    | .reading _ => some ((s.setHandler i { h with reader := .returned }).goRestart h.run)
    | _ => none
  | .deliver =>
    match h.reader with
    | .delivering msg =>
      (h.msgChan.trySend msg).map fun ch => s.setHandler i { h with reader := .selecting, msgChan := ch }
    | _ => none

def mainMessage (s : State) (i : Nat) (h : Handler) (msg : UInt8) : State :=
  if msg = SG_Chan then
    let s := { s.setHandler i { h with main := .selecting } with loadConnections := s.loadConnections + 1 }
    match s.controlFlow.tryRecv with
    | some (_, ch) => { s with controlFlow := ch }
    | none => s.goTunnel
  else if msg = SG_HB then s.setHandler i { h with main := .selecting }
  else if msg = SG_RTT then s.setHandler i { h with main := .answering }
  else
    -- `SG_Closed` and any other message
    (s.setHandler i { h with main := .returned }).goRestart h.run

def mainStep (s : State) (i : Nat) (h : Handler) : MainEvent → Option State
  | .ctx => if h.main = .selecting then some (s.setHandler i { h with main := .waiting s.cur }) else none
  | .done =>
    match h.main with
    | .waiting k => if s.done k then some (s.setHandler i { h with main := .closing }) else none
    | _ => none
  | .message =>
    match h.main with
    | .waiting _ => h.msgChan.tryRecv.map fun r => mainMessage s i { h with msgChan := r.2 } r.1
    | _ => none
  | .conn =>
    match h.main with
    | .closing => some (s.setHandler i { h with main := .sendingClosed s.conn })
    | .answering => some (s.setHandler i { h with main := .sendingRTT s.conn })
    | _ => none
  | .send ok =>
    match h.main with
    | .sendingClosed _ => some (s.setHandler i { h with main := .returned })
    | .sendingRTT c =>
      if ok ∧ c ≠ none then some (s.setHandler i { h with main := .selecting })
      else some ((s.setHandler i { h with main := .returned }).goRestart h.run)
    | _ => none

def maintainerStep (cfg : PoolConfig) (s : State) (i : Nat) (m : Maintainer) : MaintainerEvent → Option State
  | .fill =>
    match m.pc with
    | .filling n =>
      if (n : Int) < cfg.connPoolSize then some (s.setMaintainer i { m with pc := .filling (n + 1) }).goTunnel
      else some (s.setMaintainer i { m with pc := .selecting, newPoolSize := cfg.connPoolSize })
    | _ => none
  | .ctx => if m.pc = .selecting then some (s.setMaintainer i { m with pc := .waiting s.cur }) else none
  | .done =>
    match m.pc with
    | .waiting k => if s.done k then some (s.setMaintainer i { m with pc := .returned }) else none
    | _ => none
  | .tickPool =>
    match m.pc with
    | .waiting _ =>
      some (s.setMaintainer i
        { m with pc := .selecting, poolConnectionsSum := m.poolConnectionsSum + s.poolConnections })
    | _ => none
  | .tickLoad mbps =>
    match m.pc with
    | .waiting _ =>
      let s' := { s with loadConnections := 0 }
      match verdict cfg m.newPoolSize (.ofInt s.loadConnections) (.ofInt m.poolConnectionsSum) mbps with
      | .grow =>
        some (s'.setMaintainer i
          { m with pc := .selecting, newPoolSize := m.newPoolSize + 1, poolConnectionsSum := 0 }).goTunnel
      | .shrink =>
        some (s'.setMaintainer i
          { m with pc := .pushing, newPoolSize := m.newPoolSize - 1, poolConnectionsSum := 0 })
      | .keep => some (s'.setMaintainer i { m with pc := .selecting, poolConnectionsSum := 0 })
    | _ => none
  | .push =>
    match m.pc with
    | .pushing =>
      (s.controlFlow.trySend ()).map fun ch =>
        { s.setMaintainer i { m with pc := .selecting } with controlFlow := ch }
    | _ => none

def restartStep (s : State) (i : Nat) (r : Restart) : RestartEvent → Option State
  | .lock =>
    if r.pc = .locking then
      if s.restartMutex then some (s.setRestart i { r with pc := .returned })
      else some { s.setRestart i { r with pc := .cancelling } with restartMutex := true }
    else none
  | .cancel =>
    if r.pc = .cancelling then
      some { s.setRestart i { r with pc := .closing } with gens := s.gens.set s.cur true }
    else none
  | .close => if r.pc = .closing then some (s.setRestart i { r with pc := .sleeping }) else none
  | .wake =>
    if r.pc = .sleeping then
      if s.parentDone then some { s.setRestart i { r with pc := .returned } with restartMutex := false }
      else some (s.setRestart i { r with pc := .resetting })
    else none
  | .reset =>
    if r.pc = .resetting then
      some { s.setRestart i { r with pc := .storingPool } with gens := s.gens ++ [s.parentDone], conn := none }
    else none
  | .storePool =>
    if r.pc = .storingPool then some { s.setRestart i { r with pc := .storingLoad } with poolConnections := 0 }
    else none
  | .storeLoad =>
    if r.pc = .storingLoad then some { s.setRestart i { r with pc := .draining } with loadConnections := 0 }
    else none
  | .drain =>
    if r.pc = .draining then
      match s.controlFlow.tryRecv with
      | some (_, ch) => some { s with controlFlow := ch }
      | none => some (s.setRestart i { r with pc := .starting })
    else none
  | .start =>
    if r.pc = .starting then
      some { s.setRestart i { r with pc := .returned } with
        dialers := s.dialers ++ [⟨s.cur, .selecting⟩]
        restartMutex := false }
    else none

def tunnelStep (s : State) (i : Nat) (t : TunnelPc) : TunnelEvent → Option State
  | .dial ok =>
    if t = .dialing then
      if ok then some { s with tunnels := s.tunnels.set i .counted, poolConnections := s.poolConnections + 1 }
      else some { s with tunnels := s.tunnels.set i .returned }
    else none
  | .received =>
    if t = .counted then
      some { s with tunnels := s.tunnels.set i .returned, poolConnections := s.poolConnections - 1 }
    else none

def step (cfg : PoolConfig) (s : State) : Action → Option State
  | .shutdown => some { s with parentDone := true, gens := s.gens.map fun _ => true }
  | .dialer i e => s.dialers[i]?.bind (dialerStep s i · e)
  | .reader i e => s.handlers[i]?.bind (readerStep s i · e)
  | .main i e => s.handlers[i]?.bind (mainStep s i · e)
  | .maintainer i e => s.maintainers[i]?.bind (maintainerStep cfg s i · e)
  | .restart i e => s.restarts[i]?.bind (restartStep s i · e)
  | .tunnel i e => s.tunnels[i]?.bind (tunnelStep s i · e)

end ArangeTun.Client.Runs
