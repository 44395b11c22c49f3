import ArangeTun.Go.Chan
import ArangeTun.Transition.Run
import ArangeTun.Wire.Model

/-!
# The client's pool

`poolMaintainer` and `channelHandler` of internal/client/transport/tcp.go, with poolload.go.
-/

namespace ArangeTun.Client

open Go Wire Transition

/-- A pool size that a client can have: cmd/defaults.go replaces any that is not positive. -/
structure PoolConfig where
  connPoolSize : Int
  nonneg : 0 ≤ connPoolSize
  aggressivePool : Bool

def applyDefaults (connectionPool : Int) (aggressivePool : Bool) : PoolConfig :=
  ⟨if connectionPool ≤ 0 then 8 else connectionPool, by split <;> omega, aggressivePool⟩

/-- The product `configuredSize * poolGrowthLimit` is that of 64-bit integers. -/
def poolCanGrow (poolSize configuredSize : Int) : Bool :=
  if configuredSize ≤ 0 then false else decide (poolSize < (configuredSize * 4).bmod (2 ^ 64))

def wantsMore (mbps liveConns poolSize configuredSize : Int) : Bool :=
  if mbps ≤ 0 ∨ liveConns ≤ 0 then false
  else if poolCanGrow poolSize configuredSize = false then false
  else decide (12 ≤ mbps.tdiv liveConns)

structure Factors where
  a : Int
  b : Int
  x : Int
  y4 : Int

def factors (aggressivePool : Bool) : Factors := if aggressivePool then ⟨1, 2, 0, 3⟩ else ⟨4, 5, 3, 16⟩

def tenth (n : Int32) : Int := (n.toInt + 9).tdiv 10

def grows (f : Factors) (loadConnections poolConnectionsAvg : Int) : Bool :=
  decide (poolConnectionsAvg * f.b < loadConnections + f.a)

def shrinks (f : Factors) (loadConnections poolConnectionsAvg : Int) : Bool :=
  decide (4 * (loadConnections + f.x) < poolConnectionsAvg * f.y4)

inductive Verdict
  | grow
  | shrink
  | keep
  deriving DecidableEq

/-- A tick of `tickerLoad`; `room` and `more` are what the loop asks beside the two readings. -/
def adjust (cfg : PoolConfig) (newPoolSize : Int) (load sum : Int32) (room more : Bool) : Verdict :=
  let f := factors cfg.aggressivePool
  if (grows f (tenth load) (tenth sum) ∧ room) ∨ more then .grow
  else if shrinks f (tenth load) (tenth sum) ∧ cfg.connPoolSize < newPoolSize then .shrink
  else .keep

def verdict (cfg : PoolConfig) (newPoolSize : Int) (load sum : Int32) (mbps : Int) : Verdict :=
  adjust cfg newPoolSize load sum (poolCanGrow newPoolSize cfg.connPoolSize)
    (wantsMore mbps (tenth sum) newPoolSize cfg.connPoolSize)

/-- `newPoolSize` is a variable of `poolMaintainer` that exists once the pool is filled. -/
inductive MaintainerPc
  | filling (i : Nat)
  | running (newPoolSize : Int)
  | pushing (newPoolSize : Int)
  | returned
  deriving DecidableEq

/-- `dialers` counts the calls of `tunnelDialer`, and `handled` the requests of the server. -/
structure Pool where
  maintainer : MaintainerPc
  handler : Bool
  controlFlow : Chan Unit 100
  done : Bool
  dialers : Nat
  handled : Nat
  deriving DecidableEq

def Pool.initial : Pool := ⟨.filling 0, true, .make, false, 0, 0⟩

/-- The two readings that `tickLoad` takes are the counters themselves; the average is computed from
them. -/
inductive PoolAction
  | fill
  | tickLoad (loadConnections poolConnectionsSum : Int32) (mbps : Int)
  | push
  | maintainerDone
  | message (msg : UInt8) (sent : Bool)
  | handlerDone
  | cancel

def Pool.tickLoad (cfg : PoolConfig) (p : Pool) (newPoolSize : Int) (load sum : Int32) (mbps : Int) : Pool :=
  match verdict cfg newPoolSize load sum mbps with
  | .grow => { p with maintainer := .running (newPoolSize + 1), dialers := p.dialers + 1 }
  | .shrink => { p with maintainer := .pushing (newPoolSize - 1) }
  | .keep => p

def Pool.message (p : Pool) (msg : UInt8) (sent : Bool) : Pool :=
  if msg = SG_Chan then
    match p.controlFlow.tryRecv with
    | some (_, ch) => { p with controlFlow := ch, handled := p.handled + 1 }
    | none => { p with dialers := p.dialers + 1, handled := p.handled + 1 }
  else if msg = SG_HB then p
  else if msg = SG_RTT then { p with handler := sent }
  else
    -- `SG_Closed` and any other message: `Restart`, and the handler returns
    { p with handler := false }

def poolStep (cfg : PoolConfig) (p : Pool) : PoolAction → Option Pool
  | .fill =>
    match p.maintainer with
    | .filling i =>
      if (i : Int) < cfg.connPoolSize then
        some { p with maintainer := .filling (i + 1), dialers := p.dialers + 1 }
      else some { p with maintainer := .running cfg.connPoolSize }
    | _ => none
  | .tickLoad load sum mbps =>
    match p.maintainer with
    | .running newPoolSize => some (p.tickLoad cfg newPoolSize load sum mbps)
    | _ => none
  | .push =>
    match p.maintainer with
    | .pushing newPoolSize =>
      (p.controlFlow.trySend ()).map fun ch => { p with maintainer := .running newPoolSize, controlFlow := ch }
    | _ => none
  | .maintainerDone =>
    match p.maintainer, p.done with
    | .running _, true => some { p with maintainer := .returned }
    | _, _ => none
  | .message msg sent => if p.handler then some (p.message msg sent) else none
  | .handlerDone => if p.handler ∧ p.done then some { p with handler := false } else none
  | .cancel => some { p with done := true }

/-! ## The account -/

def MaintainerPc.newPoolSize : MaintainerPc → Option Int
  | .running n | .pushing n => some n
  | .filling _ | .returned => none

def Pool.tokens (p : Pool) : Nat :=
  p.controlFlow.buf.length + match p.maintainer with
    | .pushing _ => 1
    | _ => 0

structure Accounts (cfg : PoolConfig) (p : Pool) : Prop where
  filling : ∀ i, p.maintainer = .filling i →
    (i : Int) ≤ cfg.connPoolSize ∧ (p.dialers : Int) = i + p.handled + p.tokens
  balanced : ∀ n, p.maintainer.newPoolSize = some n → (p.dialers : Int) = n + p.handled + p.tokens
  bounds : ∀ n, p.maintainer.newPoolSize = some n → 0 < cfg.connPoolSize →
    cfg.connPoolSize ≤ n ∧ n ≤ 4 * cfg.connPoolSize

theorem bmod_le {n : Int} (h : 0 ≤ n) : n.bmod (2 ^ 64) ≤ n := by
  rw [Int.bmod_def]
  split <;> omega

theorem poolCanGrow_lt {poolSize configuredSize : Int} (h : poolCanGrow poolSize configuredSize = true) :
    0 < configuredSize ∧ poolSize < 4 * configuredSize := by
  unfold poolCanGrow at h
  split at h
  · cases h
  · rename_i hpos
    have hle := bmod_le (n := configuredSize * 4) (by omega)
    have hlt := of_decide_eq_true h
    omega

theorem wantsMore_canGrow {mbps liveConns poolSize configuredSize : Int}
    (h : wantsMore mbps liveConns poolSize configuredSize = true) :
    poolCanGrow poolSize configuredSize = true := by
  unfold wantsMore at h
  split at h
  · cases h
  · split at h
    · cases h
    · rename_i hcan
      simpa using hcan

section

variable {cfg : PoolConfig} {p p' : Pool}

theorem accounts_initial : Accounts cfg .initial where
  filling i hi := by
    cases hi
    exact ⟨cfg.nonneg, rfl⟩
  balanced n hn := by cases hn
  bounds n hn := by cases hn

theorem Accounts.fill {i : Nat} (h : Accounts cfg p) (hm : p.maintainer = .filling i) :
    (i : Int) < cfg.connPoolSize →
      Accounts cfg { p with maintainer := .filling (i + 1), dialers := p.dialers + 1 } := by
  intro hlt
  obtain ⟨_, heq⟩ := h.filling i hm
  simp only [Pool.tokens, hm] at heq
  refine ⟨fun j hj => ?_, fun n hn => (by cases hn), fun n hn => (by cases hn)⟩
  cases hj
  simp only [Pool.tokens]
  omega

theorem Accounts.filled {i : Nat} (h : Accounts cfg p) (hm : p.maintainer = .filling i)
    (hge : ¬ (i : Int) < cfg.connPoolSize) :
    Accounts cfg { p with maintainer := .running cfg.connPoolSize } := by
  obtain ⟨hle, heq⟩ := h.filling i hm
  simp only [Pool.tokens, hm] at heq
  refine ⟨fun j hj => (by cases hj), fun n hn => ?_, fun n hn hpos => ?_⟩
  · cases hn
    simp only [Pool.tokens]
    omega
  · cases hn
    omega

theorem canGrow_of_verdict {n : Int} {load sum : Int32} {mbps : Int} (h : verdict cfg n load sum mbps = .grow) :
    poolCanGrow n cfg.connPoolSize = true := by
  simp only [verdict, adjust] at h
  split at h
  · rename_i hgrow
    exact hgrow.elim (·.2) wantsMore_canGrow
  · split at h <;> cases h

theorem lt_of_adjust {n : Int} {load sum : Int32} {room more : Bool} (h : adjust cfg n load sum room more = .shrink) :
    cfg.connPoolSize < n := by
  simp only [adjust] at h
  split at h
  · cases h
  · split at h
    · exact (And.right ‹_›)
    · cases h

theorem Accounts.tickLoad {newPoolSize : Int} (h : Accounts cfg p) (hm : p.maintainer = .running newPoolSize)
    (load sum : Int32) (mbps : Int) : Accounts cfg (p.tickLoad cfg newPoolSize load sum mbps) := by
  have heq := h.balanced newPoolSize (by rw [hm]; rfl)
  have hbounds := h.bounds newPoolSize (by rw [hm]; rfl)
  simp only [Pool.tokens, hm] at heq
  unfold Pool.tickLoad
  split
  · rename_i hgrow
    have hlt := poolCanGrow_lt (canGrow_of_verdict hgrow)
    refine ⟨fun j hj => (by cases hj), fun n hn => ?_, fun n hn hpos => ?_⟩
    · cases hn
      simp only [Pool.tokens]
      omega
    · cases hn
      have := hbounds hpos
      omega
  · rename_i hshrink
    have hlt := lt_of_adjust hshrink
    refine ⟨fun j hj => (by cases hj), fun n hn => ?_, fun n hn hpos => ?_⟩
    · cases hn
      simp only [Pool.tokens]
      omega
    · cases hn
      have := hbounds hpos
      omega
  · exact h

theorem Accounts.push {newPoolSize : Int} {ch : Chan Unit 100} (h : Accounts cfg p)
    (hm : p.maintainer = .pushing newPoolSize) (hch : p.controlFlow.trySend () = some ch) :
    Accounts cfg { p with maintainer := .running newPoolSize, controlFlow := ch } := by
  have heq := h.balanced newPoolSize (by rw [hm]; rfl)
  have hlen : ch.buf.length = p.controlFlow.buf.length + 1 := by
    rw [(Chan.trySend_eq_some hch).2, List.length_append]
    rfl
  simp only [Pool.tokens, hm] at heq
  refine ⟨fun j hj => (by cases hj), fun n hn => ?_, fun n hn => ?_⟩
  · cases hn
    simp only [Pool.tokens]
    omega
  · cases hn
    exact h.bounds newPoolSize (by rw [hm]; rfl)

theorem Accounts.keep (h : Accounts cfg p) (hm : p'.maintainer = p.maintainer)
    (heq : (p'.dialers : Int) - p'.handled - p'.tokens = p.dialers - p.handled - p.tokens) :
    Accounts cfg p' where
  filling i hi := by
    have := h.filling i (hm ▸ hi)
    omega
  balanced n hn := by
    have := h.balanced n (hm ▸ hn)
    omega
  bounds n hn := h.bounds n (hm ▸ hn)

theorem Accounts.message (h : Accounts cfg p) (msg : UInt8) (sent : Bool) : Accounts cfg (p.message msg sent) := by
  unfold Pool.message
  split
  · split
    · rename_i ch hch
      have hlen : p.controlFlow.buf.length = ch.buf.length + 1 := by
        rw [Chan.tryRecv_eq_some hch]
        rfl
      refine h.keep rfl ?_
      simp only [Pool.tokens]
      omega
    · refine h.keep rfl ?_
      simp only [Pool.tokens]
      omega
  · split
    · exact h
    · split
      · exact h.keep rfl rfl
      · exact h.keep rfl rfl

theorem accounts_step {a : PoolAction} (h : Accounts cfg p) (hs : poolStep cfg p a = some p') :
    Accounts cfg p' := by
  cases a with
  | fill =>
    simp only [poolStep] at hs
    split at hs
    · rename_i i hm
      split at hs
      · cases hs; exact h.fill hm ‹_›
      · cases hs; exact h.filled hm ‹_›
    · cases hs
  | tickLoad load sum mbps =>
    simp only [poolStep] at hs
    split at hs
    · cases hs; exact h.tickLoad ‹_› load sum mbps
    · cases hs
  | push =>
    simp only [poolStep] at hs
    split at hs
    · obtain ⟨ch, hch, rfl⟩ := Option.map_eq_some_iff.mp hs
      exact h.push ‹_› hch
    · cases hs
  | maintainerDone =>
    simp only [poolStep] at hs
    split at hs
    · cases hs
      exact ⟨fun i hi => (by cases hi), fun n hn => (by cases hn), fun n hn => (by cases hn)⟩
    · cases hs
  | message msg sent =>
    obtain ⟨_, rfl⟩ := enabled hs
    exact h.message msg sent
  | handlerDone =>
    obtain ⟨_, rfl⟩ := enabled hs
    exact h.keep rfl rfl
  | cancel => cases hs; exact h.keep rfl rfl

end

end ArangeTun.Client
