import ArangeTun.Go.Str
import ArangeTun.Transition.Run

/-!
# Backends

internal/client/transport/backendpool.go. A group is one target that names several backends.
-/

namespace ArangeTun.Backends

open Go

/-! ## Lists of backends -/

def backendSep : UInt8 := byte '|'

def splitBackends (list : Str) : List Str := ((split list backendSep).map trimSpace).filter (· ≠ [])

/-! ## A group -/

def backendMaxFailed : Int := 3

structure BackendGroup (n : Nat) where
  list : Fin n → Str
  healthy : Fin n → Bool
  fails : Fin n → Int
  next : Int

namespace BackendGroup

variable {n : Nat}

def succ (v : Int) : Int := (v + 1).bmod (2 ^ 64)

def advance (g : BackendGroup n) : BackendGroup n := { g with next := succ g.next }

/-- The index `g.next % n`, when it is one. The remainder has the sign of `g.next`. -/
def cursor (g : BackendGroup n) : Option (Fin n) :=
  let idx := g.next.tmod n
  if h : 0 ≤ idx ∧ idx < n then some ⟨idx.toNat, by omega⟩ else none

/-- The loop of `pick` with `i` turns left, and the backend it falls back to. -/
def scan : Nat → BackendGroup n → Option (Fin n × BackendGroup n)
  | 0, g => g.cursor.map fun idx => (idx, g.advance)
  | i + 1, g =>
    match g.cursor with
    | none => none
    | some idx => if g.healthy idx then some (idx, g.advance) else scan i g.advance

def pick (g : BackendGroup n) : Option (Str × BackendGroup n) :=
  if n = 0 then some ([], g) else (scan n g).map fun r => (g.list r.1, r.2)

def probe (g : BackendGroup n) (i : Fin n) (ok : Bool) : BackendGroup n :=
  if ok then
    { g with healthy := Function.update g.healthy i true, fails := Function.update g.fails i 0 }
  else
    let fails := succ (g.fails i)
    let g := { g with fails := Function.update g.fails i fails }
    if fails ≥ backendMaxFailed then { g with healthy := Function.update g.healthy i false } else g

end BackendGroup

inductive Act (n : Nat)
  | pick
  | probe (i : Fin n) (ok : Bool)
  deriving DecidableEq

structure State (n : Nat) where
  group : BackendGroup n
  picked : List Str
  probes : Fin n → List Bool

variable {n : Nat}

def step (s : State n) : Act n → Option (State n)
  | .pick => s.group.pick.map fun r => { s with group := r.2, picked := r.1 :: s.picked }
  | .probe i ok =>
    some { s with group := s.group.probe i ok, probes := Function.update s.probes i (ok :: s.probes i) }

def opened (list : Fin n → Str) : State n := ⟨⟨list, fun _ => true, fun _ => 0, 0⟩, [], fun _ => []⟩

end ArangeTun.Backends
