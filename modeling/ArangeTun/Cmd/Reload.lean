import ArangeTun.Cmd.Config
import ArangeTun.Transition.Run

/-!
# Running from a file

`Run` of cmd/cmd.go with `awaitConfigChange` of cmd/reload.go. The file can be edited between any two steps.
-/

namespace ArangeTun.Cmd

open Go Transition

structure File where
  body : Str
  modTime : Int
  deriving DecidableEq

structure Fingerprint where
  size : Nat
  modTime : Int
  deriving DecidableEq

def File.fingerprint (f : File) : Fingerprint := ⟨f.body.length, f.modTime⟩

inductive Pc (ρ : Type)
  -- before the first `fileFingerprint` of `awaitConfigChange`
  | starting
  | polling
  -- a new fingerprint has been seen
  | loading
  -- `awaitConfigChange` has returned
  | stopping (next : Option (Config ρ))
  -- `done` is closed
  | settling (next : Config ρ)
  | returned
  | exited (x : Exit)
  deriving DecidableEq

structure State (ρ : Type) where
  pc : Pc ρ := .starting
  file : Option File
  last : Option Fingerprint := none
  current : Config ρ
  dispatched : Bool := false
  engines : List (Engine × Config ρ) := []
  deriving DecidableEq

inductive Action
  -- the file is written, replaced or removed
  | edit (file : Option File)
  | stat
  | load
  | ctxDone
  -- `cancel()` and `<-done`
  | stop
  -- `waitForPorts` and the next turn of the loop
  | settle
  | dispatch
  | engineExit (i : Nat)
  deriving DecidableEq

variable {ρ : Type} [DecidableEq ρ] (env : Env ρ)

def loadConfig (file : Option File) : Option (Config ρ) := file.bind fun f => env.decode f.body

def boot (file : Option File) : Except Fatal (State ρ) :=
  match loadConfig env file with
  | none => .error .load
  | some cfg => (applyDefaults env cfg).map fun cfg => { file := file, current := cfg }

namespace State

variable (s : State ρ)

def stat : Option (State ρ) :=
  match s.pc with
  | .starting => some { s with pc := .polling, last := s.file.map File.fingerprint }
  | .polling =>
    match s.file with
    | none => some s
    | some f =>
      if s.last = some f.fingerprint then some s
      else some { s with pc := .loading, last := some f.fingerprint }
  | _ => none

def load : Option (State ρ) :=
  match s.pc with
  | .loading =>
    match loadConfig env s.file with
    | none => some { s with pc := .polling }
    | some raw =>
      match applyDefaults env raw with
      | .error f => some { s with pc := .exited (.fatal f) }
      | .ok next =>
        if s.current = next then some { s with pc := .polling }
        else some { s with pc := .stopping (some next) }
  | _ => none

def ctxDone : Option (State ρ) :=
  match s.pc with
  | .polling => some { s with pc := .stopping none }
  | _ => none

/-- `done` is closed when `runEngine` returns, which it does only after its choice. -/
def stop : Option (State ρ) :=
  match s.pc with
  | .stopping next =>
    if s.dispatched then
      match next with
      | none => some { s with pc := .returned }
      | some next => some { s with pc := .settling next }
    else none
  | _ => none

def settle : Option (State ρ) :=
  match s.pc with
  | .settling next =>
    match portsInUse s.current with
    | none => some { s with pc := .exited .panic }
    | some _ => some { s with pc := .starting, current := next, dispatched := false }
  | _ => none

def Live : Prop := s.pc ≠ .returned ∧ ∀ x, s.pc ≠ .exited x

instance : Decidable s.Live :=
  match h : s.pc with
  | .returned => isFalse fun hl => hl.1 h
  | .exited x => isFalse fun hl => hl.2 x h
  | .starting | .polling | .loading | .stopping _ | .settling _ => isTrue (by simp [Live, h])

def dispatch : Option (State ρ) :=
  if s.Live ∧ s.dispatched = false then
    match runEngine s.current with
    | .error f => some { s with pc := .exited (.fatal f) }
    | .ok e => some { s with dispatched := true, engines := s.engines ++ [(e, s.current)] }
  else none

def engineExit (i : Nat) : Option (State ρ) :=
  if s.Live then
    match s.engines[i]? with
    | none => none
    | some (e, cfg) => (e.exit env cfg).map fun x => { s with pc := .exited x }
  else none

end State

def step (s : State ρ) : Action → Option (State ρ)
  | .edit file => some { s with file := file }
  | .stat => s.stat
  | .load => s.load env
  | .ctxDone => s.ctxDone
  | .stop => s.stop
  | .settle => s.settle
  | .dispatch => s.dispatch
  | .engineExit i => s.engineExit env i

end ArangeTun.Cmd
