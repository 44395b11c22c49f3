import ArangeTun.Go.Map
import ArangeTun.Go.Str

/-!
# The panel's configuration and its stores

config.go, server.go and handlers_security.go of internal/webui. Times are in nanoseconds.
-/

namespace ArangeTun.Panel

open Go

/-! ## internal/webui/config.go -/

structure Config where
  password : Str := []
  port : Int := 0
  bind : Str := []
  remoteToken : Str := []
  twoFA : Bool := false
  loginNotify : Bool := false
  https : Bool := false
  tlsDomain : Str := []
  tlsEmail : Str := []
  deriving DecidableEq

def webUIPort : Int := 7777

def defaultBind : Str := lit "0.0.0.0"

def minPasswordLen : Nat := 8

def Config.filled (c : Config) : Config :=
  { c with
    port := if c.port = 0 then webUIPort else c.port
    bind := if c.bind = [] then defaultBind else c.bind }

/-- `json.Unmarshal` into an empty `Config`: what is stored, and whether there was no error. -/
abbrev Unmarshal := Str → Config × Bool

def load (unmarshal : Unmarshal) (file : Option Str) : Config :=
  match file with
  | none => Config.filled {}
  | some data => (unmarshal data).1.filled

/-! ## internal/webui/server.go: `sessionStore` -/

def second : Nat := 1000000000

def minute : Nat := 60 * second

def sessionLifetime : Nat := 12 * 60 * minute

structure SessionInfo where
  expires : Nat
  created : Nat
  ip : Str
  deriving DecidableEq

abbrev Sessions := Map Str SessionInfo

namespace Sessions

variable (s : Sessions) (now : Nat)

def create (tok ip : Str) : Sessions :=
  Map.set (fun t => (s t).filter fun info => decide (now ≤ info.expires)) tok ⟨now + sessionLifetime, now, ip⟩

def valid (tok : Str) : Bool × Sessions :=
  match s tok with
  | none => (false, s)
  | some info => if info.expires < now then (false, s.delete tok) else (true, s)

def revokeOthers (tok : Str) : Sessions := fun t => if t = tok then s t else none

def destroy (tok : Str) : Sessions := s.delete tok

variable {s now}

theorem create_cases {tok ip k : Str} {info : SessionInfo} (h : s.create now tok ip k = some info) :
    k = tok ∨ k ≠ tok ∧ s k = some info := by
  obtain ⟨rfl, -⟩ | ⟨hne, h⟩ := Map.set_eq_some.mp h
  · exact .inl rfl
  · exact .inr ⟨hne, (Option.filter_eq_some_iff.mp h).1⟩

end Sessions

/-! ## internal/webui/handlers_security.go: `loginLimiter` -/

def loginMaxFails : Nat := 5

def loginBlockPeriod : Nat := 10 * minute

def loginFailTTL : Nat := 30 * minute

structure FailCount where
  n : Nat
  exp : Nat
  deriving DecidableEq

structure Limiter where
  fails : Map Str FailCount := .empty
  blockedUntil : Map Str Nat := .empty

namespace Limiter

variable (l : Limiter) (now : Nat) (ip : Str)

def blocked : Option Nat × Limiter :=
  match l.blockedUntil ip with
  | none => (none, l)
  | some t =>
    if now < t then (some (t - now), l)
    else (none, { fails := l.fails.delete ip, blockedUntil := l.blockedUntil.delete ip })

def sweepLocked : Limiter where
  fails := fun a => (l.fails a).filter fun f => decide (now ≤ f.exp)
  blockedUntil := fun a => (l.blockedUntil a).filter fun t => decide (now ≤ t)

def fail : Limiter :=
  let l := l.sweepLocked now
  let n := match l.fails ip with
    | none => 0
    | some f => if f.exp < now then 0 else f.n
  { fails := l.fails.set ip ⟨n + 1, now + loginFailTTL⟩
    blockedUntil := if loginMaxFails ≤ n + 1 then l.blockedUntil.set ip (now + loginBlockPeriod) else l.blockedUntil }

def reset : Limiter where
  fails := l.fails.delete ip
  blockedUntil := l.blockedUntil.delete ip

end Limiter

/-! ## internal/webui/handlers_security.go: `twoFAStore` -/

def twoFACodeTTL : Nat := 5 * minute

def twoFAMaxAttempts : Nat := 3

structure PendingLogin where
  code : Str
  expires : Nat
  attempts : Nat := 0
  deriving DecidableEq

abbrev TwoFAStore := Map Str PendingLogin

/-- What `verify` says: the login completes, it is gone, or the code was another and may be tried again. -/
inductive Verdict
  | ok
  | dead
  | again
  deriving DecidableEq

namespace TwoFAStore

variable (t : TwoFAStore) (now : Nat) (token : Str)

def start (code : Str) : TwoFAStore :=
  Map.set (fun k => (t k).filter fun p => decide (now ≤ p.expires)) token ⟨code, now + twoFACodeTTL, 0⟩

def verify (given : Str) : TwoFAStore × Verdict :=
  match t token with
  | none => (t.delete token, .dead)
  | some p =>
    if p.expires < now then (t.delete token, .dead)
    else if given = p.code then (t.delete token, .ok)
    else if twoFAMaxAttempts ≤ p.attempts + 1 then (t.delete token, .dead)
    else (t.set token { p with attempts := p.attempts + 1 }, .again)

def cancel : TwoFAStore := t.delete token

variable {t now token}

theorem start_cases {code k : Str} {p : PendingLogin} (h : t.start now token code k = some p) :
    (k = token ∧ p = ⟨code, now + twoFACodeTTL, 0⟩) ∨ t k = some p := by
  obtain ⟨rfl, rfl⟩ | ⟨-, h⟩ := Map.set_eq_some.mp h
  · exact .inl ⟨rfl, rfl⟩
  · exact .inr (Option.filter_eq_some_iff.mp h).1

theorem verify_cases {t' : TwoFAStore} {v : Verdict} {p : PendingLogin} {given : Str} (hp : t token = some p)
    (hv : t.verify now token given = (t', v)) :
    (v ≠ .again ∧ t' = t.delete token ∧ (v = .ok → now ≤ p.expires ∧ given = p.code)) ∨
      (v = .again ∧ p.attempts + 1 < twoFAMaxAttempts ∧ t' = t.set token { p with attempts := p.attempts + 1 }) := by
  unfold verify at hv
  rw [hp] at hv
  dsimp only at hv
  split at hv
  next =>
    cases hv
    exact .inl ⟨by decide, rfl, fun hok => by cases hok⟩
  next hexp =>
    split at hv
    next hcode =>
      cases hv
      exact .inl ⟨by decide, rfl, fun _ => ⟨Nat.le_of_not_lt hexp, hcode⟩⟩
    next =>
      split at hv
      next =>
        cases hv
        exact .inl ⟨by decide, rfl, fun hok => by cases hok⟩
      next hmore =>
        cases hv
        exact .inr ⟨rfl, Nat.lt_of_not_le hmore, rfl⟩

end TwoFAStore

structure Server where
  sessions : Sessions := .empty
  limiter : Limiter := {}
  twoFA : TwoFAStore := .empty

end ArangeTun.Panel
