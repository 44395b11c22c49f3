import ArangeTun.Go.Str

/-!
# The exit node

`RunServer` of internal/wireguard/server.go.
-/

namespace ArangeTun.WireGuard

open Go

inductive NetRule
  | masquerade (subnet egress : Str)
  | forwardIn (ifname : Str)
  | forwardOut (ifname : Str)
  deriving DecidableEq

structure Net where
  links : List Str
  rules : List NetRule
  deriving DecidableEq

inductive Fatal
  | noIp | noIptables | address | noEgress | create | configure | setAddress | up | nat
  deriving DecidableEq

/-- The outcomes, with what `subnetOf` and `defaultRouteInterface` give, the latter empty if there is none. -/
structure ServerSteps where
  ip : Bool
  iptables : Bool
  subnet : Option Str
  defaultRoute : Str
  delete : Bool
  create : Bool
  configure : Bool
  setAddress : Bool
  up : Bool
  nat : Bool
  forwardIn : Bool
  forwardOut : Bool
  deriving DecidableEq

def ifaceName (port : Int) : Str := lit "arwg" ++ itoa port

def Net.deleteLink (n : Net) (ifname : Str) : Net := { n with links := n.links.filter (· ≠ ifname) }

def teardown (subnet egress ifname : Str) (n : Net) : Net :=
  { n with rules := ((n.rules.erase (.masquerade subnet egress)).erase (.forwardIn ifname)).erase (.forwardOut ifname)
    : Net }.deleteLink ifname

def addRule (done : Bool) (rule : NetRule) (n : Net) : Net :=
  if done then { n with rules := rule :: n.rules } else n

def egressOf (egress : Str) (o : ServerSteps) : Str :=
  if trimSpace egress = [] then o.defaultRoute else trimSpace egress

def runCreated (subnet egress ifname : Str) (o : ServerSteps) (n : Net) : Net × Option Fatal :=
  -- The calls of `teardown` behind these calls of `Fatalf` are never reached.
  if o.configure = false then (n, some .configure)
  else if o.setAddress = false then (n, some .setAddress)
  else if o.up = false then (n, some .up)
  else if o.nat = false then (n, some .nat)
  else
    let n := addRule o.forwardIn (.forwardIn ifname) { n with rules := .masquerade subnet egress :: n.rules }
    (teardown subnet egress ifname (addRule o.forwardOut (.forwardOut ifname) n), none)

/-- What is left of the machine when the function has returned or the process has ended. -/
def runServer (listenPort : Int) (egress : Str) (o : ServerSteps) (n : Net) : Net × Option Fatal :=
  let ifname := ifaceName listenPort
  if o.ip = false then (n, some .noIp)
  else if o.iptables = false then (n, some .noIptables)
  else
    match o.subnet with
    | none => (n, some .address)
    | some subnet =>
      if egressOf egress o = [] then (n, some .noEgress)
      else
        let n := if o.delete then n.deleteLink ifname else n
        if o.create = false ∨ ifname ∈ n.links then (n, some .create)
        else runCreated subnet (egressOf egress o) ifname o { n with links := ifname :: n.links }

def Creates (listenPort : Int) (egress : Str) (o : ServerSteps) (n : Net) : Prop :=
  (o.ip = true ∧ o.iptables = true ∧ o.subnet.isSome ∧ egressOf egress o ≠ []) ∧
    o.create = true ∧ (o.delete = true ∨ ifaceName listenPort ∉ n.links)

def LeavesNothing (listenPort : Int) (egress : Str) (o : ServerSteps) (n : Net) : Prop :=
  (Creates listenPort egress o n → ifaceName listenPort ∉ (runServer listenPort egress o n).1.links) ∧
    ∀ r, (runServer listenPort egress o n).1.rules.count r ≤ n.rules.count r

variable (listenPort : Int) (egress : Str) (o : ServerSteps) (n : Net)

theorem runServer_cases :
    (¬ Creates listenPort egress o n ∧ (runServer listenPort egress o n).1.rules = n.rules) ∨
    Creates listenPort egress o n ∧ ∃ subnet links, runServer listenPort egress o n =
      runCreated subnet (egressOf egress o) (ifaceName listenPort) o ⟨ifaceName listenPort :: links, n.rules⟩ := by
  unfold runServer Creates
  split
  next h => exact .inl ⟨by simp [h], rfl⟩
  split
  next h => exact .inl ⟨by simp [h], rfl⟩
  cases o.subnet with
  | none => exact .inl ⟨by simp, rfl⟩
  | some subnet =>
    dsimp only
    split
    next h => exact .inl ⟨by simp [h], rfl⟩
    -- The stale interface is gone, unless it could not be deleted.
    obtain ⟨m, hm, hrules, hlinks⟩ : ∃ m, (if o.delete then n.deleteLink (ifaceName listenPort) else n) = m ∧
        m.rules = n.rules ∧ (ifaceName listenPort ∉ m.links ↔ o.delete = true ∨ ifaceName listenPort ∉ n.links) := by
      cases o.delete <;> simp [Net.deleteLink]
    rw [hm, ← hlinks]
    split
    next h => exact .inl ⟨fun hc => h.elim (fun h => Bool.false_ne_true (h.symm.trans hc.2.1)) hc.2.2, hrules⟩
    next h => exact .inr ⟨by simp_all, subnet, m.links, by rw [← hrules]⟩

theorem count_addRule (done : Bool) (rule r : NetRule) (n : Net) :
    (addRule done rule n).rules.count r ≤ n.rules.count r + if rule == r then 1 else 0 := by
  cases done with
  | true => exact List.count_cons.le
  | false => exact Nat.le_add_right ..

theorem count_runCreated (o : ServerSteps) (n : Net) (subnet egress ifname : Str) (r : NetRule) :
    (runCreated subnet egress ifname o n).1.rules.count r ≤ n.rules.count r := by
  unfold runCreated
  repeat' split
  all_goals try exact le_rfl
  have hout := count_addRule o.forwardOut (.forwardOut ifname) r
    (addRule o.forwardIn (.forwardIn ifname) { n with rules := .masquerade subnet egress :: n.rules })
  have hin := count_addRule o.forwardIn (.forwardIn ifname) r { n with rules := .masquerade subnet egress :: n.rules }
  dsimp only [teardown, Net.deleteLink] at hin ⊢
  rw [List.count_cons] at hin
  rw [List.count_erase, List.count_erase, List.count_erase]
  omega

theorem leavesNothing_iff : LeavesNothing listenPort egress o n ↔
    (Creates listenPort egress o n → o.configure = true ∧ o.setAddress = true ∧ o.up = true ∧ o.nat = true) := by
  unfold LeavesNothing
  obtain ⟨hnot, hrules⟩ | ⟨hcreates, subnet, links, hrun⟩ := runServer_cases listenPort egress o n
  · exact iff_of_true ⟨fun h => absurd h hnot, fun r => (congrArg (List.count r) hrules).le⟩ fun h => absurd h hnot
  · rw [hrun]
    simp only [hcreates, forall_const]
    refine ⟨fun h => ?_, fun h => ⟨?_, count_runCreated o _ _ _ _⟩⟩
    · by_contra hfail
      refine h.1 ?_
      unfold runCreated
      repeat' split
      all_goals first | exact List.mem_cons_self | simp_all
    · unfold runCreated
      simp [h, teardown, Net.deleteLink]

def unconfigured : ServerSteps :=
  ⟨true, true, some (lit "10.66.66.0/24"), [], false, true, false, true, true, true, true, true⟩

theorem interface_left : Creates 51820 (lit "eth0") unconfigured ⟨[], []⟩ ∧
    runServer 51820 (lit "eth0") unconfigured ⟨[], []⟩ = (⟨[ifaceName 51820], []⟩, some .configure) := by
  refine ⟨⟨?_, rfl, .inr List.not_mem_nil⟩, ?_⟩ <;> decide +kernel

end ArangeTun.WireGuard
