import ArangeTun.Cmd.Accepted

/-! # What a file can do to a running tunnel -/

namespace ArangeTun.Cmd

open Go Transition

variable {ρ : Type} {env : Env ρ} {contents : Str → Prop} {cfg raw m m' : Config ρ} {s s' : State ρ}

def Holds (contents : Str → Prop) : State ρ → Action → Prop
  | _, .edit (some f) => contents f.body
  | _, _ => True

instance [DecidablePred contents] (s : State ρ) (a : Action) : Decidable (Holds contents s a) := by
  unfold Holds
  split <;> infer_instance

/-- A tunnel of an engine that can start from its configuration runs and is watched, and what else was started from a
configuration like that. -/
structure Up (env : Env ρ) (s : State ρ) : Prop where
  watching : s.pc = .starting ∨ s.pc = .polling
  dispatched : s.dispatched = true
  starts : Starts env s.current
  engines : ∀ p ∈ s.engines, Starts env p.2 ∧ runEngine p.2 = .ok p.1

/-- The process has not exited, the configuration it runs has a usable role, and so has the one for which it stops the
tunnel. -/
structure Kept (s : State ρ) : Prop where
  alive : ∀ x, s.pc ≠ .exited x
  current : UsableRole s.current
  replacement : ∀ next, s.pc = .stopping (some next) ∨ s.pc = .settling next → UsableRole next

def Meaning (env : Env ρ) (contents : Str → Prop) (m : Config ρ) : Prop :=
  ∃ body raw, contents body ∧ env.decode body = some raw ∧ m = raw.withDefaults env

/-- Every one of the contents that is TOML passes the checks and has an engine that can start from it, and the web port of
a configuration that another one replaces has at most eight digits. -/
structure Harmless (env : Env ρ) (contents : Str → Prop) (cfg : Config ρ) : Prop where
  accepted : ∀ m, Meaning env contents m → Accepted env m
  starts : ∀ m, Meaning env contents m → Starts env m
  webPort : ∀ m m', m = cfg ∨ Meaning env contents m → Meaning env contents m' → m' ≠ m → WebPortFits m

theorem boot_eq_ok {file : Option File} :
    boot env file = .ok s ↔
      ∃ raw, loadConfig env file = some raw ∧ applyDefaults env raw = .ok s.current ∧
        s = { file := file, current := s.current } := by
  unfold boot
  cases loadConfig env file with
  | none => simp
  | some raw =>
    cases ha : applyDefaults env raw with
    | error f => simp [Except.map, ha]
    | ok cfg =>
      simp only [Except.map, ha, Except.ok.injEq, Option.some.injEq, exists_eq_left']
      constructor
      · rintro rfl
        exact ⟨rfl, rfl⟩
      · rintro ⟨rfl, hs⟩
        exact hs.symm

/-! ## Harmless contents -/

structure Inv (env : Env ρ) (contents : Str → Prop) (cfg : Config ρ) (s : State ρ) : Prop where
  alive : ∀ x, s.pc ≠ .exited x
  file : ∀ f ∈ s.file, contents f.body
  current : s.current = cfg ∨ Meaning env contents s.current
  replacement : ∀ next, s.pc = .stopping (some next) ∨ s.pc = .settling next →
    Meaning env contents next ∧ next ≠ s.current
  engines : ∀ p ∈ s.engines, Starts env p.2 ∧ runEngine p.2 = .ok p.1

theorem meaning_of_loadConfig {file : Option File} (hfile : ∀ f ∈ file, contents f.body)
    (h : loadConfig env file = some raw) : Meaning env contents (raw.withDefaults env) := by
  obtain ⟨f, rfl, hd⟩ := Option.bind_eq_some_iff.mp h
  exact ⟨f.body, raw, hfile f rfl, hd, rfl⟩

theorem Inv.watch {pc : Pc ρ} {last : Option Fingerprint} (hi : Inv env contents cfg s)
    (hpc : pc = .polling ∨ pc = .loading ∨ pc = .stopping none ∨ pc = .returned) :
    Inv env contents cfg { s with pc := pc, last := last } := by
  refine ⟨?_, hi.file, hi.current, ?_, hi.engines⟩
  · intro x
    rcases hpc with rfl | rfl | rfl | rfl <;> simp
  · intro next
    rcases hpc with rfl | rfl | rfl | rfl <;> simp

theorem Inv.stat (hi : Inv env contents cfg s) (hs : s.stat = some s') : Inv env contents cfg s' := by
  unfold State.stat at hs
  split at hs
  · cases hs
    exact hi.watch (.inl rfl)
  · split at hs
    · cases hs
      exact hi
    · split at hs <;> cases hs
      · exact hi
      · exact hi.watch (.inr (.inl rfl))
  · cases hs

theorem Inv.stop (hi : Inv env contents cfg s) (hs : s.stop = some s') : Inv env contents cfg s' := by
  unfold State.stop at hs
  split at hs
  next next hpc =>
    split at hs
    · cases next with
      | none =>
        cases hs
        exact hi.watch (.inr (.inr (.inr rfl)))
      | some next =>
        cases hs
        refine ⟨by simp, hi.file, hi.current, ?_, hi.engines⟩
        rintro n (hn | hn)
        · cases hn
        · cases hn
          exact hi.replacement next (.inl hpc)
    · cases hs
  · cases hs

theorem Inv.settle (hh : Harmless env contents cfg) (hi : Inv env contents cfg s) (hs : s.settle = some s') :
    Inv env contents cfg s' := by
  unfold State.settle at hs
  split at hs
  next next hpc =>
    obtain ⟨hm, hne⟩ := hi.replacement next (.inr hpc)
    cases hports : portsInUse s.current with
    | none => exact absurd (hh.webPort _ _ hi.current hm hne) (portsInUse_eq_none.mp hports)
    | some addrs =>
      simp only [hports, Option.some.injEq] at hs
      cases hs
      exact ⟨by simp, hi.file, .inr hm, by simp, hi.engines⟩
  · cases hs

theorem Inv.starts (hh : Harmless env contents cfg) (hcfg : Starts env cfg) (hi : Inv env contents cfg s) :
    Starts env s.current := by
  obtain hc | hc := hi.current
  · rwa [hc]
  · exact hh.starts _ hc

theorem Inv.dispatch (hh : Harmless env contents cfg) (hcfg : Starts env cfg) (hi : Inv env contents cfg s)
    (hs : s.dispatch = some s') : Inv env contents cfg s' := by
  have hstarts := hi.starts hh hcfg
  obtain ⟨e, he⟩ := runEngine_eq_ok.mpr hstarts.usable
  unfold State.dispatch at hs
  split at hs
  · simp only [he, Option.some.injEq] at hs
    cases hs
    refine ⟨hi.alive, hi.file, hi.current, hi.replacement, ?_⟩
    intro p hp
    rcases List.mem_append.mp hp with hp | hp
    · exact hi.engines p hp
    · rw [List.mem_singleton.mp hp]
      exact ⟨hstarts, he⟩
  · cases hs

theorem Inv.engineExit {i : Nat} (hi : Inv env contents cfg s) : s.engineExit env i = none := by
  unfold State.engineExit
  split
  · cases he : s.engines[i]? with
    | none => rfl
    | some p =>
      obtain ⟨hstarts, hrun⟩ := hi.engines p (List.mem_of_getElem? he)
      simp [hstarts.exit_eq_none hrun]
  · rfl

theorem Inv.kept (hh : Harmless env contents cfg) (hcfg : Starts env cfg) (hi : Inv env contents cfg s) : Kept s :=
  ⟨hi.alive, (hi.starts hh hcfg).usable, fun next hnext => (hh.starts _ (hi.replacement next hnext).1).usable⟩

variable [DecidableEq ρ]

theorem Inv.load (hh : Harmless env contents cfg) (hi : Inv env contents cfg s) (hs : s.load env = some s') :
    Inv env contents cfg s' := by
  unfold State.load at hs
  split at hs
  next hpc =>
    cases hload : loadConfig env s.file with
    | none =>
      simp only [hload, Option.some.injEq] at hs
      cases hs
      exact hi.watch (.inl rfl)
    | some raw =>
      have hm := meaning_of_loadConfig hi.file hload
      simp only [hload, applyDefaults_eq_ok.mpr ⟨hh.accepted _ hm, rfl⟩] at hs
      split at hs
      · cases hs
        exact hi.watch (.inl rfl)
      · next hne =>
          cases hs
          refine ⟨by simp, hi.file, hi.current, ?_, hi.engines⟩
          rintro next (hnext | hnext)
          · cases hnext
            exact ⟨hm, Ne.symm hne⟩
          · cases hnext
  · cases hs

theorem Inv.step {a : Action} (hh : Harmless env contents cfg) (hcfg : Starts env cfg)
    (hi : Inv env contents cfg s) (ha : Holds contents s a) (hs : Cmd.step env s a = some s') :
    Inv env contents cfg s' := by
  cases a with
  | edit file =>
    cases hs
    refine ⟨hi.alive, ?_, hi.current, hi.replacement, hi.engines⟩
    rintro f rfl
    exact ha
  | stat => exact hi.stat hs
  | load => exact hi.load hh hs
  | ctxDone =>
    simp only [Cmd.step, State.ctxDone] at hs
    split at hs
    · cases hs
      exact hi.watch (.inr (.inr (.inl rfl)))
    · cases hs
  | stop => exact hi.stop hs
  | settle => exact hi.settle hh hs
  | dispatch => exact hi.dispatch hh hcfg hs
  | engineExit i =>
    rw [Cmd.step, hi.engineExit] at hs
    cases hs

def savedFile : Str := lit "[server]\nbind_addr = \"0.0.0.0:3080\"\ntransport = \"tcp\"\n"

def editedFile : Str := savedFile ++ lit "ports = [\"443\"]\n"

def tcpServer : Config Unit := { server := { bindAddr := lit "0.0.0.0:3080", transport := .tcp }, rest := () }

def onPorts (ports : List Str) : Config Unit := { tcpServer with server := { tcpServer.server with ports := some ports } }

def linuxRoot : Env Unit where
  goos := lit "linux"
  euid := 0
  parseLevel level := level = lit "info"
  parseURL _ := none
  resolveTCPAddr _ := true
  interfaceByName _ := true
  decode body :=
    if body = [] then some { rest := () }
    else if body = savedFile then some tcpServer
    else if body = editedFile then some (onPorts [lit "443"])
    else if body = lit "ports" then some (onPorts [lit "abc"])
    else none
  listens _ := true
  memory := 2 ^ 30

def running : State Unit where
  pc := .polling
  file := some ⟨savedFile, 1⟩
  last := some ⟨savedFile.length, 1⟩
  current := tcpServer.withDefaults linuxRoot
  dispatched := true
  engines := [(.server, tcpServer.withDefaults linuxRoot)]

theorem tcpServes_onPorts {c : ServerConfig} (hc : c = tcpServer.server.withDefaults linuxRoot ∨
    c = (onPorts [lit "443"]).server.withDefaults linuxRoot) : TcpServes linuxRoot c := by
  rcases hc with rfl | rfl
  · exact ⟨.inl rfl, by decide +kernel, rfl, by decide +kernel, List.forall_mem_nil _, rfl⟩
  · refine ⟨.inl rfl, by decide +kernel, rfl, by decide +kernel, List.forall_mem_singleton.mpr ?_, rfl⟩
    exact ⟨[⟨lit ":443", lit "443"⟩], by decide +kernel, fun _ _ => rfl⟩

theorem running_up : Up linuxRoot running := by
  have hengine : runEngine running.current = .ok .server := by decide +kernel
  have hstarts : Starts linuxRoot running.current := by
    rw [Starts, hengine]
    exact tcpServes_onPorts (.inl rfl)
  refine ⟨.inr rfl, rfl, hstarts, ?_⟩
  intro p hp
  rw [List.mem_singleton.mp hp]
  exact ⟨hstarts, hengine⟩

end ArangeTun.Cmd
