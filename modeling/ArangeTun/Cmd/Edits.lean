import ArangeTun.Cmd.Theorems

/-! # Which edits are noticed -/

namespace ArangeTun.Cmd

open Go Transition

variable {ρ : Type} {env : Env ρ} {s s' : State ρ} {cfg : Config ρ}

def InForce (env : Env ρ) (f : File) (cfg : Config ρ) : Prop :=
  ∀ raw, env.decode f.body = some raw → applyDefaults env raw = .ok cfg

/-- A poll that finds the fingerprint it has seen last has nothing to tell. -/
def Unmissed (env : Env ρ) (s : State ρ) : Prop :=
  s.pc = .polling → ∀ f ∈ s.file, s.last = some f.fingerprint → InForce env f s.current

def TakesFrom (files : List File) : State ρ → Action → Prop
  | _, .edit (some f) => f ∈ files
  | _, _ => True

instance (files : List File) (s : State ρ) : (a : Action) → Decidable (TakesFrom files s a)
  | .edit (some f) => inferInstanceAs (Decidable (f ∈ files))
  | .edit none | .stat | .load | .ctxDone | .stop | .settle | .dispatch | .engineExit _ => isTrue trivial

/-- A file is put in place only while `awaitConfigChange` looks for one, with a new fingerprint. -/
def Watched : State ρ → Action → Prop
  | s, .edit (some f) => (s.pc = .polling ∨ s.pc = .loading) ∧ s.last ≠ some f.fingerprint
  | _, _ => True

instance [DecidableEq ρ] (s : State ρ) : (a : Action) → Decidable (Watched s a)
  | .edit (some _) => inferInstanceAs (Decidable (_ ∧ _))
  | .edit none | .stat | .load | .ctxDone | .stop | .settle | .dispatch | .engineExit _ => isTrue trivial

structure Seen (env : Env ρ) (s : State ρ) : Prop where
  starting : s.pc = .starting → ∀ f ∈ s.file, InForce env f s.current
  polling : Unmissed env s
  replacement : ∀ next, s.pc = .stopping (some next) ∨ s.pc = .settling next → ∀ f ∈ s.file, InForce env f next

theorem loadConfig_of_mem {file : Option File} {f : File} (hf : f ∈ file) : loadConfig env file = env.decode f.body := by
  rw [Option.mem_def.mp hf]
  rfl

theorem inForce_of_loadConfig {file : Option File} {raw : Config ρ} (h : loadConfig env file = some raw)
    (ha : applyDefaults env raw = .ok cfg) : ∀ f ∈ file, InForce env f cfg := by
  intro f hf raw' hraw'
  rw [loadConfig_of_mem hf, hraw'] at h
  cases h
  exact ha

theorem Seen.of_pc (h₁ : s.pc ≠ .starting) (h₂ : s.pc ≠ .polling)
    (h₃ : ∀ next, s.pc ≠ .stopping (some next) ∧ s.pc ≠ .settling next) : Seen env s :=
  ⟨fun h => absurd h h₁, fun h => absurd h h₂, fun next h => (h.elim (h₃ next).1 (h₃ next).2).elim⟩

theorem Seen.edit {file : Option File} (ha : Watched s (.edit file)) :
    Seen env { s with file := file } := by
  cases file with
  | none => exact ⟨by simp, by simp [Unmissed], by simp⟩
  | some f =>
    obtain ⟨hpc, hnew⟩ := ha
    refine ⟨fun (h : s.pc = _) => ?_, fun _ g hg hlast => ?_, fun next (h : s.pc = _ ∨ s.pc = _) => ?_⟩
    · simp [h] at hpc
    · cases hg
      exact absurd hlast hnew
    · rcases h with h | h <;> simp [h] at hpc

theorem Seen.stat (hi : Seen env s) (hs : s.stat = some s') : Seen env s' := by
  unfold State.stat at hs
  split at hs
  next hpc =>
    cases hs
    exact ⟨by simp, fun _ f hf _ => hi.starting hpc f hf, by simp⟩
  next hpc =>
    split at hs
    · cases hs
      exact hi
    · split at hs <;> cases hs
      · exact hi
      · exact .of_pc (by simp) (by simp) (by simp)
  · cases hs

theorem Seen.load [DecidableEq ρ] (hs : s.load env = some s') : Seen env s' := by
  unfold State.load at hs
  split at hs
  next hpc =>
    cases hload : loadConfig env s.file with
    | none =>
      simp only [hload, Option.some.injEq] at hs
      cases hs
      refine ⟨by simp, fun _ f hf _ raw hraw => ?_, by simp⟩
      rw [loadConfig_of_mem hf, hraw] at hload
      cases hload
    | some raw =>
      simp only [hload] at hs
      cases ha : applyDefaults env raw with
      | error f =>
        simp only [ha, Option.some.injEq] at hs
        cases hs
        exact .of_pc (by simp) (by simp) (by simp)
      | ok next =>
        have hforce := inForce_of_loadConfig hload ha
        simp only [ha] at hs
        split at hs
        next heq =>
          cases hs
          exact ⟨by simp, fun _ f hf _ => heq ▸ hforce f hf, by simp⟩
        · cases hs
          refine ⟨by simp, by simp [Unmissed], ?_⟩
          rintro n (hn | hn)
          · cases hn
            exact hforce
          · cases hn
  · cases hs

theorem Seen.stop (hi : Seen env s) (hs : s.stop = some s') : Seen env s' := by
  unfold State.stop at hs
  split at hs
  next next hpc =>
    split at hs
    · cases next with
      | none =>
        cases hs
        exact .of_pc (by simp) (by simp) (by simp)
      | some next =>
        cases hs
        refine ⟨by simp, by simp [Unmissed], ?_⟩
        rintro n (hn | hn)
        · cases hn
        · cases hn
          exact hi.replacement next (.inl hpc)
    · cases hs
  · cases hs

theorem Seen.settle (hi : Seen env s) (hs : s.settle = some s') : Seen env s' := by
  unfold State.settle at hs
  split at hs
  next next hpc =>
    split at hs <;> cases hs
    · exact .of_pc (by simp) (by simp) (by simp)
    · exact ⟨fun _ => hi.replacement next (.inr hpc), by simp [Unmissed], by simp⟩
  · cases hs

theorem Seen.dispatch (hi : Seen env s) (hs : s.dispatch = some s') : Seen env s' := by
  unfold State.dispatch at hs
  split at hs
  · split at hs <;> cases hs
    · exact .of_pc (by simp) (by simp) (by simp)
    · exact ⟨hi.starting, hi.polling, hi.replacement⟩
  · cases hs

variable [DecidableEq ρ]

theorem Seen.step {a : Action} (hi : Seen env s) (ha : Watched s a) (hs : Cmd.step env s a = some s') :
    Seen env s' := by
  cases a with
  | edit file =>
    cases hs
    exact .edit ha
  | stat => exact hi.stat hs
  | load => exact .load hs
  | ctxDone =>
    simp only [Cmd.step, State.ctxDone] at hs
    split at hs <;> cases hs
    exact .of_pc (by simp) (by simp) (by simp)
  | stop => exact hi.stop hs
  | settle => exact hi.settle hs
  | dispatch => exact hi.dispatch hs
  | engineExit i =>
    simp only [Cmd.step, State.engineExit] at hs
    split at hs
    · split at hs
      · cases hs
      · obtain ⟨x, -, rfl⟩ := Option.map_eq_some_iff.mp hs
        exact .of_pc (by simp) (by simp) (by simp)
    · cases hs

/-- No edit is missed by a process whose file is edited only while it is watched. -/
theorem unmissed_of_watched {file : Option File} {s₀ : State ρ} (hb : boot env file = .ok s₀)
    (hr : Reach (step env) Watched s₀ s) : Unmissed env s := by
  obtain ⟨raw, hload, ha, hs₀⟩ := boot_eq_ok.mp hb
  have hi : Seen env s := by
    refine hr.invariant ?_ fun s a s' hi hc hs => hi.step hc hs
    generalize s₀.current = cfg at hs₀ ha
    subst hs₀
    exact ⟨fun _ => inForce_of_loadConfig hload ha, by simp [Unmissed], by simp⟩
  exact hi.polling

/-! A server on tcp whose file names one port at first and another one later. `decode` stands for what is in the two
files. -/

def serverOn (bindAddr : Str) : Config Unit := { server := { bindAddr := bindAddr, transport := .tcp }, rest := () }

def twoFiles : Env Unit where
  goos := lit "linux"
  euid := 0
  parseLevel level := level = lit "info"
  parseURL _ := none
  resolveTCPAddr _ := true
  interfaceByName _ := true
  decode body :=
    if body = lit "1" then some (serverOn (lit ":3080"))
    else if body = lit "2" then some (serverOn (lit ":4080"))
    else none
  listens _ := true
  memory := 2 ^ 30

def first : Config Unit := (serverOn (lit ":3080")).withDefaults twoFiles

def second : Config Unit := (serverOn (lit ":4080")).withDefaults twoFiles

def booted : State Unit where
  file := some ⟨lit "1", 1⟩
  current := first

theorem boot_first : boot twoFiles (some ⟨lit "1", 1⟩) = .ok booted := by decide +kernel

/-- The tunnel is watched and runs this configuration; the file and its fingerprint are these. -/
def Watching (f : File) (cfg : Config Unit) (s : State Unit) : Prop :=
  s.pc = .polling ∧ s.file = some f ∧ s.last = some f.fingerprint ∧ s.current = cfg

instance (f : File) (cfg : Config Unit) (s : State Unit) : Decidable (Watching f cfg s) :=
  inferInstanceAs (Decidable (_ ∧ _))

theorem reach_second : ∃ s, Reach (step twoFiles) Watched booted s ∧ Watching ⟨lit "2", 2⟩ second s :=
  exists_reach [.dispatch, .stat, .edit (some ⟨lit "2", 2⟩), .stat, .load, .stop, .settle, .stat] (by decide +kernel)

/-- An edit while the file is watched is loaded, and the tunnel runs it when the file is watched again. -/
theorem edit_while_watched : ∃ s, Unmissed twoFiles s ∧ Watching ⟨lit "2", 2⟩ second s := by
  obtain ⟨s, hr, hs⟩ := reach_second
  exact ⟨s, unmissed_of_watched boot_first hr, hs⟩

theorem reach_stale :
    ∃ s, Reach (step twoFiles) (TakesFrom [⟨lit "2", 2⟩, ⟨lit "1", 3⟩]) booted s ∧ Watching ⟨lit "1", 3⟩ second s :=
  exists_reach [.dispatch, .stat, .edit (some ⟨lit "2", 2⟩), .stat, .load, .edit (some ⟨lit "1", 3⟩), .stop, .settle,
    .stat] (by decide +kernel)

/-- A second edit, made while the tunnel is being stopped for the first, is taken for the file that is running. -/
theorem edit_while_stopping_missed :
    (([⟨lit "1", 1⟩, ⟨lit "2", 2⟩, ⟨lit "1", 3⟩] : List File).map File.fingerprint).Nodup ∧
      boot twoFiles (some ⟨lit "1", 1⟩) = .ok booted ∧
      ∃ s, Reach (step twoFiles) (TakesFrom [⟨lit "2", 2⟩, ⟨lit "1", 3⟩]) booted s ∧ ¬ Unmissed twoFiles s := by
  obtain ⟨s, hr, hpc, hfile, hlast, hcurrent⟩ := reach_stale
  refine ⟨by decide +kernel, boot_first, s, hr, fun h => ?_⟩
  have hforce := h hpc ⟨lit "1", 3⟩ hfile hlast (serverOn (lit ":3080")) (by decide +kernel)
  rw [hcurrent] at hforce
  revert hforce
  decide +kernel

end ArangeTun.Cmd
