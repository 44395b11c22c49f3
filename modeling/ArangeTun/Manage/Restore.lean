import ArangeTun.Metrics.Collector

/-!
# Restoring the traffic history

`Restore` of internal/manage/backup.go beside the process of a tunnel, which goes on writing its metrics file until it
has been stopped.
-/

namespace ArangeTun.Manage.Restore

open Transition Metrics Option Traffic

inductive Entry
  | metrics (totals : Traffic)
  | toml
  | other
  deriving DecidableEq

inductive Pc
  | extracting
  -- before `StartService`
  | starting
  -- before `RestartService`
  | restarting
  -- in `RestartService`
  | replacing
  -- `res.Started++`
  | started
  -- `res.Failed++`
  | failed
  -- no config file has been seen
  | skipped
  deriving DecidableEq

/-- A process of the tunnel: where `Restore` was when it began, and whether it ran when the metrics were extracted. -/
structure Process where
  base : Traffic
  live : Traffic := 0
  born : Pc
  old : Bool := false
  deriving DecidableEq

/-- `restored` has the totals of the metrics file that was extracted last, and `since` what has been counted after
that. -/
structure State where
  entries : List Entry
  sawConfig : Bool := false
  pc : Pc := .extracting
  file : Option Traffic
  proc : Option Process
  restored : Option Traffic := none
  since : Traffic := 0
  deriving DecidableEq

inductive Action
  | extract
  -- the end of the archive, with the units written
  | register
  | unitFailed
  | startService (ok : Bool)
  | restartService
  -- `RestartService` returns
  | restarted (ok : Bool)
  -- the process
  | addBytes (n : Nat × Nat)
  | write
  | exit
  -- systemd starts the process
  | spawn
  deriving DecidableEq

namespace State

variable (s : State)

def spawned : State := { s with proc := some { base := Persist.baseline s.file, born := s.pc } }

def extract : Option State :=
  match s.pc, s.entries with
  | .extracting, .metrics totals :: entries =>
    some { s with entries := entries, file := some totals, restored := some totals, since := 0,
                  proc := s.proc.map fun p => { p with old := true } }
  | .extracting, .toml :: entries => some { s with entries := entries, sawConfig := true }
  | .extracting, .other :: entries => some { s with entries := entries }
  | _, _ => none

def register : Option State :=
  match s.pc, s.entries with
  | .extracting, [] => some { s with pc := if s.sawConfig then .starting else .skipped }
  | _, _ => none

/-- `systemctl enable --now` does nothing to a process that is running. -/
def startService (ok : Bool) : Option State :=
  match s.pc with
  | .starting =>
    if ok then
      match s.proc with
      | some _ => some { s with pc := .restarting }
      | none => some { s.spawned with pc := .restarting }
    else some { s with pc := .failed }
  | _ => none

def restarted (ok : Bool) : Option State :=
  match s.pc, s.proc with
  | .replacing, some p =>
    if ok then if p.born = .replacing then some { s with pc := .started } else none
    else some { s with pc := .failed }
  | .replacing, none => if ok then none else some { s with pc := .failed }
  | _, _ => none

end State

def step (s : State) : Action → Option State
  | .extract => s.extract
  | .register => s.register
  | .unitFailed => if s.pc = .starting then some { s with pc := .failed } else none
  | .startService ok => s.startService ok
  | .restartService => if s.pc = .restarting then some { s with pc := .replacing } else none
  | .restarted ok => s.restarted ok
  | .addBytes n =>
    s.proc.map fun p => { s with proc := some { p with live := p.live.addBytes n }, since := s.since.addBytes n }
  | .write => s.proc.map fun p => { s with file := some (p.base + p.live) }
  | .exit => s.proc.map fun _ => { s with proc := none }
  | .spawn => if s.proc = none then some s.spawned else none

/-! ## The baseline of the new process -/

/-- These are the totals, with nothing added but what was counted since. -/
def Carries (s : State) (totals total : Traffic) : Prop := totals ≤ total ∧ total ≤ totals + s.since

instance (s : State) (totals total : Traffic) : Decidable (Carries s totals total) :=
  inferInstanceAs (Decidable (_ ∧ _))

/-- The process that `RestartService` started counts on from the totals that were restored. -/
def HistoryRestored (s : State) : Prop :=
  s.pc = .started → ∀ totals ∈ s.restored, ∀ p ∈ s.proc, p.born = .replacing → Carries s totals p.base

instance (s : State) : Decidable (HistoryRestored s) := by
  unfold HistoryRestored
  infer_instance

/-- A process that was running when the metrics file was extracted does not write it any more. -/
def OldIsQuiet : State → Action → Prop
  | s, .write => ∀ p ∈ s.proc, p.old = false
  | _, _ => True

instance (s : State) (a : Action) : Decidable (OldIsQuiet s a) := by
  unfold OldIsQuiet
  split <;> infer_instance

structure Kept (s : State) : Prop where
  file : ∀ totals ∈ s.restored, Carries s totals (Persist.baseline s.file)
  proc : ∀ totals ∈ s.restored, ∀ p ∈ s.proc, p.old = false →
    totals ≤ p.base ∧ p.base + p.live ≤ totals + s.since
  extracting : s.pc = .extracting → ∀ p ∈ s.proc, p.born = .extracting
  young : ∀ p ∈ s.proc, p.born ≠ .extracting → p.old = false

variable {s s' : State} {a : Action}

theorem Kept.advance {pc : Pc} (hi : Kept s) (hpc : pc ≠ .extracting) : Kept { s with pc := pc } :=
  ⟨hi.file, hi.proc, fun h => absurd h hpc, hi.young⟩

theorem Kept.spawned (hi : Kept s) : Kept s.spawned := by
  refine ⟨hi.file, ?_, ?_, ?_⟩
  · rintro totals ht p ⟨⟩ -
    obtain ⟨h₁, h₂⟩ := hi.file totals ht
    refine ⟨h₁, ?_⟩
    simp only [le_iff, add_bytesIn, add_bytesOut, zero_bytesIn,
      zero_bytesOut] at h₂ ⊢
    exact h₂
  · rintro h p ⟨⟩
    exact h
  · rintro p ⟨⟩ -
    rfl

theorem Kept.extract (hi : Kept s) (hs : s.extract = some s') : Kept s' := by
  unfold State.extract at hs
  split at hs
  next totals entries hpc _ =>
    cases hs
    refine ⟨?_, ?_, ?_, ?_⟩
    · rintro _ ⟨⟩
      simp [Carries, le_iff, Persist.baseline]
    · intro _ _ p hp hold
      obtain ⟨p', -, rfl⟩ := map_eq_some_iff.mp hp
      cases hold
    · intro _ p hp
      obtain ⟨p', hp', rfl⟩ := map_eq_some_iff.mp hp
      exact hi.extracting hpc p' hp'
    · intro p hp hborn
      obtain ⟨p', hp', rfl⟩ := map_eq_some_iff.mp hp
      exact absurd (hi.extracting hpc p' hp') hborn
  · cases hs
    exact ⟨hi.file, hi.proc, hi.extracting, hi.young⟩
  · cases hs
    exact ⟨hi.file, hi.proc, hi.extracting, hi.young⟩
  · cases hs

theorem Kept.startService {ok : Bool} (hi : Kept s) (hs : s.startService ok = some s') : Kept s' := by
  unfold State.startService at hs
  split at hs
  next hpc =>
    split at hs
    · split at hs <;> cases hs
      · exact hi.advance (by simp)
      · exact hi.spawned.advance (by simp)
    · cases hs
      exact hi.advance (by simp)
  · cases hs

theorem Kept.restarted {ok : Bool} (hi : Kept s) (hs : s.restarted ok = some s') : Kept s' := by
  unfold State.restarted at hs
  split at hs
  · split at hs
    · split at hs <;> cases hs
      exact hi.advance (by simp)
    · cases hs
      exact hi.advance (by simp)
  · split at hs <;> cases hs
    exact hi.advance (by simp)
  · cases hs

theorem Kept.addBytes {n : Nat × Nat} {p : Process} (hi : Kept s) (hp : s.proc = some p) :
    Kept { s with proc := some { p with live := p.live.addBytes n }, since := s.since.addBytes n } := by
  refine ⟨fun totals ht => ?_, ?_, ?_, ?_⟩
  · have := hi.file totals ht
    simp only [Carries, addBytes_eq, le_iff, add_bytesIn, add_bytesOut] at this ⊢
    omega
  · rintro totals ht _ ⟨⟩ hold
    have := hi.proc totals ht p hp hold
    simp only [addBytes_eq, le_iff, add_bytesIn, add_bytesOut] at this ⊢
    omega
  · rintro h _ ⟨⟩
    exact hi.extracting h p hp
  · rintro _ ⟨⟩ h
    exact hi.young p hp h

theorem Kept.write {p : Process} (hi : Kept s) (hp : s.proc = some p) (hold : p.old = false) :
    Kept { s with file := some (p.base + p.live) } := by
  refine ⟨fun totals ht => ?_, hi.proc, hi.extracting, hi.young⟩
  have := hi.proc totals ht p hp hold
  simp only [Carries, Persist.baseline, getD_some, le_iff, add_bytesIn,
    add_bytesOut] at this ⊢
  omega

theorem Kept.step (hi : Kept s) (ha : OldIsQuiet s a) (hs : Restore.step s a = some s') : Kept s' := by
  cases a with
  | extract => exact hi.extract hs
  | register =>
    simp only [Restore.step, State.register] at hs
    split at hs <;> cases hs
    exact hi.advance (by split <;> simp)
  | unitFailed | restartService =>
    simp only [Restore.step] at hs
    split at hs <;> cases hs
    exact hi.advance (by simp)
  | startService ok => exact hi.startService hs
  | restarted ok => exact hi.restarted hs
  | addBytes n =>
    obtain ⟨p, hp, rfl⟩ := map_eq_some_iff.mp hs
    exact hi.addBytes hp
  | write =>
    obtain ⟨p, hp, rfl⟩ := map_eq_some_iff.mp hs
    exact hi.write hp (ha p hp)
  | exit =>
    obtain ⟨p, hp, rfl⟩ := map_eq_some_iff.mp hs
    exact ⟨hi.file, by simp, by simp, by simp⟩
  | spawn =>
    simp only [Restore.step] at hs
    split at hs <;> cases hs
    exact hi.spawned

def Begins (s : State) : Prop := s.pc = .extracting ∧ s.restored = none ∧ ∀ p ∈ s.proc, p.born = .extracting

instance (s : State) : Decidable (Begins s) := inferInstanceAs (Decidable (_ ∧ _))

theorem historyRestored_of_oldIsQuiet {s₀ : State} (hb : Begins s₀) (hr : Reach step OldIsQuiet s₀ s) :
    HistoryRestored s := by
  obtain ⟨hpc, hnone, hborn⟩ := hb
  have hi : Kept s := by
    refine hr.invariant ⟨by simp [hnone], by simp [hnone], fun _ => hborn, ?_⟩ fun s a s' hi hc hs => hi.step hc hs
    intro p hp h
    exact absurd (hborn p hp) h
  intro _ totals ht p hp hnew
  have hold := hi.young p hp (by simp [hnew])
  have := hi.proc totals ht p hp hold
  simp only [Carries, le_iff, add_bytesIn, add_bytesOut] at this ⊢
  omega

/-- A backup of a tunnel that had carried 100 bytes in and 40 out, on a machine where it does not run. -/
theorem historyRestored_stopped :
    ∃ s, HistoryRestored s ∧ s.pc = .started ∧ s.proc = some { base := ⟨103, 40⟩, born := .replacing } := by
  obtain ⟨s, hr, hs⟩ : ∃ s, Reach step OldIsQuiet
      { entries := [.toml, .metrics ⟨100, 40⟩], file := none, proc := none } s ∧
      (s.pc = .started ∧ s.proc = some { base := ⟨103, 40⟩, born := .replacing }) :=
    exists_reach [.extract, .extract, .register, .startService true, .write, .addBytes (3, 0), .restartService, .write,
      .exit, .spawn, .restarted true] (by decide)
  exact ⟨s, historyRestored_of_oldIsQuiet (by decide) hr, hs⟩

/-- The same backup, while the tunnel runs and has carried 5 bytes in and 2 out. -/
theorem final_write_overwrites_history :
    Begins { entries := [.toml, .metrics ⟨100, 40⟩], file := some ⟨5, 2⟩,
             proc := some { base := ⟨5, 2⟩, born := .extracting } } ∧
      ∃ s, Reach step Any
        { entries := [.toml, .metrics ⟨100, 40⟩], file := some ⟨5, 2⟩,
          proc := some { base := ⟨5, 2⟩, born := .extracting } } s ∧ ¬ HistoryRestored s := by
  have : ∃ s, Reach step Any
      { entries := [.toml, .metrics ⟨100, 40⟩], file := some ⟨5, 2⟩,
        proc := some { base := ⟨5, 2⟩, born := .extracting } } s ∧ ¬ HistoryRestored s :=
    exists_reach [.extract, .extract, .register, .startService true, .restartService, .write, .exit, .spawn,
      .restarted true] (by decide)
  exact ⟨by decide, this⟩

end ArangeTun.Manage.Restore
