import ArangeTun.Client.Runs

/-! # The count of idle pool connections -/

namespace ArangeTun.Client.Runs

open Go Wire Transition List Option

variable {cfg : PoolConfig} {s s' : State} {i : Nat}

/-- The `tunnelDialer` goroutines that have passed their increment and not yet their decrement. -/
def State.idle (s : State) : Nat := s.tunnels.countP (· = .counted)

/-- The counter is the number of idle connections, and the maintainers add up such numbers. -/
structure Counts (s : State) : Prop where
  pool : s.poolConnections = s.idle
  sums : ∀ (j : Nat) (m : Maintainer), s.maintainers[j]? = some m → 0 ≤ m.poolConnectionsSum

/-- When `Restart` stores zero, no `tunnelDialer` is between its increment and its decrement. -/
def StoresOverNone (s : State) : Action → Prop
  | .restart _ .storePool => TunnelPc.counted ∉ s.tunnels
  | _ => True

instance (s : State) (a : Action) : Decidable (StoresOverNone s a) := by
  unfold StoresOverNone
  split <;> infer_instance

theorem Counts.goTunnel (hc : Counts s) : Counts s.goTunnel :=
  ⟨by simpa [State.goTunnel, State.idle] using hc.pool, hc.sums⟩

theorem Counts.setMaintainer (hc : Counts s) (m : Maintainer) (hm : 0 ≤ m.poolConnectionsSum) :
    Counts (s.setMaintainer i m) :=
  ⟨hc.pool, forall_set hc.sums hm⟩

theorem Counts.dialer {d : Dialer} {e : DialerEvent} (hc : Counts s) (h : dialerStep s i d e = some s') :
    Counts s' := by
  cases e with
  | maintain =>
    obtain ⟨_, rfl⟩ := enabled h
    exact ⟨hc.pool, forall_concat hc.sums (by simp)⟩
  | check =>
    simp only [dialerStep] at h
    split at h <;> cases h
    exact ⟨hc.pool, hc.sums⟩
  | _ =>
    obtain ⟨_, rfl⟩ := enabled h
    exact ⟨hc.pool, hc.sums⟩

theorem Counts.reader {h : Handler} {e : ReaderEvent} (hc : Counts s) (hs : readerStep s i h e = some s') :
    Counts s' := by
  unfold readerStep at hs
  split at hs
  case h_6 =>
    split at hs
    · obtain ⟨ch, _, rfl⟩ := map_eq_some_iff.mp hs
      exact ⟨hc.pool, hc.sums⟩
    · cases hs
  all_goals
    split at hs <;> cases hs
    exact ⟨hc.pool, hc.sums⟩

theorem Counts.message {h : Handler} (hc : Counts s) (msg : UInt8) : Counts (mainMessage s i h msg) := by
  unfold mainMessage
  split
  · dsimp only
    split
    · exact ⟨hc.pool, hc.sums⟩
    · exact Counts.goTunnel ⟨hc.pool, hc.sums⟩
  split
  · exact ⟨hc.pool, hc.sums⟩
  split <;> exact ⟨hc.pool, hc.sums⟩

theorem Counts.main {h : Handler} {e : MainEvent} (hc : Counts s) (hs : mainStep s i h e = some s') : Counts s' := by
  cases e with
  | message =>
    simp only [mainStep] at hs
    split at hs
    · obtain ⟨r, _, rfl⟩ := map_eq_some_iff.mp hs
      exact hc.message r.1
    · cases hs
  | ctx =>
    obtain ⟨_, rfl⟩ := enabled hs
    exact ⟨hc.pool, hc.sums⟩
  | done =>
    simp only [mainStep] at hs
    split at hs
    · obtain ⟨_, rfl⟩ := enabled hs
      exact ⟨hc.pool, hc.sums⟩
    · cases hs
  | conn =>
    simp only [mainStep] at hs
    split at hs <;> cases hs <;> exact ⟨hc.pool, hc.sums⟩
  | send ok =>
    simp only [mainStep] at hs
    split at hs
    · cases hs
      exact ⟨hc.pool, hc.sums⟩
    · split at hs <;> cases hs <;> exact ⟨hc.pool, hc.sums⟩
    · cases hs

theorem Counts.maintainer {m : Maintainer} {e : MaintainerEvent} (hc : Counts s) (hm : s.maintainers[i]? = some m)
    (hs : maintainerStep cfg s i m e = some s') : Counts s' := by
  have hsum := hc.sums i m hm
  cases e with
  | fill =>
    simp only [maintainerStep] at hs
    split at hs
    · split at hs <;> cases hs
      · refine Counts.goTunnel ?_
        exact hc.setMaintainer _ hsum
      · exact hc.setMaintainer _ hsum
    · cases hs
  | ctx =>
    obtain ⟨_, rfl⟩ := enabled hs
    exact hc.setMaintainer _ hsum
  | done =>
    simp only [maintainerStep] at hs
    split at hs
    · obtain ⟨_, rfl⟩ := enabled hs
      exact hc.setMaintainer _ hsum
    · cases hs
  | tickPool =>
    simp only [maintainerStep] at hs
    split at hs <;> cases hs
    have hpool := hc.pool
    exact hc.setMaintainer _ (by simp only; omega)
  | tickLoad mbps =>
    have hc' : Counts { s with loadConnections := 0 } := ⟨hc.pool, hc.sums⟩
    simp only [maintainerStep] at hs
    split at hs
    · split at hs <;> cases hs
      · exact (hc'.setMaintainer _ (Int.le_refl 0)).goTunnel
      · exact hc'.setMaintainer _ (Int.le_refl 0)
      · exact hc'.setMaintainer _ (Int.le_refl 0)
    · cases hs
  | push =>
    simp only [maintainerStep] at hs
    split at hs
    · obtain ⟨ch, _, rfl⟩ := map_eq_some_iff.mp hs
      have hset := hc.setMaintainer (i := i) { m with pc := .selecting } hsum
      exact ⟨hset.pool, hset.sums⟩
    · cases hs

theorem Counts.restart {r : Restart} {e : RestartEvent} (hc : Counts s) (hstore : StoresOverNone s (.restart i e))
    (hs : restartStep s i r e = some s') : Counts s' := by
  cases e with
  | storePool =>
    obtain ⟨_, rfl⟩ := enabled hs
    refine ⟨?_, hc.sums⟩
    have hnone : s.tunnels.countP (· = .counted) = 0 := by
      refine countP_eq_zero.mpr fun t ht h => hstore ?_
      rwa [of_decide_eq_true h] at ht
    simp [State.idle, State.setRestart, hnone]
  | lock =>
    simp only [restartStep] at hs
    split at hs
    · split at hs <;> cases hs <;> exact ⟨hc.pool, hc.sums⟩
    · cases hs
  | wake =>
    simp only [restartStep] at hs
    split at hs
    · split at hs <;> cases hs <;> exact ⟨hc.pool, hc.sums⟩
    · cases hs
  | drain =>
    simp only [restartStep] at hs
    split at hs
    · split at hs <;> cases hs <;> exact ⟨hc.pool, hc.sums⟩
    · cases hs
  | _ =>
    obtain ⟨_, rfl⟩ := enabled hs
    exact ⟨hc.pool, hc.sums⟩

theorem Counts.tunnel {t : TunnelPc} {e : TunnelEvent} (hc : Counts s) (ht : s.tunnels[i]? = some t)
    (hs : tunnelStep s i t e = some s') : Counts s' := by
  have hpool := hc.pool
  cases e with
  | dial ok =>
    simp only [tunnelStep] at hs
    split at hs
    · rename_i hpc
      subst hpc
      split at hs <;> cases hs
      · have hcount := countP_set (p := (· = .counted)) (b := .counted) ht
        exact ⟨by simp [State.idle] at hpool hcount ⊢; omega, hc.sums⟩
      · have hcount := countP_set (p := (· = .counted)) (b := .returned) ht
        exact ⟨by simp [State.idle] at hpool hcount ⊢; omega, hc.sums⟩
    · cases hs
  | received =>
    obtain ⟨rfl, rfl⟩ := enabled hs
    have hcount := countP_set (p := (· = .counted)) (b := .returned) ht
    exact ⟨by simp [State.idle] at hpool hcount ⊢; omega, hc.sums⟩

theorem Counts.step {a : Action} (hc : Counts s) (hstore : StoresOverNone s a) (hs : Runs.step cfg s a = some s') :
    Counts s' := by
  cases a with
  | shutdown =>
    cases hs
    exact ⟨hc.pool, hc.sums⟩
  | dialer i e =>
    obtain ⟨d, _, h⟩ := bind_eq_some_iff.mp hs
    exact hc.dialer h
  | reader i e =>
    obtain ⟨h, _, h⟩ := bind_eq_some_iff.mp hs
    exact hc.reader h
  | main i e =>
    obtain ⟨h, _, h⟩ := bind_eq_some_iff.mp hs
    exact hc.main h
  | maintainer i e =>
    obtain ⟨m, hm, h⟩ := bind_eq_some_iff.mp hs
    exact hc.maintainer hm h
  | restart i e =>
    obtain ⟨r, _, h⟩ := bind_eq_some_iff.mp hs
    exact hc.restart hstore h
  | tunnel i e =>
    obtain ⟨t, ht, h⟩ := bind_eq_some_iff.mp hs
    exact hc.tunnel ht h

/-- Over any number of restarts the counter is the number of idle connections, as long as `Restart` never stores
its zero over one that is counted. -/
theorem counts_of_reach (h : Reach (Runs.step cfg) StoresOverNone initial s) : Counts s :=
  h.invariant ⟨rfl, by simp [initial]⟩ fun _ _ _ hc hstore hs => hc.step hstore hs

def oneConn : PoolConfig := ⟨1, by decide, false⟩

def firstRun : List Action :=
  [.dialer 0 .ctx, .dialer 0 .check, .dialer 0 (.attempt true), .dialer 0 .setConn, .dialer 0 .maintain,
    .dialer 0 .handle, .maintainer 0 .fill, .tunnel 0 (.dial true), .reader 0 .ctx, .reader 0 .check, .reader 0 .conn,
    .reader 0 (.read none)]

def restarting : List Action :=
  [.restart 0 .lock, .restart 0 .cancel, .restart 0 .close, .restart 0 .wake, .restart 0 .reset]

/-- The server gives up the connection before `Restart` stores zero. -/
theorem counts_of_reach_restarted : ∃ s, Reach (Runs.step oneConn) StoresOverNone initial s ∧
    (s.gens.length = 2 ∧ s.tunnels = [.returned]) ∧ Counts s := by
  have hrestarted : ∃ s, Reach (Runs.step oneConn) StoresOverNone initial s ∧
      (s.gens.length = 2 ∧ s.tunnels = [.returned]) :=
    exists_reach (firstRun ++ restarting ++ [.tunnel 0 .received, .restart 0 .storePool]) (by decide +kernel)
  obtain ⟨s, hreach, hs⟩ := hrestarted
  exact ⟨s, hreach, hs, counts_of_reach hreach⟩

/-- The connection of the ended run waits on, `Restart` stores zero, and when the server gives the connection up
the counter goes below it. -/
theorem poolConnections_negative : ∃ s, Reach (Runs.step oneConn) Any initial s ∧
    (s.poolConnections = -1 ∧ s.idle = 0) :=
  exists_reach (firstRun ++ restarting ++ [.restart 0 .storePool, .tunnel 0 .received]) (by decide +kernel)

end ArangeTun.Client.Runs
