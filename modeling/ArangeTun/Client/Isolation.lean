import ArangeTun.Client.Runs

/-! # A run that has ended and the one after it -/

namespace ArangeTun.Client.Runs

open Go Wire Transition List Option

variable {cfg : PoolConfig} {s s' : State} {i : Nat}

/-- No goroutine of a run holds a control channel or a context of a later one, or is about to end a later one. -/
structure Isolated (s : State) : Prop where
  reads : ∀ h ∈ s.handlers, ∀ c o, h.reader = .reading (some c) → s.conns[c]? = some o → o ≤ h.run
  writes : ∀ h ∈ s.handlers, ∀ c o, h.main = .sendingClosed (some c) ∨ h.main = .sendingRTT (some c) →
    s.conns[c]? = some o → o ≤ h.run
  ends : ∀ r ∈ s.restarts, r.pc = .cancelling → s.cur ≤ r.run
  readers : ∀ h ∈ s.handlers, ∀ k, h.reader = .checking k → k ≤ h.run
  mains : ∀ h ∈ s.handlers, ∀ k, h.main = .waiting k → k ≤ h.run
  maintainers : ∀ m ∈ s.maintainers, ∀ k, m.pc = .waiting k → k ≤ m.run

/-- When `Reset` publishes a generation, the dialer, the handler and the maintainer of the run before have
returned, and every `Restart` has got past its `TryLock`. -/
def Settled (s : State) : Action → Prop
  | .restart _ .reset =>
    (∀ d ∈ s.dialers, d.pc = .returned) ∧ (∀ h ∈ s.handlers, h.reader = .returned ∧ h.main = .returned) ∧
      (∀ m ∈ s.maintainers, m.pc = .returned) ∧ ∀ r ∈ s.restarts, r.pc ≠ .locking
  | _ => True

instance (s : State) (a : Action) : Decidable (Settled s a) := by
  unfold Settled
  split <;> infer_instance

/-! ## The invariant -/

def RestartPc.Holding (pc : RestartPc) : Prop := pc ≠ .locking ∧ pc ≠ .returned

def RestartPc.Early (pc : RestartPc) : Prop :=
  pc = .locking ∨ pc = .cancelling ∨ pc = .closing ∨ pc = .sleeping ∨ pc = .resetting

structure Inv (s : State) : Prop where
  dialers : ∀ (j : Nat) (d : Dialer), s.dialers[j]? = some d → d.pc ≠ .returned → d.run = s.cur
  handlers : ∀ (j : Nat) (h : Handler), s.handlers[j]? = some h →
    h.reader ≠ .returned ∨ h.main ≠ .returned → h.run = s.cur
  contexts : ∀ (j : Nat) (h : Handler), s.handlers[j]? = some h →
    ∀ k, h.reader = .checking k ∨ h.main = .waiting k → k ≤ s.cur
  maintainers : ∀ (j : Nat) (m : Maintainer), s.maintainers[j]? = some m → m.pc ≠ .returned →
    m.run = s.cur ∧ ∀ k, m.pc = .waiting k → k ≤ s.cur
  restarts : ∀ (j : Nat) (r : Restart), s.restarts[j]? = some r → r.pc.Early → r.run = s.cur
  locked : ∀ (j : Nat) (r : Restart), s.restarts[j]? = some r → r.pc.Holding → s.restartMutex = true
  mutex : ∀ (j j' : Nat) (r r' : Restart), s.restarts[j]? = some r → s.restarts[j']? = some r' →
    r.pc.Holding → r'.pc.Holding → j = j'
  owners : ∀ (c o : Nat), s.conns[c]? = some o → o ≤ s.cur

theorem Inv.setDialer (hi : Inv s) (d : Dialer) (hd : d.pc ≠ .returned → d.run = s.cur) : Inv (s.setDialer i d) :=
  ⟨forall_set hi.dialers hd, hi.handlers, hi.contexts, hi.maintainers, hi.restarts, hi.locked, hi.mutex, hi.owners⟩

theorem Inv.setHandler (hi : Inv s) (h : Handler) (hrun : h.reader ≠ .returned ∨ h.main ≠ .returned → h.run = s.cur)
    (hctx : ∀ k, h.reader = .checking k ∨ h.main = .waiting k → k ≤ s.cur) : Inv (s.setHandler i h) :=
  ⟨hi.dialers, forall_set hi.handlers hrun, forall_set hi.contexts hctx, hi.maintainers, hi.restarts, hi.locked,
    hi.mutex, hi.owners⟩

theorem Inv.setMaintainer (hi : Inv s) (m : Maintainer)
    (hm : m.pc ≠ .returned → m.run = s.cur ∧ ∀ k, m.pc = .waiting k → k ≤ s.cur) : Inv (s.setMaintainer i m) :=
  ⟨hi.dialers, hi.handlers, hi.contexts, forall_set hi.maintainers hm, hi.restarts, hi.locked, hi.mutex, hi.owners⟩

theorem Inv.frame (hi : Inv s) {poolConnections loadConnections : Int} {controlFlow : Chan Unit 100}
    {tunnels : List TunnelPc} {conn : Option Nat} {parentDone : Bool} :
    Inv { s with poolConnections, loadConnections, controlFlow, tunnels, conn, parentDone } :=
  ⟨hi.dialers, hi.handlers, hi.contexts, hi.maintainers, hi.restarts, hi.locked, hi.mutex, hi.owners⟩

theorem Inv.goTunnel (hi : Inv s) : Inv s.goTunnel := hi.frame

theorem Inv.cancelled (hi : Inv s) {gens : List Bool} (hlen : gens.length = s.gens.length) :
    Inv { s with gens := gens } := by
  have hcur : ({ s with gens := gens } : State).cur = s.cur := congrArg (· - 1) hlen
  refine ⟨?_, ?_, ?_, ?_, ?_, hi.locked, hi.mutex, ?_⟩ <;> rw [hcur]
  · exact hi.dialers
  · exact hi.handlers
  · exact hi.contexts
  · exact hi.maintainers
  · exact hi.restarts
  · exact hi.owners

theorem Inv.goRestart (hi : Inv s) {run : Nat} (hrun : run = s.cur) : Inv (s.goRestart run) := by
  refine ⟨hi.dialers, hi.handlers, hi.contexts, hi.maintainers, forall_concat hi.restarts fun _ => hrun,
    forall_concat hi.locked (by simp [RestartPc.Holding]), ?_, hi.owners⟩
  intro j j' r r' hr hr' hh hh'
  rcases getElem?_concat_cases hr with hr | ⟨_, rfl⟩
  · rcases getElem?_concat_cases hr' with hr' | ⟨_, rfl⟩
    · exact hi.mutex j j' r r' hr hr' hh hh'
    · exact absurd rfl hh'.1
  · exact absurd rfl hh.1

theorem Inv.dialer {d : Dialer} {e : DialerEvent} (hi : Inv s) (hd : s.dialers[i]? = some d)
    (hs : dialerStep s i d e = some s') : Inv s' := by
  have hrun := hi.dialers i d hd
  cases e with
  | ctx =>
    obtain ⟨hpc, rfl⟩ := enabled hs
    exact hi.setDialer _ fun _ => hrun (by simp [hpc])
  | check =>
    simp only [dialerStep] at hs
    split at hs
    · rename_i k hpc
      cases hs
      exact hi.setDialer _ fun _ => hrun (by simp [hpc])
    · cases hs
  | attempt ok =>
    obtain ⟨hpc, rfl⟩ := enabled hs
    exact hi.setDialer _ fun _ => hrun (by simp [hpc])
  | setConn =>
    obtain ⟨hpc, rfl⟩ := enabled hs
    have hcur := hrun (by simp [hpc])
    have hset := hi.setDialer (i := i) { d with pc := .published } fun _ => hcur
    exact ⟨hset.dialers, hset.handlers, hset.contexts, hset.maintainers, hset.restarts, hset.locked, hset.mutex,
      forall_concat hi.owners (Nat.le_of_eq hcur)⟩
  | maintain =>
    obtain ⟨hpc, rfl⟩ := enabled hs
    have hcur := hrun (by simp [hpc])
    have hset := hi.setDialer (i := i) { d with pc := .maintained } fun _ => hcur
    exact ⟨hset.dialers, hset.handlers, hset.contexts, forall_concat hi.maintainers fun _ => ⟨hcur, by simp⟩,
      hset.restarts, hset.locked, hset.mutex, hset.owners⟩
  | handle =>
    obtain ⟨hpc, rfl⟩ := enabled hs
    have hcur := hrun (by simp [hpc])
    have hset := hi.setDialer (i := i) { d with pc := .returned } fun _ => hcur
    exact ⟨hset.dialers, forall_concat hi.handlers fun _ => hcur, forall_concat hi.contexts (by simp),
      hset.maintainers, hset.restarts, hset.locked, hset.mutex, hset.owners⟩

theorem Inv.setReader {h : Handler} (hi : Inv s) (hh : s.handlers[i]? = some h) (hpc : h.reader ≠ .returned)
    (reader : ReaderPc) (hreader : ∀ k, reader ≠ .checking k) (ch : Chan UInt8 1000) :
    Inv (s.setHandler i { h with reader := reader, msgChan := ch }) :=
  hi.setHandler _ (fun _ => hi.handlers i h hh (.inl hpc)) fun k hk =>
    hi.contexts i h hh k (.inr (hk.resolve_left (hreader k)))

theorem Inv.reader {h : Handler} {e : ReaderEvent} (hi : Inv s) (hh : s.handlers[i]? = some h)
    (hs : readerStep s i h e = some s') : Inv s' := by
  have hrun := hi.handlers i h hh
  cases e with
  | ctx =>
    obtain ⟨hpc, rfl⟩ := enabled hs
    refine hi.setHandler _ (fun _ => hrun (.inl (by simp [hpc]))) fun k hk => ?_
    rcases hk with hk | hk
    · cases hk
      exact Nat.le_refl _
    · exact hi.contexts i h hh k (.inr hk)
  | check =>
    simp only [readerStep] at hs
    split at hs
    · rename_i k hpc
      cases hs
      exact hi.setReader hh (by simp [hpc]) _ (fun k => by split <;> simp) h.msgChan
    · cases hs
  | conn =>
    obtain ⟨hpc, rfl⟩ := enabled hs
    exact hi.setReader hh (by simp [hpc]) (.reading s.conn) (by simp) h.msgChan
  | read msg =>
    cases msg with
    | some msg =>
      simp only [readerStep] at hs
      split at hs
      · rename_i c hpc
        cases hs
        exact hi.setReader hh (by simp [hpc]) (.delivering msg) (by simp) h.msgChan
      · cases hs
    | none =>
      simp only [readerStep] at hs
      split at hs
      · rename_i c hpc
        cases hs
        refine Inv.goRestart ?_ (hrun (.inl (by simp [hpc])))
        exact hi.setReader hh (by simp [hpc]) .returned (by simp) h.msgChan
      · cases hs
  | deliver =>
    simp only [readerStep] at hs
    split at hs
    · rename_i msg hpc
      obtain ⟨ch, _, rfl⟩ := map_eq_some_iff.mp hs
      exact hi.setReader hh (by simp [hpc]) .selecting (by simp) ch
    · cases hs

theorem Inv.setMain {h : Handler} (hi : Inv s) (hh : s.handlers[i]? = some h) (hpc : h.main ≠ .returned) (main : MainPc)
    (hmain : ∀ k, main ≠ .waiting k) (ch : Chan UInt8 1000) :
    Inv (s.setHandler i { h with main := main, msgChan := ch }) :=
  hi.setHandler _ (fun _ => hi.handlers i h hh (.inr hpc)) fun k hk =>
    hi.contexts i h hh k (.inl (hk.resolve_right (hmain k)))

theorem Inv.message {h : Handler} (hi : Inv s) (hh : s.handlers[i]? = some h) (hpc : h.main ≠ .returned) (msg : UInt8)
    (ch : Chan UInt8 1000) : Inv (mainMessage s i { h with msgChan := ch } msg) := by
  have hcur := hi.handlers i h hh (.inr hpc)
  unfold mainMessage
  split
  · have hset := hi.setMain hh hpc .selecting (by simp) ch
    dsimp only
    split
    · exact hset.frame
    · exact hset.frame
  split
  · exact hi.setMain hh hpc .selecting (by simp) ch
  split
  · exact hi.setMain hh hpc .answering (by simp) ch
  · exact (hi.setMain hh hpc .returned (by simp) ch).goRestart hcur

theorem Inv.main {h : Handler} {e : MainEvent} (hi : Inv s) (hh : s.handlers[i]? = some h)
    (hs : mainStep s i h e = some s') : Inv s' := by
  have hrun := hi.handlers i h hh
  cases e with
  | ctx =>
    obtain ⟨hpc, rfl⟩ := enabled hs
    refine hi.setHandler _ (fun _ => hrun (.inr (by simp [hpc]))) fun k hk => ?_
    rcases hk with hk | hk
    · exact hi.contexts i h hh k (.inl hk)
    · cases hk
      exact Nat.le_refl _
  | done =>
    simp only [mainStep] at hs
    split at hs
    · rename_i k hpc
      obtain ⟨_, rfl⟩ := enabled hs
      exact hi.setMain hh (by simp [hpc]) .closing (by simp) h.msgChan
    · cases hs
  | message =>
    simp only [mainStep] at hs
    split at hs
    · rename_i k hpc
      obtain ⟨r, _, rfl⟩ := map_eq_some_iff.mp hs
      exact hi.message hh (by simp [hpc]) r.1 r.2
    · cases hs
  | conn =>
    simp only [mainStep] at hs
    split at hs
    · rename_i hpc
      cases hs
      exact hi.setMain hh (by simp [hpc]) (.sendingClosed s.conn) (by simp) h.msgChan
    · rename_i hpc
      cases hs
      exact hi.setMain hh (by simp [hpc]) (.sendingRTT s.conn) (by simp) h.msgChan
    · cases hs
  | send ok =>
    simp only [mainStep] at hs
    split at hs
    · rename_i c hpc
      cases hs
      exact hi.setMain hh (by simp [hpc]) .returned (by simp) h.msgChan
    · rename_i c hpc
      split at hs <;> cases hs
      · exact hi.setMain hh (by simp [hpc]) .selecting (by simp) h.msgChan
      · refine Inv.goRestart ?_ (hrun (.inr (by simp [hpc])))
        exact hi.setMain hh (by simp [hpc]) .returned (by simp) h.msgChan
    · cases hs

theorem Inv.maintainer {m : Maintainer} {e : MaintainerEvent} (hi : Inv s) (hm : s.maintainers[i]? = some m)
    (hs : maintainerStep cfg s i m e = some s') : Inv s' := by
  have hrun := hi.maintainers i m hm
  cases e with
  | fill =>
    simp only [maintainerStep] at hs
    split at hs
    · rename_i n hpc
      have hcur := (hrun (by simp [hpc])).1
      split at hs <;> cases hs
      · refine Inv.goTunnel ?_
        exact hi.setMaintainer _ fun _ => ⟨hcur, by simp⟩
      · exact hi.setMaintainer _ fun _ => ⟨hcur, by simp⟩
    · cases hs
  | ctx =>
    obtain ⟨hpc, rfl⟩ := enabled hs
    refine hi.setMaintainer _ fun _ => ⟨(hrun (by simp [hpc])).1, fun k hk => ?_⟩
    cases hk
    exact Nat.le_refl _
  | done =>
    simp only [maintainerStep] at hs
    split at hs
    · obtain ⟨_, rfl⟩ := enabled hs
      exact hi.setMaintainer _ fun h => absurd rfl h
    · cases hs
  | tickPool =>
    simp only [maintainerStep] at hs
    split at hs
    · rename_i k hpc
      cases hs
      exact hi.setMaintainer _ fun _ => ⟨(hrun (by simp [hpc])).1, by simp⟩
    · cases hs
  | tickLoad mbps =>
    have hi' : Inv { s with loadConnections := 0 } := hi.frame
    simp only [maintainerStep] at hs
    split at hs
    · rename_i k hpc
      have hcur := (hrun (by simp [hpc])).1
      split at hs <;> cases hs
      · refine Inv.goTunnel ?_
        exact hi'.setMaintainer _ fun _ => ⟨hcur, by simp⟩
      · exact hi'.setMaintainer _ fun _ => ⟨hcur, by simp⟩
      · exact hi'.setMaintainer _ fun _ => ⟨hcur, by simp⟩
    · cases hs
  | push =>
    simp only [maintainerStep] at hs
    split at hs
    · rename_i hpc
      obtain ⟨ch, _, rfl⟩ := map_eq_some_iff.mp hs
      have hset := hi.setMaintainer (i := i) { m with pc := .selecting } fun _ => ⟨(hrun (by simp [hpc])).1, by simp⟩
      exact hset.frame
    · cases hs

theorem Inv.setRestartPc {r : Restart} (hi : Inv s) (hr : s.restarts[i]? = some r) (pc : RestartPc)
    (hearly : pc.Early → r.pc.Early) (hhold : pc.Holding → r.pc.Holding) :
    Inv (s.setRestart i { r with pc := pc }) := by
  refine ⟨hi.dialers, hi.handlers, hi.contexts, hi.maintainers,
    forall_set hi.restarts fun h => hi.restarts i r hr (hearly h),
    forall_set hi.locked fun h => hi.locked i r hr (hhold h), ?_, hi.owners⟩
  intro j j' x x' hx hx' hh hh'
  rcases getElem?_set_cases hx with ⟨rfl, rfl⟩ | ⟨_, hold⟩
  · rcases getElem?_set_cases hx' with ⟨rfl, rfl⟩ | ⟨_, hold'⟩
    · rfl
    · exact hi.mutex _ _ r x' hr hold' (hhold hh) hh'
  · rcases getElem?_set_cases hx' with ⟨rfl, rfl⟩ | ⟨_, hold'⟩
    · exact hi.mutex _ _ x r hold hr hh (hhold hh')
    · exact hi.mutex _ _ x x' hold hold' hh hh'

theorem Inv.lock {r : Restart} (hi : Inv s) (hr : s.restarts[i]? = some r) (hpc : r.pc = .locking)
    (hfree : s.restartMutex = false) :
    Inv { s.setRestart i { r with pc := .cancelling } with restartMutex := true } := by
  have hnone : ∀ (j : Nat) (x : Restart), s.restarts[j]? = some x → ¬ x.pc.Holding := by
    intro j x hx hh
    have hlocked := hi.locked j x hx hh
    rw [hfree] at hlocked
    cases hlocked
  refine ⟨hi.dialers, hi.handlers, hi.contexts, hi.maintainers,
    forall_set hi.restarts fun _ => hi.restarts i r hr (.inl hpc), fun _ _ _ _ => rfl, ?_, hi.owners⟩
  intro j j' x x' hx hx' hh hh'
  rcases getElem?_set_cases hx with ⟨rfl, rfl⟩ | ⟨_, hx⟩
  · rcases getElem?_set_cases hx' with ⟨rfl, rfl⟩ | ⟨_, hx'⟩
    · rfl
    · exact absurd hh' (hnone j' x' hx')
  · exact absurd hh (hnone j x hx)

theorem Inv.unlock {r : Restart} (hi : Inv s) (hr : s.restarts[i]? = some r) (hpc : r.pc.Holding) :
    Inv { s.setRestart i { r with pc := .returned } with restartMutex := false } := by
  have hset := hi.setRestartPc hr .returned (by simp [RestartPc.Early]) (by simp [RestartPc.Holding])
  refine ⟨hset.dialers, hset.handlers, hset.contexts, hset.maintainers, hset.restarts, ?_, hset.mutex, hset.owners⟩
  intro j x hx hh
  rcases getElem?_set_cases hx with ⟨rfl, rfl⟩ | ⟨hne, hx⟩
  · exact absurd rfl hh.2
  · exact absurd (hi.mutex _ _ r x hr hx hpc hh) hne

theorem Inv.reset {r : Restart} (hi : Inv s) (hsettled : Settled s (.restart i .reset)) (hr : s.restarts[i]? = some r)
    (hpc : r.pc = .resetting) :
    Inv { s.setRestart i { r with pc := .storingPool } with gens := s.gens ++ [s.parentDone], conn := none } := by
  obtain ⟨hdialers, hhandlers, hmaintainers, hrestarts⟩ := hsettled
  have hhold : r.pc.Holding := by simp [RestartPc.Holding, hpc]
  have hset := hi.setRestartPc hr .storingPool (by simp [RestartPc.Early]) fun _ => hhold
  have hcur : s.cur ≤ (s.gens ++ [s.parentDone]).length - 1 := by
    simp only [State.cur, length_append, length_singleton]
    omega
  refine ⟨?_, ?_, ?_, ?_, ?_, hset.locked, hset.mutex, fun c o ho => (hi.owners c o ho).trans hcur⟩
  · intro j d hd hlive
    exact absurd (hdialers d (mem_of_getElem? hd)) hlive
  · intro j h hh hlive
    have hreturned := hhandlers h (mem_of_getElem? hh)
    exact absurd hreturned (not_and_or.mpr hlive)
  · intro j h hh k hk
    exact (hi.contexts j h hh k hk).trans hcur
  · intro j m hm hlive
    exact absurd (hmaintainers m (mem_of_getElem? hm)) hlive
  · intro j x hx hearly
    rcases getElem?_set_cases hx with ⟨rfl, rfl⟩ | ⟨hne, hx⟩
    · simp [RestartPc.Early] at hearly
    · have hlocking := hrestarts x (mem_of_getElem? hx)
      have hx_hold : x.pc.Holding := by
        refine ⟨hlocking, fun h => ?_⟩
        simp [RestartPc.Early, h] at hearly
      exact absurd (hi.mutex _ _ r x hr hx hhold hx_hold) hne

theorem Inv.restart {r : Restart} {e : RestartEvent} (hi : Inv s) (hsettled : Settled s (.restart i e))
    (hr : s.restarts[i]? = some r) (hs : restartStep s i r e = some s') : Inv s' := by
  cases e with
  | lock =>
    simp only [restartStep] at hs
    split at hs
    · rename_i hpc
      split at hs <;> cases hs
      · exact hi.setRestartPc hr .returned (by simp [RestartPc.Early]) (by simp [RestartPc.Holding])
      · rename_i hfree
        exact hi.lock hr hpc (by simpa using hfree)
    · cases hs
  | cancel =>
    obtain ⟨hpc, rfl⟩ := enabled hs
    have hset := hi.setRestartPc hr .closing (by simp [RestartPc.Early, hpc]) (by simp [RestartPc.Holding, hpc])
    exact hset.cancelled (length_set ..)
  | close =>
    obtain ⟨hpc, rfl⟩ := enabled hs
    exact hi.setRestartPc hr .sleeping (by simp [RestartPc.Early, hpc]) (by simp [RestartPc.Holding, hpc])
  | wake =>
    simp only [restartStep] at hs
    split at hs
    · rename_i hpc
      split at hs <;> cases hs
      · exact hi.unlock hr (by simp [RestartPc.Holding, hpc])
      · exact hi.setRestartPc hr .resetting (by simp [RestartPc.Early, hpc]) (by simp [RestartPc.Holding, hpc])
    · cases hs
  | reset =>
    obtain ⟨hpc, rfl⟩ := enabled hs
    exact hi.reset hsettled hr hpc
  | storePool =>
    obtain ⟨hpc, rfl⟩ := enabled hs
    have hset := hi.setRestartPc hr .storingLoad (by simp [RestartPc.Early]) (by simp [RestartPc.Holding, hpc])
    exact hset.frame
  | storeLoad =>
    obtain ⟨hpc, rfl⟩ := enabled hs
    have hset := hi.setRestartPc hr .draining (by simp [RestartPc.Early]) (by simp [RestartPc.Holding, hpc])
    exact hset.frame
  | drain =>
    simp only [restartStep] at hs
    split at hs
    · rename_i hpc
      split at hs <;> cases hs
      · exact hi.frame
      · exact hi.setRestartPc hr .starting (by simp [RestartPc.Early]) (by simp [RestartPc.Holding, hpc])
    · cases hs
  | start =>
    obtain ⟨hpc, rfl⟩ := enabled hs
    have hset := hi.unlock hr (by simp [RestartPc.Holding, hpc])
    exact ⟨forall_concat hi.dialers fun _ => rfl, hset.handlers, hset.contexts, hset.maintainers, hset.restarts,
      hset.locked, hset.mutex, hset.owners⟩

/-! ## Every interleaving -/

theorem Inv.step {a : Action} (hi : Inv s) (hsettled : Settled s a) (hs : Runs.step cfg s a = some s') : Inv s' := by
  cases a with
  | shutdown =>
    cases hs
    exact (hi.cancelled (length_map ..)).frame
  | dialer i e =>
    obtain ⟨d, hd, h⟩ := bind_eq_some_iff.mp hs
    exact hi.dialer hd h
  | reader i e =>
    obtain ⟨h, hh, h⟩ := bind_eq_some_iff.mp hs
    exact hi.reader hh h
  | main i e =>
    obtain ⟨h, hh, h⟩ := bind_eq_some_iff.mp hs
    exact hi.main hh h
  | maintainer i e =>
    obtain ⟨m, hm, h⟩ := bind_eq_some_iff.mp hs
    exact hi.maintainer hm h
  | restart i e =>
    obtain ⟨r, hr, h⟩ := bind_eq_some_iff.mp hs
    exact hi.restart hsettled hr h
  | tunnel i e =>
    obtain ⟨t, _, h⟩ := bind_eq_some_iff.mp hs
    cases e with
    | dial ok =>
      simp only [tunnelStep] at h
      split at h
      · split at h <;> cases h <;> exact hi.frame
      · cases h
    | received =>
      obtain ⟨_, rfl⟩ := enabled h
      exact hi.frame

theorem Inv.init : Inv initial := by
  refine ⟨?_, by simp [initial], by simp [initial], by simp [initial], by simp [initial], by simp [initial],
    by simp [initial], by simp [initial]⟩
  intro j d hd _
  obtain rfl := mem_singleton.mp (mem_of_getElem? hd)
  rfl

theorem Inv.isolated (hi : Inv s) : Isolated s := by
  refine ⟨?_, ?_, ?_, ?_, ?_, ?_⟩
  · intro h hh c o hpc ho
    obtain ⟨j, hj⟩ := mem_iff_getElem?.mp hh
    rw [hi.handlers j h hj (.inl (by simp [hpc]))]
    exact hi.owners c o ho
  · intro h hh c o hpc ho
    obtain ⟨j, hj⟩ := mem_iff_getElem?.mp hh
    rw [hi.handlers j h hj (.inr (by rcases hpc with hpc | hpc <;> simp [hpc]))]
    exact hi.owners c o ho
  · intro r hr hpc
    obtain ⟨j, hj⟩ := mem_iff_getElem?.mp hr
    rw [hi.restarts j r hj (.inr (.inl hpc))]
  · intro h hh k hpc
    obtain ⟨j, hj⟩ := mem_iff_getElem?.mp hh
    rw [hi.handlers j h hj (.inl (by simp [hpc]))]
    exact hi.contexts j h hj k (.inl hpc)
  · intro h hh k hpc
    obtain ⟨j, hj⟩ := mem_iff_getElem?.mp hh
    rw [hi.handlers j h hj (.inr (by simp [hpc]))]
    exact hi.contexts j h hj k (.inr hpc)
  · intro m hm k hpc
    obtain ⟨j, hj⟩ := mem_iff_getElem?.mp hm
    have hlive := hi.maintainers j m hj (by simp [hpc])
    rw [hlive.1]
    exact hlive.2 k hpc

/-- As long as every `Reset` comes after the goroutines of the run that it ends, no run touches a later one. -/
theorem isolated_of_reach (h : Reach (Runs.step cfg) Settled initial s) : Isolated s :=
  (h.invariant .init fun _ _ _ hi hsettled hs => hi.step hsettled hs : Inv s).isolated

def noPool : PoolConfig := ⟨0, by decide, false⟩

def closedByServer : List Action :=
  [.dialer 0 .ctx, .dialer 0 .check, .dialer 0 (.attempt true), .dialer 0 .setConn, .dialer 0 .maintain,
    .dialer 0 .handle, .reader 0 .ctx, .reader 0 .check, .reader 0 .conn, .reader 0 (.read (some 3)),
    .reader 0 .deliver, .main 0 .ctx, .main 0 .message]

def restarted : List Action :=
  [.restart 0 .wake, .restart 0 .reset, .restart 0 .storePool, .restart 0 .storeLoad, .restart 0 .drain,
    .restart 0 .start, .dialer 1 .ctx, .dialer 1 .check, .dialer 1 (.attempt true), .dialer 1 .setConn]

/-- The goroutines of the first run see the end of their context before the sleep of `Restart` is over. -/
theorem isolated_of_reach_restarted : ∃ s, Reach (Runs.step noPool) Settled initial s ∧
    (s.cur = 1 ∧ s.conn = some 1) ∧ Isolated s := by
  have hrestarted : ∃ s, Reach (Runs.step noPool) Settled initial s ∧ (s.cur = 1 ∧ s.conn = some 1) :=
    exists_reach (closedByServer ++ [.restart 0 .lock, .restart 0 .cancel, .restart 0 .close, .reader 0 .ctx,
      .reader 0 .check, .maintainer 0 .fill, .maintainer 0 .ctx, .maintainer 0 .done] ++ restarted) (by decide +kernel)
  obtain ⟨s, hreach, hs⟩ := hrestarted
  exact ⟨s, hreach, hs, isolated_of_reach hreach⟩

/-- The reader of the first run fetches its connection after the next run has published its own, and reads from that. -/
theorem reader_takes_later_channel : ∃ s, Reach (Runs.step noPool) Any initial s ∧
    (s.handlers.head?.map (fun h => (h.run, h.reader)) = some (0, .reading (some 1)) ∧ s.conns = [0, 1] ∧
      (Runs.step noPool s (.reader 0 (.read (some SG_HB)))).isSome) :=
  exists_reach (closedByServer ++ [.reader 0 .ctx, .reader 0 .check, .restart 0 .lock, .restart 0 .cancel,
    .restart 0 .close] ++ restarted ++ [.reader 0 .conn]) (by decide +kernel)

end ArangeTun.Client.Runs
